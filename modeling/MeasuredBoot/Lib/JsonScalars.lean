import MeasuredBoot.Lib.Json

/-! # Strings and integers in JSON

What the characters of a string or of a number stand for. A text that is written between
quotes as it is comes back only where it has nothing to escape.
-/

namespace Json

open Binary

/-! ## What a string stands for -/

/-- The UTF-8 encoding of a code point. -/
def utf8 (n : Nat) : Bytes :=
  if n < 0x80 then [UInt8.ofNat n]
  else if n < 0x800 then [UInt8.ofNat (0xC0 + n / 64), UInt8.ofNat (0x80 + n % 64)]
  else if n < 0x10000 then
    [UInt8.ofNat (0xE0 + n / 4096), UInt8.ofNat (0x80 + n / 64 % 64), UInt8.ofNat (0x80 + n % 64)]
  else
    [UInt8.ofNat (0xF0 + n / 262144), UInt8.ofNat (0x80 + n / 4096 % 64),
      UInt8.ofNat (0x80 + n / 64 % 64), UInt8.ofNat (0x80 + n % 64)]

/-- The four digits behind `\u`. -/
def codeUnit : Bytes → Option Nat
  | a :: b :: c :: d :: _ => do
      let a ← hexDigitValue a
      let b ← hexDigitValue b
      let c ← hexDigitValue c
      let d ← hexDigitValue d
      return 4096 * a + 256 * b + 16 * c + d
  | _ => none

def isHighSurrogate (unit : Nat) : Bool := 0xD800 ≤ unit && unit < 0xDC00

def isLowSurrogate (unit : Nat) : Bool := 0xDC00 ≤ unit && unit < 0xE000

/-- The characters behind a backslash that stand for one character. -/
def simpleEscapes : List (UInt8 × UInt8) :=
  [(34, 34), (92, 92), (47, 47), (98, 8), (102, 12), (110, 10), (114, 13), (116, 9)]

/-- What the escape behind a backslash stands for, and how long it is. -/
def escape : Bytes → Option (Bytes × Nat)
  | [] => none
  | c :: rest =>
      if c = 117 then do
        let unit ← codeUnit rest
        if isHighSurrogate unit then do
          let low ← codeUnit (rest.drop 6)
          if startsWith (rest.drop 4) (ascii "\\u") && isLowSurrogate low then
            return (utf8 (0x10000 + (unit - 0xD800) * 1024 + (low - 0xDC00)), 11)
          else none
        else if isLowSurrogate unit then none
        else return (utf8 unit, 5)
      else (simpleEscapes.find? (·.1 = c)).map fun e => ([e.2], 1)

def unescapeFrom : Nat → Bytes → Option Bytes
  | _, [] => some []
  | 0, _ :: _ => none
  | fuel + 1, c :: rest =>
      if c = 92 then do
        let (text, n) ← escape rest
        (unescapeFrom fuel (rest.drop n)).map (text ++ ·)
      else (unescapeFrom fuel rest).map (c :: ·)

/-- The text that the characters of a string stand for. -/
def unescape (body : Bytes) : Option Bytes := unescapeFrom body.length body

example : unescape (ascii "a\\n\\u00e9\\ud83d\\ude00") =
    some [97, 10, 0xC3, 0xA9, 0xF0, 0x9F, 0x98, 0x80] := by decide

theorem unescapeFrom_plain {fuel : Nat} {body : Bytes} (h : (92 : UInt8) ∉ body)
    (hfuel : body.length ≤ fuel) : unescapeFrom fuel body = some body := by
  induction body generalizing fuel with
  | nil => cases fuel <;> rfl
  | cons c body ih =>
      have hc := List.ne_of_not_mem_cons h
      have hbody := List.not_mem_of_not_mem_cons h
      rw [List.length_cons] at hfuel
      obtain ⟨fuel, rfl⟩ : ∃ n, fuel = n + 1 := ⟨fuel - 1, by omega⟩
      rw [unescapeFrom, if_neg hc.symm, ih hbody (by omega)]
      rfl

theorem Unescaped.no_backslash {text : Bytes} (h : Unescaped text) : (92 : UInt8) ∉ text :=
  fun hmem => (h 92 hmem).2.1 rfl

/-- A text without escapes stands for itself. -/
theorem unescape_unescaped {text : Bytes} (h : Unescaped text) : unescape text = some text :=
  unescapeFrom_plain h.no_backslash (Nat.le_refl _)

theorem length_utf8_le (n : Nat) : (utf8 n).length ≤ 4 := by
  unfold utf8
  split_ifs <;> simp

theorem codeUnit_length {text : Bytes} {unit : Nat} (h : codeUnit text = some unit) :
    4 ≤ text.length := by
  rcases text with _ | ⟨a, _ | ⟨b, _ | ⟨c, _ | ⟨d, rest⟩⟩⟩⟩
  · cases h
  · cases h
  · cases h
  · cases h
  · simp only [List.length_cons]
    omega

/-- An escape is longer than what it stands for. -/
theorem escape_length {rest text : Bytes} {n : Nat} (h : escape rest = some (text, n)) :
    text.length ≤ n ∧ n ≤ rest.length := by
  cases rest with
  | nil => cases h
  | cons c rest =>
      rw [escape] at h
      split at h
      · simp only [Option.bind_eq_bind, Option.bind_eq_some_iff] at h
        obtain ⟨unit, hunit, h⟩ := h
        have hfour := codeUnit_length hunit
        split at h
        · simp only [Option.bind_eq_some_iff] at h
          obtain ⟨low, hlow, h⟩ := h
          have hten := codeUnit_length hlow
          rw [List.length_drop] at hten
          split at h
          · obtain ⟨htext, hn⟩ := Prod.mk.inj (Option.some.inj h)
            have hutf8 := length_utf8_le (0x10000 + (unit - 0xD800) * 1024 + (low - 0xDC00))
            rw [htext] at hutf8
            rw [List.length_cons]
            exact ⟨by omega, by omega⟩
          · cases h
        · split at h
          · cases h
          · obtain ⟨htext, hn⟩ := Prod.mk.inj (Option.some.inj h)
            have hutf8 := length_utf8_le unit
            rw [htext] at hutf8
            rw [List.length_cons]
            exact ⟨by omega, by omega⟩
      · obtain ⟨e, _, hresult⟩ := Option.map_eq_some_iff.mp h
        cases hresult
        rw [List.length_singleton, List.length_cons]
        exact ⟨Nat.le_refl 1, by omega⟩

/-- A string with an escape is longer than the text it stands for. -/
theorem unescapeFrom_length {fuel : Nat} {body text : Bytes}
    (h : unescapeFrom fuel body = some text) :
    text.length ≤ body.length ∧ ((92 : UInt8) ∈ body → text.length < body.length) := by
  induction fuel generalizing body text with
  | zero =>
      cases body with
      | nil =>
          cases h
          exact ⟨Nat.le_refl _, fun hmem => absurd hmem List.not_mem_nil⟩
      | cons c body => cases h
  | succ fuel ih =>
      cases body with
      | nil =>
          cases h
          exact ⟨Nat.le_refl _, fun hmem => absurd hmem List.not_mem_nil⟩
      | cons c body =>
          rw [unescapeFrom] at h
          split at h
          · simp only [Option.bind_eq_bind, Option.bind_eq_some_iff, Prod.exists] at h
            obtain ⟨decoded, n, hescape, h⟩ := h
            obtain ⟨tail, htail, hresult⟩ := Option.map_eq_some_iff.mp h
            cases hresult
            obtain ⟨hdecoded, hn⟩ := escape_length hescape
            have hlen := (ih htail).1
            rw [List.length_drop] at hlen
            rw [List.length_append, List.length_cons]
            exact ⟨by omega, fun _ => by omega⟩
          · next hc =>
              obtain ⟨tail, htail, hresult⟩ := Option.map_eq_some_iff.mp h
              cases hresult
              obtain ⟨hle, hlt⟩ := ih htail
              rw [List.length_cons, List.length_cons]
              refine ⟨by omega, fun hmem => ?_⟩
              have hmem' := (List.mem_cons.mp hmem).resolve_left (Ne.symm hc)
              have hshort := hlt hmem'
              omega

/-! ## Strings written without escapes -/

theorem stringBody_skip {n : Nat} {text body tail : Bytes}
    (h : stringBody n text = some (body, tail)) :
    ∃ more, stringBody 0 (text.drop n) = some (more, tail) ∧ body = text.take n ++ more := by
  induction text generalizing n body with
  | nil => simp [stringBody] at h
  | cons c text ih =>
      cases n with
      | zero => exact ⟨body, h, rfl⟩
      | succ n =>
          rw [stringBody] at h
          obtain ⟨r, hr, hresult⟩ := Option.map_eq_some_iff.mp h
          cases hresult
          obtain ⟨more, hmore, hbody⟩ := ih hr
          exact ⟨more, hmore, by rw [hbody, List.take_succ_cons, List.cons_append]⟩

/-- An escape does not reach behind the quote that was meant to end the text, but for a
backslash right in front of it. -/
theorem escapeLength_within {text rest : Bytes} {n : Nat}
    (h : escapeLength (text ++ 34 :: rest) = some n) : n ≤ text.length ∨ text = [] ∧ n = 1 := by
  unfold escapeLength at h
  split at h
  · next hu =>
      split at h
      · next hdigits =>
          cases h
          left
          by_contra hshort
          have hquote : (34 : UInt8) ∈ ((text ++ 34 :: rest).drop 1).take 4 := by
            rcases text with _ | ⟨a, _ | ⟨b, _ | ⟨c, _ | ⟨d, _ | ⟨e, text⟩⟩⟩⟩⟩
            · cases hu
            · simp
            · simp
            · simp
            · simp
            · simp only [List.length_cons] at hshort
              omega
          exact absurd (List.all_eq_true.mp hdigits.2 34 hquote) (by decide)
      · cases h
  · split at h
    · cases h
      cases text with
      | nil => exact Or.inr ⟨rfl, rfl⟩
      | cons c text => exact Or.inl (Nat.succ_le_succ (Nat.zero_le _))
    · cases h

/-- What is read is the text up to its first quote, if nothing is read behind the quote
that was meant to end it. -/
theorem stringBody_prefix {text rest body tail : Bytes} (hrest : stringBody 0 rest = none)
    (h : stringBody 0 (text ++ 34 :: rest) = some (body, tail)) : body <+: text := by
  induction hlen : text.length using Nat.strong_induction_on generalizing text body with
  | _ count ih =>
  cases text with
  | nil =>
      cases h
      exact List.prefix_refl []
  | cons c text =>
      rw [List.length_cons] at hlen
      rw [List.cons_append, stringBody] at h
      split_ifs at h with hquote hbackslash hcontrol
      · cases h
        exact List.nil_prefix
      · cases hn : escapeLength (text ++ 34 :: rest) with
        | none =>
            rw [hn] at h
            cases h
        | some n =>
            rw [hn] at h
            obtain ⟨r, hr, hresult⟩ := Option.map_eq_some_iff.mp h
            cases hresult
            obtain ⟨more, hmore, hbody⟩ := stringBody_skip hr
            rcases escapeLength_within hn with hle | ⟨rfl, rfl⟩
            · rw [List.drop_append_of_le_length hle] at hmore
              have hprefix := ih (text.drop n).length (by rw [List.length_drop]; omega) hmore rfl
              rw [hbody, List.take_append_of_le_length hle, List.cons_prefix_cons]
              refine ⟨rfl, ?_⟩
              have hwhole := (List.prefix_append_right_inj (text.take n)).mpr hprefix
              rwa [List.take_append_drop] at hwhole
            · rw [List.nil_append, List.drop_one, List.tail_cons, hrest] at hmore
              cases hmore
      · obtain ⟨r, hr, hresult⟩ := Option.map_eq_some_iff.mp h
        cases hresult
        exact List.cons_prefix_cons.mpr ⟨rfl, ih text.length (by omega) hr rfl⟩

theorem unescaped_of_stringBody {text rest tail : Bytes} (hbackslash : (92 : UInt8) ∉ text)
    (h : stringBody 0 (text ++ 34 :: rest) = some (text, tail)) : Unescaped text := by
  induction text with
  | nil => exact fun c hc => absurd hc List.not_mem_nil
  | cons c text ih =>
      have hc := List.ne_of_not_mem_cons hbackslash
      have htext := List.not_mem_of_not_mem_cons hbackslash
      rw [List.cons_append, stringBody, if_neg hc.symm] at h
      split_ifs at h with hquote hcontrol
      · cases (Prod.mk.inj (Option.some.inj h)).1
      · obtain ⟨r, hr, hresult⟩ := Option.map_eq_some_iff.mp h
        obtain ⟨hbody, htail⟩ := Prod.mk.inj hresult
        have hsame : r = (text, tail) := Prod.ext (List.cons.inj hbody).2 htail
        rw [hsame] at hr
        intro d hd
        rcases List.mem_cons.mp hd with rfl | hd
        · exact ⟨hquote, hc.symm, hcontrol⟩
        · exact ih htext hr d hd

/-- A text that was written as it is and is read back had nothing to escape. -/
theorem unescaped_of_unescape {text rest body tail : Bytes} (hrest : stringBody 0 rest = none)
    (h : stringBody 0 (text ++ 34 :: rest) = some (body, tail))
    (hunescape : unescape body = some text) : Unescaped text := by
  have hprefix := stringBody_prefix hrest h
  obtain ⟨hle, hlt⟩ := unescapeFrom_length hunescape
  have hge := hprefix.length_le
  have hsame : body = text := hprefix.eq_of_length (by omega)
  have hbackslash : (92 : UInt8) ∉ text := by
    intro hmem
    have hshort := hlt (hsame ▸ hmem)
    omega
  rw [hsame] at h
  exact unescaped_of_stringBody hbackslash h

/-! ## Integers -/

/-- An integer in decimal digits. -/
def integer (n : Int) : Bytes :=
  if n < 0 then ascii "-" ++ decText n.natAbs else decText n.natAbs

theorem integer_natCast (n : Nat) : integer n = decText n := by
  rw [integer, if_neg (by omega), Int.natAbs_natCast]

def digitsValue (digits : Bytes) : Nat :=
  digits.foldl (fun value c => 10 * value + (c.toNat - 48)) 0

/-- The number that the characters of a number stand for, if it is an integer. -/
def readInteger (text : Bytes) : Option Int :=
  let digits := skipSign [45] text
  if digits.all isDigit then
    if text.head? = some 45 then some (-digitsValue digits) else some (digitsValue digits)
  else none

theorem decText_digit {n : Nat} (h : n < 10) : decText n = [UInt8.ofNat (48 + n)] := by
  have hall : ∀ n < 10, decText n = [UInt8.ofNat (48 + n)] := by decide
  exact hall n h

theorem decText_concat {n : Nat} (h : 10 ≤ n) :
    decText n = decText (n / 10) ++ [UInt8.ofNat (48 + n % 10)] := by
  have hlast := decText_digit (Nat.mod_lt n (by decide : 0 < 10))
  have hdigit : Nat.toDigits 10 (n % 10) = [Nat.digitChar (n % 10)] :=
    Nat.toDigits_of_lt_base (Nat.mod_lt n (by decide))
  rw [← hlast, decText, decText, decText, Nat.toDigits_of_base_le (by decide) h, List.map_append,
    hdigit]

theorem isDigit_ofNat {d : Nat} (h : d < 10) : isDigit (UInt8.ofNat (48 + d)) = true ∧
    (UInt8.ofNat (48 + d)).toNat = 48 + d := by
  have hall : ∀ d < 10, isDigit (UInt8.ofNat (48 + d)) = true ∧
      (UInt8.ofNat (48 + d)).toNat = 48 + d := by decide
  exact hall d h

/-- The digits of a number: no zero leads them, but for the number zero. -/
theorem decText_spec (n : Nat) : (decText n).all isDigit = true ∧ decText n ≠ [] ∧
    (n ≠ 0 → (decText n).head? ≠ some 48) ∧ digitsValue (decText n) = n := by
  induction n using Nat.strong_induction_on with
  | _ n ih =>
  by_cases h : n < 10
  · rw [decText_digit h]
    obtain ⟨hdigit, hvalue⟩ := isDigit_ofNat h
    refine ⟨by rw [List.all_cons, hdigit]; rfl, List.cons_ne_nil _ _, ?_, ?_⟩
    · intro hn hhead
      have hzero := congrArg UInt8.toNat (Option.some.inj hhead)
      rw [hvalue] at hzero
      have h48 : (48 : UInt8).toNat = 48 := rfl
      omega
    · rw [digitsValue, List.foldl_cons, List.foldl_nil, hvalue]
      omega
  · have hge : 10 ≤ n := Nat.le_of_not_lt h
    obtain ⟨hdigits, hne, hhead, hvalue⟩ := ih (n / 10) (by omega)
    obtain ⟨hdigit, hlast⟩ := isDigit_ofNat (Nat.mod_lt n (by decide : 0 < 10))
    rw [decText_concat hge]
    refine ⟨by rw [List.all_append, hdigits, List.all_cons, hdigit]; rfl,
      List.append_ne_nil_of_left_ne_nil hne _, ?_, ?_⟩
    · intro _
      rw [List.head?_append_of_ne_nil _ hne]
      exact hhead (by omega)
    · rw [digitsValue] at hvalue ⊢
      rw [List.foldl_append, hvalue, List.foldl_cons, List.foldl_nil, hlast]
      omega

theorem isNumberChar_of_isDigit {c : UInt8} (h : isDigit c = true) : isNumberChar c = true := by
  rw [isNumberChar, h]
  rfl

/-- Digits are no sign. -/
theorem skipSign_decText (n : Nat) : skipSign [45] (decText n) = decText n := by
  obtain ⟨hdigits, hne, _⟩ := decText_spec n
  obtain ⟨c, tail, htext⟩ := List.exists_cons_of_ne_nil hne
  rw [htext] at hdigits ⊢
  have hc := List.all_eq_true.mp hdigits c List.mem_cons_self
  rw [skipSign, if_neg]
  intro hsign
  obtain rfl : c = 45 := by simpa using hsign
  cases hc

theorem validDigits {digits : Bytes} (hdigits : digits.all isDigit = true) (hne : digits ≠ [])
    (hlead : digits.length = 1 ∨ digits.head? ≠ some 48) {text : Bytes}
    (htext : skipSign [45] text = digits) : validNumber text = true := by
  have hwhole : digits.takeWhile isDigit = digits :=
    List.takeWhile_eq_self_iff.mpr (List.all_eq_true.mp hdigits)
  have hrest : digits.dropWhile isDigit = [] :=
    List.dropWhile_eq_nil_iff.mpr (List.all_eq_true.mp hdigits)
  rw [validNumber, htext, hwhole, hrest]
  simp [hne, hlead, validFraction, validExponent]

theorem validNumber_integer (n : Int) : validNumber (integer n) = true := by
  obtain ⟨hdigits, hne, hhead, _⟩ := decText_spec n.natAbs
  have hlead : (decText n.natAbs).length = 1 ∨ (decText n.natAbs).head? ≠ some 48 := by
    by_cases hzero : n.natAbs = 0
    · rw [hzero]
      exact Or.inl rfl
    · exact Or.inr (hhead hzero)
  refine validDigits hdigits hne hlead ?_
  unfold integer
  split
  · rfl
  · exact skipSign_decText n.natAbs

theorem integer_chars (n : Int) : (integer n).all isNumberChar = true := by
  obtain ⟨hdigits, _⟩ := decText_spec n.natAbs
  have hchars : (decText n.natAbs).all isNumberChar = true :=
    List.all_eq_true.mpr fun c hc => isNumberChar_of_isDigit (List.all_eq_true.mp hdigits c hc)
  unfold integer
  split
  · rw [List.all_append, hchars]
    rfl
  · exact hchars

theorem plain_integer (n : Int) : Plain (integer n) := by
  have hall : ∀ k < 256, isNumberChar (UInt8.ofNat k) = true →
      Unescaped [UInt8.ofNat k] ∧ UInt8.ofNat k < 0x80 := by
    decide +kernel
  refine plain_of_forall fun c hc => ?_
  have hchar := List.all_eq_true.mp (integer_chars n) c hc
  have hbyte : UInt8.ofNat c.toNat = c := UInt8.ofNat_toNat
  have hplain := hall c.toNat c.toNat_lt (hbyte.symm ▸ hchar)
  rwa [hbyte] at hplain

theorem reads_integer (n : Int) : Reads 1 (integer n) (.number (integer n)) := by
  have hne : integer n ≠ [] := by
    intro hnil
    have hvalid := validNumber_integer n
    rw [hnil] at hvalid
    cases hvalid
  obtain ⟨c, tail, htext⟩ := List.exists_cons_of_ne_nil hne
  have hchars := integer_chars n
  have hvalid := validNumber_integer n
  rw [htext] at hchars hvalid ⊢
  exact Reads.number hchars hvalid

theorem plain_decText (n : Nat) : Plain (decText n) := by
  rw [← integer_natCast]
  exact plain_integer n

theorem reads_decText (n : Nat) : Reads 1 (decText n) (.number (decText n)) := by
  rw [← integer_natCast]
  exact reads_integer n

theorem readInteger_integer (n : Int) : readInteger (integer n) = some n := by
  obtain ⟨hdigits, hne, _, hvalue⟩ := decText_spec n.natAbs
  unfold readInteger integer
  split
  · have hsign : skipSign [45] (ascii "-" ++ decText n.natAbs) = decText n.natAbs := rfl
    have hminus : (ascii "-" ++ decText n.natAbs).head? = some 45 := rfl
    dsimp only
    rw [hsign, if_pos hdigits, if_pos hminus, hvalue]
    congr 1
    omega
  · obtain ⟨c, tail, htext⟩ := List.exists_cons_of_ne_nil hne
    have hhead : (decText n.natAbs).head? ≠ some 45 := by
      intro hhead
      rw [htext] at hhead hdigits
      obtain rfl : c = 45 := Option.some.inj hhead
      exact absurd (List.all_eq_true.mp hdigits 45 List.mem_cons_self) (by decide)
    dsimp only
    rw [skipSign_decText, if_pos hdigits, if_neg hhead, hvalue]
    congr 1
    omega

end Json
