import MeasuredBoot.Lib.Bytes
import Mathlib.Data.List.TakeWhile

/-! # C strings

Byte strings as the string functions of C see them: up to the first NUL, split
into lines or at a separator, read and written in hexadecimal, cut down to their
last path component, and assembled in a buffer by one `memcpy` after the other.
-/

namespace Binary

/-! ## NUL-terminated strings -/

/-- The string that starts at the first byte of an object. -/
def cString (object : Bytes) : Bytes := object.takeWhile (· ≠ 0)

theorem cString_nul_free (object : Bytes) : (0 : UInt8) ∉ cString object := by
  intro h
  have hne := List.mem_takeWhile_imp h
  simp at hne

theorem forall_ne_of_not_mem {text : Bytes} {c : UInt8} (h : c ∉ text) :
    ∀ b ∈ text, decide (b ≠ c) = true := by
  intro b hb
  rw [decide_eq_true_eq]
  rintro rfl
  exact h hb

/-- A text without NUL is the start of the string. -/
theorem cString_append {text : Bytes} (h : (0 : UInt8) ∉ text) (rest : Bytes) :
    cString (text ++ rest) = text ++ cString rest := by
  rw [cString, List.takeWhile_append_of_pos (forall_ne_of_not_mem h)]
  rfl

theorem cString_eq_self {text : Bytes} (h : (0 : UInt8) ∉ text) : cString text = text := by
  have happend := cString_append h []
  rw [List.append_nil] at happend
  rw [happend]
  exact List.append_nil text

theorem cString_append_nul {text : Bytes} (h : (0 : UInt8) ∉ text) (rest : Bytes) :
    cString (text ++ 0 :: rest) = text := by
  have hnul : cString (0 :: rest) = [] := by simp [cString]
  rw [cString_append h, hnul, List.append_nil]

theorem cString_append_nul_self {text : Bytes} (h : (0 : UInt8) ∉ text) :
    cString (text ++ [0]) = text := cString_append_nul h []

/-- `strsep` applied until the string is used up. -/
def strsepAll (separator : UInt8) (text : Bytes) : List Bytes := text.splitOn separator

/-- One call of `strtok` with a single delimiter: the token and what is left. -/
def strtok (delimiter : UInt8) (text : Bytes) : Option (Bytes × Bytes) :=
  let start := text.dropWhile (· = delimiter)
  if start = [] then none
  else some (start.takeWhile (· ≠ delimiter), (start.dropWhile (· ≠ delimiter)).drop 1)

/-- `strtok` called until it returns `NULL`. -/
def strtokAll (delimiter : UInt8) (text : Bytes) : List Bytes :=
  (text.splitOn delimiter).filter (· ≠ [])

section OneToken

variable {delimiter : UInt8}

theorem strtok_delimited {token : Bytes} (hne : token ≠ []) (h : delimiter ∉ token)
    (rest : Bytes) : strtok delimiter (token ++ delimiter :: rest) = some (token, rest) := by
  have hall := forall_ne_of_not_mem h
  have hstart : (token ++ delimiter :: rest).dropWhile (· = delimiter) =
      token ++ delimiter :: rest := by
    cases token with
    | nil => exact absurd rfl hne
    | cons b token =>
        have hb := hall b List.mem_cons_self
        simp only [decide_eq_true_eq] at hb
        simp [hb]
  unfold strtok
  rw [hstart, if_neg (by simp), List.takeWhile_append_of_pos hall,
    List.dropWhile_append_of_pos hall]
  simp

theorem strtok_last {token : Bytes} (hne : token ≠ []) (h : delimiter ∉ token) :
    strtok delimiter token = some (token, []) := by
  have hall := forall_ne_of_not_mem h
  have hstart : token.dropWhile (· = delimiter) = token := by
    cases token with
    | nil => rfl
    | cons b token =>
        have hb := hall b List.mem_cons_self
        simp only [decide_eq_true_eq] at hb
        simp [hb]
  unfold strtok
  rw [hstart, if_neg hne, List.takeWhile_eq_self_iff.mpr hall, List.dropWhile_eq_nil_iff.mpr hall]
  rfl

/-- There is a token where there is another byte than the delimiter. -/
theorem strtok_isSome {text : Bytes} :
    (strtok delimiter text).isSome ↔ ∃ b ∈ text, b ≠ delimiter := by
  unfold strtok
  simp only
  split
  · next hempty =>
    simp only [Option.isSome_none, Bool.false_eq_true, false_iff, not_exists, not_and, not_not]
    intro b hb
    exact of_decide_eq_true (List.dropWhile_eq_nil_iff.mp hempty b hb)
  · next hstart =>
    simp only [Option.isSome_some, true_iff]
    by_contra hnone
    push Not at hnone
    apply hstart
    rw [List.dropWhile_eq_nil_iff]
    intro b hb
    exact decide_eq_true (hnone b hb)

end OneToken

/-! ### Tokens -/

/-- The maximal runs of bytes other than a delimiter, in order. -/
inductive Tokens (delimiter : UInt8) : Bytes → List Bytes → Prop where
  | empty : Tokens delimiter [] []
  | last (token : Bytes) (hne : token ≠ []) (hfree : delimiter ∉ token) :
      Tokens delimiter token [token]
  | skip (rest : Bytes) (tokens : List Bytes) (h : Tokens delimiter rest tokens) :
      Tokens delimiter (delimiter :: rest) tokens
  | next (token rest : Bytes) (tokens : List Bytes) (hne : token ≠ [])
      (hfree : delimiter ∉ token) (h : Tokens delimiter rest tokens) :
      Tokens delimiter (token ++ delimiter :: rest) (token :: tokens)

/-- A text is one without delimiters, or starts with such a one and a delimiter. -/
theorem delimited_induction {motive : Bytes → Prop} (delimiter : UInt8)
    (last : ∀ line, delimiter ∉ line → motive line)
    (next : ∀ line rest, delimiter ∉ line → motive rest → motive (line ++ delimiter :: rest))
    (text : Bytes) : motive text := by
  obtain ⟨n, hn⟩ : ∃ n, text.length = n := ⟨_, rfl⟩
  induction n using Nat.strong_induction_on generalizing text with
  | _ n ih =>
      by_cases hmem : delimiter ∈ text
      · obtain ⟨line, rest, rfl, hfree⟩ := List.eq_append_cons_of_mem hmem
        refine next line rest hfree (ih rest.length ?_ rest rfl)
        simp only [List.length_append, List.length_cons] at hn
        omega
      · exact last text hmem

/-- A text is determined up to its first delimiter. -/
theorem delimited_injective {delimiter : UInt8} {line line' rest rest' : Bytes}
    (hfree : delimiter ∉ line) (hfree' : delimiter ∉ line')
    (h : line ++ delimiter :: rest = line' ++ delimiter :: rest') :
    line = line' ∧ rest = rest' := by
  induction line generalizing line' with
  | nil =>
      cases line' with
      | nil => exact ⟨rfl, (List.cons.inj h).2⟩
      | cons c line' =>
          obtain ⟨rfl, -⟩ := List.cons.inj h
          exact absurd List.mem_cons_self hfree'
  | cons c line ih =>
      cases line' with
      | nil =>
          obtain ⟨rfl, -⟩ := List.cons.inj h
          exact absurd List.mem_cons_self hfree
      | cons c' line' =>
          obtain ⟨rfl, htail⟩ := List.cons.inj h
          obtain ⟨rfl, hrest⟩ := ih (fun hmem => hfree (List.mem_cons_of_mem c hmem))
            (fun hmem => hfree' (List.mem_cons_of_mem c hmem)) htail
          exact ⟨rfl, hrest⟩

section Strtok

variable {delimiter : UInt8}

theorem strtokAll_last {line : Bytes} (h : delimiter ∉ line) :
    strtokAll delimiter line = if line = [] then [] else [line] := by
  rw [strtokAll, List.splitOn_eq_singleton h]
  by_cases hempty : line = [] <;> simp [hempty]

theorem strtokAll_next {line : Bytes} (h : delimiter ∉ line) (rest : Bytes) :
    strtokAll delimiter (line ++ delimiter :: rest) =
      (if line = [] then [] else [line]) ++ strtokAll delimiter rest := by
  rw [strtokAll, List.splitOn_append_cons_self_of_not_mem h]
  by_cases hempty : line = [] <;> simp [hempty, strtokAll]

/-- `strtok` delivers the tokens of a text. -/
theorem tokens_strtokAll (delimiter : UInt8) (text : Bytes) :
    Tokens delimiter text (strtokAll delimiter text) := by
  induction text using delimited_induction delimiter with
  | last line h =>
      rw [strtokAll_last h]
      split
      · next hempty =>
        subst hempty
        exact .empty
      · next hempty => exact .last line hempty h
  | next line rest h ih =>
      rw [strtokAll_next h]
      split
      · next hempty =>
        subst hempty
        exact .skip rest _ ih
      · next hempty => exact .next line rest _ hempty h ih

/-- A text has no other tokens. -/
theorem Tokens.eq_strtokAll {text : Bytes} {tokens : List Bytes}
    (h : Tokens delimiter text tokens) : tokens = strtokAll delimiter text := by
  induction h with
  | empty => rfl
  | last token hne hfree => rw [strtokAll_last hfree, if_neg hne]
  | skip rest tokens _ ih =>
      have hskip := strtokAll_next (show delimiter ∉ ([] : Bytes) by simp) rest
      rw [ih]
      exact hskip.symm
  | next token rest tokens hne hfree _ ih =>
      rw [strtokAll_next hfree, if_neg hne, ih]
      rfl

/-- Each byte but the delimiters is in exactly one token. -/
theorem strtokAll_flatten (delimiter : UInt8) (text : Bytes) :
    (strtokAll delimiter text).flatten = text.filter (· ≠ delimiter) := by
  have hfree : ∀ line : Bytes, delimiter ∉ line → line.filter (· ≠ delimiter) = line := by
    intro line h
    rw [List.filter_eq_self]
    exact forall_ne_of_not_mem h
  induction text using delimited_induction delimiter with
  | last line h =>
      rw [strtokAll_last h, hfree line h]
      split
      · next hempty => rw [hempty]; rfl
      · simp
  | next line rest h ih =>
      rw [strtokAll_next h, List.flatten_append, ih, List.filter_append, hfree line h]
      congr 1
      · split
        · next hempty => rw [hempty]; rfl
        · simp
      · simp

/-- Delimiters at the end add no token. -/
theorem strtokAll_append {text pad : Bytes} (h : ∀ b ∈ pad, b = delimiter) :
    strtokAll delimiter (text ++ pad) = strtokAll delimiter text := by
  have hpad : strtokAll delimiter pad = [] := by
    have hflat := strtokAll_flatten delimiter pad
    have hnone : pad.filter (· ≠ delimiter) = [] := by
      rw [List.filter_eq_nil_iff]
      intro b hb
      simp [h b hb]
    rw [hnone] at hflat
    rw [strtokAll, List.filter_eq_nil_iff]
    intro token htoken hne
    have hmem : token ∈ strtokAll delimiter pad := List.mem_filter.mpr ⟨htoken, hne⟩
    have hempty := List.flatten_eq_nil_iff.mp hflat token hmem
    simp [hempty] at hne
  induction text using delimited_induction delimiter with
  | last line hfree =>
      cases pad with
      | nil => rw [List.append_nil]
      | cons b pad =>
          have hb := h b List.mem_cons_self
          subst hb
          have hrest : strtokAll b pad = [] := by
            have hskip := strtokAll_next (show b ∉ ([] : Bytes) by simp) pad
            exact hskip.symm.trans hpad
          rw [strtokAll_next hfree, hrest, strtokAll_last hfree, List.append_nil]
  | next line rest hfree ih =>
      rw [List.append_assoc, List.cons_append, strtokAll_next hfree, ih, strtokAll_next hfree]

end Strtok

/-- The lines `getline` delivers one after the other, each with its newline. -/
def getlines : Bytes → List Bytes
  | [] => []
  | c :: rest =>
      if c = 10 then [10] :: getlines rest
      else
        match getlines rest with
        | [] => [[c]]
        | line :: lines => (c :: line) :: lines

/-- `isspace` in the C locale. -/
def isspace (c : UInt8) : Bool := c = 32 || (9 ≤ c && c ≤ 13)

/-- `strncmp(text, start, strlen(start)) == 0`. -/
def startsWith (text start : Bytes) : Bool := start.isPrefixOf text

theorem startsWith_append (xs ys : Bytes) : startsWith (xs ++ ys) xs = true := by
  rw [startsWith, List.isPrefixOf_iff_prefix]
  exact List.prefix_append xs ys

/-! ## Paths -/

/-- `basename` of `libgen.h`. -/
def basename (path : Bytes) : Bytes :=
  let stripped := path.reverse.dropWhile (· = 47)
  if path = [] then [46]
  else if stripped = [] then [47]
  else (stripped.takeWhile (· ≠ 47)).reverse

example : basename (ascii "/usr/bin/env") = ascii "env" := by decide

/-! ## Hexadecimal -/

def hexDigit (n : Nat) : UInt8 := UInt8.ofNat (if n < 10 then 48 + n else 87 + n)

/-- Two lower-case digits for each byte. -/
def hexText (bytes : Bytes) : Bytes :=
  bytes.flatMap fun b => [hexDigit (b.toNat / 16), hexDigit (b.toNat % 16)]

/-- The value of a hexadecimal digit. -/
def hexDigitValue (c : UInt8) : Option Nat :=
  if 48 ≤ c ∧ c ≤ 57 then some (c.toNat - 48)
  else if 65 ≤ c ∧ c ≤ 70 then some (c.toNat - 55)
  else if 97 ≤ c ∧ c ≤ 102 then some (c.toNat - 87)
  else none

/-- The bytes a text writes with two digits each. -/
def readHex : Bytes → Option Bytes
  | [] => some []
  | [_] => none
  | a :: b :: rest => do
      let high ← hexDigitValue a
      let low ← hexDigitValue b
      let bytes ← readHex rest
      return UInt8.ofNat (16 * high + low) :: bytes

theorem readHex_length {text bytes : Bytes} (h : readHex text = some bytes) :
    text.length = 2 * bytes.length := by
  induction text using readHex.induct generalizing bytes with
  | case1 =>
      cases h
      rfl
  | case2 c => cases h
  | case3 a b rest ih =>
      simp only [readHex, Option.bind_eq_bind, Option.bind_eq_some_iff] at h
      obtain ⟨_, _, _, _, tail, htail, hbytes⟩ := h
      cases hbytes
      have hrest := ih htail
      simp only [List.length_cons]
      omega

theorem hexDigitValue_lt {c : UInt8} {value : Nat} (h : hexDigitValue c = some value) :
    value < 16 := by
  unfold hexDigitValue at h
  simp only [UInt8.le_iff_toNat_le, UInt8.reduceToNat] at h
  grind

theorem hexDigitValue_hexDigit {n : Nat} (h : n < 16) : hexDigitValue (hexDigit n) = some n := by
  have hall : ∀ n < 16, hexDigitValue (hexDigit n) = some n := by decide
  exact hall n h

theorem hexText_cons (b : UInt8) (bytes : Bytes) :
    hexText (b :: bytes) =
      hexDigit (b.toNat / 16) :: hexDigit (b.toNat % 16) :: hexText bytes := rfl

theorem hexText_length (bytes : Bytes) : (hexText bytes).length = 2 * bytes.length := by
  induction bytes with
  | nil => rfl
  | cons b bytes ih =>
      rw [hexText_cons, List.length_cons, List.length_cons, List.length_cons, ih]
      omega

theorem readHex_hexText (bytes : Bytes) : readHex (hexText bytes) = some bytes := by
  induction bytes with
  | nil => rfl
  | cons b bytes ih =>
      have hb := b.toNat_lt
      have hhigh := hexDigitValue_hexDigit (show b.toNat / 16 < 16 by omega)
      have hlow := hexDigitValue_hexDigit (show b.toNat % 16 < 16 by omega)
      have hvalue : 16 * (b.toNat / 16) + b.toNat % 16 = b.toNat := Nat.div_add_mod _ _
      rw [hexText_cons, readHex, hhigh, hlow, ih]
      simp only [Option.bind_eq_bind, Option.bind_some, hvalue, UInt8.ofNat_toNat]
      rfl

/-- An even number of digits is read. -/
theorem exists_readHex {text : Bytes} (heven : text.length % 2 = 0)
    (hdigits : ∀ c ∈ text, (hexDigitValue c).isSome) : ∃ bytes, readHex text = some bytes := by
  induction text using readHex.induct with
  | case1 => exact ⟨[], rfl⟩
  | case2 c => cases heven
  | case3 a b rest ih =>
      have ha := hdigits a List.mem_cons_self
      have hb := hdigits b (List.mem_cons_of_mem a List.mem_cons_self)
      obtain ⟨high, hhigh⟩ := Option.isSome_iff_exists.mp ha
      obtain ⟨low, hlow⟩ := Option.isSome_iff_exists.mp hb
      have hrest : rest.length % 2 = 0 := by
        simp only [List.length_cons] at heven
        omega
      obtain ⟨bytes, hbytes⟩ := ih hrest fun c hc =>
        hdigits c (List.mem_cons_of_mem a (List.mem_cons_of_mem b hc))
      refine ⟨UInt8.ofNat (16 * high + low) :: bytes, ?_⟩
      rw [readHex, hhigh, hlow, hbytes]
      rfl

/-- The value of the digit at a position. -/
def digitAt (text : Bytes) (i : Nat) : Nat := (text[i]?.bind hexDigitValue).getD 0

theorem readHex_getElem? {text bytes : Bytes} (h : readHex text = some bytes) {i : Nat}
    (hi : i < bytes.length) :
    bytes[i]?.map UInt8.toNat = some (16 * digitAt text (2 * i) + digitAt text (2 * i + 1)) := by
  induction text using readHex.induct generalizing bytes i with
  | case1 =>
      cases h
      cases hi
  | case2 c => cases h
  | case3 a b rest ih =>
      simp only [readHex, Option.bind_eq_bind, Option.bind_eq_some_iff] at h
      obtain ⟨high, hhigh, low, hlow, tail, htail, hbytes⟩ := h
      cases hbytes
      cases i with
      | zero =>
          have hhigh16 := hexDigitValue_lt hhigh
          have hlow16 := hexDigitValue_lt hlow
          simp only [digitAt, Nat.mul_zero, Nat.zero_add, List.getElem?_cons_zero,
            List.getElem?_cons_succ, Option.bind_some, hhigh, hlow, Option.getD_some,
            Option.map_some, UInt8.toNat_ofNat', Option.some.injEq]
          omega
      | succ i =>
          have hi' : i < tail.length := Nat.lt_of_succ_lt_succ hi
          exact ih htail hi'

/-- The digits in front of the first other character. -/
def hexPrefixValue (text : Bytes) : Nat :=
  (text.takeWhile fun c => (hexDigitValue c).isSome).foldl
    (fun value c => 16 * value + (hexDigitValue c).getD 0) 0

/-- `strtol(text, NULL, 16)`: sign, `0x`, digits; clamped to a `long`. -/
def strtolHex (text : Bytes) : Int :=
  let body := text.dropWhile isspace
  let negative : Bool := body.head? = some 45
  let unsigned := if negative ∨ body.head? = some 43 then body.drop 1 else body
  let digits := if startsWith unsigned (ascii "0x") ∨ startsWith unsigned (ascii "0X") then
    unsigned.drop 2 else unsigned
  let value : Int := hexPrefixValue digits
  if negative then max (-value) (-2 ^ 63) else min value (2 ^ 63 - 1)

example : strtolHex (ascii " 0xbF00 ") = 48896 := by decide

/-! ## Formatted output -/

/-- `%d` of a number that is not negative. -/
def decText (n : Nat) : Bytes := (Nat.toDigits 10 n).map fun c => UInt8.ofNat c.toNat

/-- `%x`. -/
def hexNumber (n : Nat) : Bytes := (Nat.toDigits 16 n).map fun c => UInt8.ofNat c.toNat

section Digits

variable {b n : Nat}

theorem hexDigitValue_digitChar (h : n < 16) :
    hexDigitValue (UInt8.ofNat (Nat.digitChar n).toNat) = some n := by
  have hall : ∀ n < 16, hexDigitValue (UInt8.ofNat (Nat.digitChar n).toNat) = some n := by decide
  exact hall n h

/-- Digits behind the leading ones of a number make it the number. -/
theorem toDigits_induction {motive : Nat → List Char → Prop} (hb : 1 < b)
    (digit : ∀ n < b, motive n [Nat.digitChar n])
    (next : ∀ n, b ≤ n → motive (n / b) (Nat.toDigits b (n / b)) →
      motive n (Nat.toDigits b (n / b) ++ [Nat.digitChar (n % b)]))
    (n : Nat) : motive n (Nat.toDigits b n) := by
  induction n using Nat.strong_induction_on with
  | _ n ih =>
      by_cases h : n < b
      · rw [Nat.toDigits_of_lt_base h]
        exact digit n h
      · rw [Nat.toDigits_of_base_le hb (by omega)]
        exact next n (by omega) (ih (n / b) (Nat.div_lt_self (by omega) hb))

/-- The digits of a number read back. -/
theorem foldl_toDigits (hb : 1 < b) (h16 : b ≤ 16) (n : Nat) :
    ((Nat.toDigits b n).map fun c => UInt8.ofNat c.toNat).foldl
      (fun value c => b * value + (hexDigitValue c).getD 0) 0 = n := by
  induction n using toDigits_induction hb with
  | digit n h => simp [hexDigitValue_digitChar (Nat.lt_of_lt_of_le h h16)]
  | next n h ih =>
      have hdigit := hexDigitValue_digitChar (Nat.lt_of_lt_of_le (Nat.mod_lt n (by omega)) h16)
      rw [List.map_append, List.foldl_append, ih]
      simp only [List.map_cons, List.map_nil, List.foldl_cons, List.foldl_nil, hdigit,
        Option.getD_some]
      exact Nat.div_add_mod n b

theorem toDigits_isSome (hb : 1 < b) (h16 : b ≤ 16) (n : Nat) :
    ∀ c ∈ (Nat.toDigits b n).map fun c => UInt8.ofNat c.toNat, (hexDigitValue c).isSome := by
  induction n using toDigits_induction hb with
  | digit n h => simp [hexDigitValue_digitChar (Nat.lt_of_lt_of_le h h16)]
  | next n h ih =>
      have hdigit := hexDigitValue_digitChar (Nat.lt_of_lt_of_le (Nat.mod_lt n (by omega)) h16)
      intro c hc
      rw [List.map_append, List.mem_append] at hc
      rcases hc with hc | hc
      · exact ih c hc
      · rw [List.map_singleton, List.mem_singleton] at hc
        rw [hc, hdigit]
        rfl

theorem hexNumber_injective {m : Nat} (h : hexNumber m = hexNumber n) : m = n := by
  rw [← foldl_toDigits (b := 16) (by decide) (by decide) m,
    ← foldl_toDigits (b := 16) (by decide) (by decide) n]
  exact congrArg _ h

theorem decText_injective {m : Nat} (h : decText m = decText n) : m = n := by
  rw [← foldl_toDigits (b := 10) (by decide) (by decide) m,
    ← foldl_toDigits (b := 10) (by decide) (by decide) n]
  exact congrArg _ h

theorem hexNumber_length_le {k : Nat} (hk : 0 < k) (h : n < 16 ^ k) :
    (hexNumber n).length ≤ k := by
  rw [hexNumber, List.length_map]
  exact (Nat.length_toDigits_le_iff (by decide) hk).mpr h

theorem decText_length_le {k : Nat} (hk : 0 < k) (h : n < 10 ^ k) : (decText n).length ≤ k := by
  rw [decText, List.length_map]
  exact (Nat.length_toDigits_le_iff (by decide) hk).mpr h

end Digits

/-- `%0<width>x`. -/
def hexPadded (width n : Nat) : Bytes :=
  List.replicate (width - (hexNumber n).length) 48 ++ hexNumber n

/-- A byte takes two digits. -/
theorem hexPadded_two (b : UInt8) :
    hexPadded 2 b.toNat = [hexDigit (b.toNat / 16), hexDigit (b.toNat % 16)] := by
  have hdigit : ∀ n < 16, UInt8.ofNat (Nat.digitChar n).toNat = hexDigit n := by decide
  have hb := b.toNat_lt
  unfold hexPadded hexNumber
  by_cases h : b.toNat < 16
  · rw [Nat.toDigits_of_lt_base h]
    simp [hdigit _ h, Nat.div_eq_of_lt h, Nat.mod_eq_of_lt h]
    rfl
  · rw [Nat.toDigits_of_base_le (by omega) (by omega), Nat.toDigits_of_lt_base (by omega)]
    simp [hdigit _ (show b.toNat / 16 < 16 by omega), hdigit _ (show b.toNat % 16 < 16 by omega)]

example : hexPadded 4 0x2af = ascii "02af" := by decide

/-! ## Assembling a buffer -/

/-- A buffer under construction: its bytes and the cursor. -/
abbrev Cursor := Bytes × Nat

/-- `memcpy(buf + cursor, piece, ...)` and the advance of the cursor. -/
def copyPiece (c : Cursor) (piece : Bytes) : Cursor :=
  (overwrite c.1 c.2 piece, c.2 + piece.length)

/-- Pieces that fill the buffer exactly stand in it one after the other. -/
theorem foldl_copyPiece (pieces : List Bytes) (done old : Bytes)
    (h : old.length = pieces.flatten.length) :
    (pieces.foldl copyPiece (done ++ old, done.length)).1 = done ++ pieces.flatten := by
  induction pieces generalizing done old with
  | nil =>
      have hold : old = [] := List.eq_nil_of_length_eq_zero (by simpa using h)
      simp [hold]
  | cons piece pieces ih =>
      simp only [List.flatten_cons, List.length_append] at h
      have hsplit : done ++ old = done ++ old.take piece.length ++ old.drop piece.length := by
        rw [List.append_assoc, List.take_append_drop]
      have hwrite : overwrite (done ++ old) done.length piece =
          (done ++ piece) ++ old.drop piece.length := by
        rw [hsplit]
        apply overwrite_middle rfl
        rw [List.length_take]
        omega
      have hcursor : done.length + piece.length = (done ++ piece).length := by simp
      rw [List.foldl_cons, copyPiece, hwrite, hcursor, ih]
      · simp
      · rw [List.length_drop]
        omega

end Binary
