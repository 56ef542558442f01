import Mathlib.Data.List.TakeWhile
import MeasuredBoot.Lib.CText

/-! # JSON texts

A reader of JSON texts over bytes. Numbers and strings keep their characters:
escapes are checked, not decoded. The grammar looks at one byte after the other and
takes those from 128 on as they are; a whole text has to be UTF-8 besides. `Reads` is
the contract of a text that stands for a value whatever follows it, with the rules that
put objects and arrays together.
-/

namespace Json

open Binary

inductive Value where
  | null
  | bool (value : Bool)
  | number (text : Bytes)
  | string (text : Bytes)
  | array (items : List Value)
  | object (fields : List (Bytes × Value))

/-! ## Tokens -/

def isSpace (c : UInt8) : Bool := c = 32 || c = 9 || c = 10 || c = 13

def skipSpace (text : Bytes) : Bytes := text.dropWhile isSpace

/-- The rest behind the character `c`, with space in front of it. -/
def token (c : UInt8) (text : Bytes) : Option Bytes :=
  match skipSpace text with
  | [] => none
  | d :: rest => if d = c then some rest else none

def isDigit (c : UInt8) : Bool := 48 ≤ c && c ≤ 57

/-- The characters a number is written with. -/
def isNumberChar (c : UInt8) : Bool :=
  isDigit c || c = 43 || c = 45 || c = 46 || c = 69 || c = 101

/-- The text behind an optional sign. -/
def skipSign (signs : Bytes) : Bytes → Bytes
  | [] => []
  | c :: rest => if signs.contains c then rest else c :: rest

def validExponent (text : Bytes) : Bool :=
  let digits := skipSign [43, 45] (text.drop 1)
  text = [] || ([69, 101].contains (text.headD 0) && digits ≠ [] && digits.all isDigit)

def validFraction (text : Bytes) : Bool :=
  if text.head? = some 46 then
    (text.drop 1).takeWhile isDigit ≠ [] && validExponent ((text.drop 1).dropWhile isDigit)
  else validExponent text

def validNumber (text : Bytes) : Bool :=
  let unsigned := skipSign [45] text
  let whole := unsigned.takeWhile isDigit
  whole ≠ [] && (whole.length = 1 || whole.head? ≠ some 48) &&
    validFraction (unsigned.dropWhile isDigit)

def number (text : Bytes) : Option (Value × Bytes) :=
  let shown := text.takeWhile isNumberChar
  if validNumber shown then some (.number shown, text.drop shown.length) else none

/-- `null`, `true`, `false` or a number. -/
def literal (text : Bytes) : Option (Value × Bytes) :=
  let text := skipSpace text
  if startsWith text (ascii "null") then some (.null, text.drop 4)
  else if startsWith text (ascii "true") then some (.bool true, text.drop 4)
  else if startsWith text (ascii "false") then some (.bool false, text.drop 5)
  else number text

def isHexDigit (c : UInt8) : Bool :=
  isDigit c || (65 ≤ c && c ≤ 70) || (97 ≤ c && c ≤ 102)

/-- How many characters the escape behind a backslash has. -/
def escapeLength (text : Bytes) : Option Nat :=
  if text.head? = some 117 then
    if 5 ≤ text.length ∧ ((text.drop 1).take 4).all isHexDigit then some 5 else none
  else if (ascii "\"\\/bfnrt").contains (text.headD 0) then some 1 else none

/-- What stands behind an opening quote: the characters of the string, and the rest
behind the closing one. -/
def stringBody : Nat → Bytes → Option (Bytes × Bytes)
  | _, [] => none
  | escaped + 1, c :: rest => (stringBody escaped rest).map fun r => (c :: r.1, r.2)
  | 0, c :: rest =>
      if c = 34 then some ([], rest)
      else if c = 92 then
        match escapeLength rest with
        | none => none
        | some n => (stringBody n rest).map fun r => (c :: r.1, r.2)
      else if c < 32 then none
      else (stringBody 0 rest).map fun r => (c :: r.1, r.2)

/-! ## Values -/

mutual

/-- The value a text starts with, and what is left. -/
def value : Nat → Bytes → Option (Value × Bytes)
  | 0, _ => none
  | fuel + 1, text =>
      match token 123 text, token 91 text, token 34 text with
      | some rest, _, _ =>
          match token 125 rest with
          | some rest => some (.object [], rest)
          | none => (members fuel rest).map fun r => (.object r.1, r.2)
      | none, some rest, _ =>
          match token 93 rest with
          | some rest => some (.array [], rest)
          | none => (elements fuel rest).map fun r => (.array r.1, r.2)
      | none, none, some rest => (stringBody 0 rest).map fun r => (.string r.1, r.2)
      | none, none, none => literal text

/-- The items of an array up to its bracket. -/
def elements : Nat → Bytes → Option (List Value × Bytes)
  | 0, _ => none
  | fuel + 1, text => do
      let (item, rest) ← value fuel text
      match token 44 rest with
      | some rest => (elements fuel rest).map fun r => (item :: r.1, r.2)
      | none => (token 93 rest).map fun rest => ([item], rest)

/-- The members of an object up to its brace. -/
def members : Nat → Bytes → Option (List (Bytes × Value) × Bytes)
  | 0, _ => none
  | fuel + 1, text => do
      let (key, rest) ← token 34 text >>= stringBody 0
      let (item, rest) ← token 58 rest >>= value fuel
      match token 44 rest with
      | some rest => (members fuel rest).map fun r => ((key, item) :: r.1, r.2)
      | none => (token 125 rest).map fun rest => ([(key, item)], rest)

end

/-- The value of a text by the grammar. The recursion goes at most two steps deeper for
each character. -/
def document (text : Bytes) : Option Value :=
  match value (2 * text.length + 2) text with
  | some (item, rest) => if skipSpace rest = [] then some item else none
  | none => none

/-! ## UTF-8 -/

/-- The ranges of the bytes that have to follow the first byte of a character. -/
def continuation (c : UInt8) : Option (List (UInt8 × UInt8)) :=
  if c < 0x80 then some []
  else if c < 0xC2 then none
  else if c < 0xE0 then some [(0x80, 0xBF)]
  else if c = 0xE0 then some [(0xA0, 0xBF), (0x80, 0xBF)]
  else if c = 0xED then some [(0x80, 0x9F), (0x80, 0xBF)]
  else if c < 0xF0 then some [(0x80, 0xBF), (0x80, 0xBF)]
  else if c = 0xF0 then some [(0x90, 0xBF), (0x80, 0xBF), (0x80, 0xBF)]
  else if c < 0xF4 then some [(0x80, 0xBF), (0x80, 0xBF), (0x80, 0xBF)]
  else if c = 0xF4 then some [(0x80, 0x8F), (0x80, 0xBF), (0x80, 0xBF)]
  else none

/-- The rest of a character, and characters behind it. -/
def utf8From : List (UInt8 × UInt8) → Bytes → Bool
  | owed, [] => owed.isEmpty
  | [], c :: rest =>
      match continuation c with
      | none => false
      | some owed => utf8From owed rest
  | range :: owed, c :: rest => range.1 ≤ c && c ≤ range.2 && utf8From owed rest

def isUtf8 (text : Bytes) : Bool := utf8From [] text

/-- The value of a JSON text. -/
def parse (text : Bytes) : Option Value := if isUtf8 text then document text else none

example : (parse (ascii "[1, \x7b\"a\": [true,\"b\\n\"]\x7d ] ")).isSome ∧
    (parse (ascii "[1,]")).isNone ∧ (parse [34, 0xC3, 0xA9, 34]).isSome ∧
    (parse [34, 0xFF, 34]).isNone := by decide +kernel

theorem parse_eq_some {text : Bytes} {item : Value} :
    parse text = some item ↔ isUtf8 text = true ∧ document text = some item := by
  unfold parse
  split
  · next h => exact (and_iff_right h).symm
  · next h => exact iff_of_false (fun hnone => by cases hnone) fun hand => h hand.1

theorem utf8From_first (c : UInt8) (rest : Bytes) : utf8From [] (c :: rest) =
    match continuation c with
    | none => false
    | some owed => utf8From owed rest := rfl

theorem utf8From_owed (range : UInt8 × UInt8) (owed : List (UInt8 × UInt8)) (c : UInt8)
    (rest : Bytes) : utf8From (range :: owed) (c :: rest) =
      (range.1 ≤ c && c ≤ range.2 && utf8From owed rest) := rfl

theorem utf8From_append {owed : List (UInt8 × UInt8)} {xs : Bytes}
    (h : utf8From owed xs = true) (ys : Bytes) : utf8From owed (xs ++ ys) = isUtf8 ys := by
  induction xs generalizing owed with
  | nil =>
      cases owed with
      | nil => rfl
      | cons range owed => cases h
  | cons c xs ih =>
      cases owed with
      | nil =>
          rw [List.cons_append, utf8From_first]
          rw [utf8From_first] at h
          cases hc : continuation c with
          | none =>
              rw [hc] at h
              cases h
          | some owed =>
              rw [hc] at h
              exact ih h
      | cons range owed =>
          rw [utf8From_owed, Bool.and_eq_true] at h
          rw [List.cons_append, utf8From_owed, h.1, Bool.true_and]
          exact ih h.2

theorem isUtf8_append {xs : Bytes} (h : isUtf8 xs = true) (ys : Bytes) :
    isUtf8 (xs ++ ys) = isUtf8 ys := utf8From_append h ys

/-- Nothing that is owed is an ASCII character. -/
def AboveAscii (owed : List (UInt8 × UInt8)) : Prop := ∀ range ∈ owed, 0x80 ≤ range.1

instance (owed : List (UInt8 × UInt8)) : Decidable (AboveAscii owed) :=
  List.decidableBAll (fun range : UInt8 × UInt8 => 0x80 ≤ range.1) owed

theorem continuation_aboveAscii {c : UInt8} {owed : List (UInt8 × UInt8)}
    (h : continuation c = some owed) : AboveAscii owed := by
  unfold continuation at h
  split_ifs at h <;> cases h <;> decide

/-- A text falls apart at its ASCII characters. -/
theorem utf8From_split {c : UInt8} (hc : c < 0x80) {owed : List (UInt8 × UInt8)}
    (howed : AboveAscii owed) (xs ys : Bytes) :
    utf8From owed (xs ++ c :: ys) = (utf8From owed xs && isUtf8 ys) := by
  induction xs generalizing owed with
  | nil =>
      cases owed with
      | nil =>
          rw [List.nil_append, utf8From_first, continuation, if_pos hc]
          rfl
      | cons range owed =>
          have hlow := howed range List.mem_cons_self
          have hnot : ¬range.1 ≤ c := UInt8.not_le.mpr (UInt8.lt_of_lt_of_le hc hlow)
          rw [List.nil_append, utf8From_owed, decide_eq_false hnot]
          rfl
  | cons d xs ih =>
      cases owed with
      | nil =>
          rw [List.cons_append, utf8From_first, utf8From_first]
          cases hd : continuation d with
          | none => rfl
          | some owed => exact ih (continuation_aboveAscii hd)
      | cons range owed =>
          rw [List.cons_append, utf8From_owed, utf8From_owed, Bool.and_assoc _ (utf8From owed xs),
            ih fun r hr => howed r (List.mem_cons_of_mem range hr)]

theorem isUtf8_split {c : UInt8} (hc : c < 0x80) (xs ys : Bytes) :
    isUtf8 (xs ++ c :: ys) = (isUtf8 xs && isUtf8 ys) :=
  utf8From_split hc (fun _ hrange => absurd hrange List.not_mem_nil) xs ys

theorem isUtf8_cons {c : UInt8} (hc : c < 0x80) (text : Bytes) :
    isUtf8 (c :: text) = isUtf8 text := isUtf8_split hc [] text

theorem isUtf8_ascii {text : Bytes} (h : ∀ c ∈ text, c < 0x80) : isUtf8 text = true := by
  induction text with
  | nil => rfl
  | cons c text ih =>
      rw [isUtf8_cons (h c List.mem_cons_self)]
      exact ih fun d hd => h d (List.mem_cons_of_mem c hd)

/-! ## Reading tokens -/

/-- Nothing but white space. -/
def Blank (text : Bytes) : Prop := ∀ c ∈ text, isSpace c = true

/-- A text with nothing in it that a string has to escape. -/
def Unescaped (text : Bytes) : Prop := ∀ c ∈ text, c ≠ 34 ∧ c ≠ 92 ∧ ¬c < 32

instance (text : Bytes) : Decidable (Blank text) := List.decidableBAll (isSpace · = true) text

instance (text : Bytes) : Decidable (Unescaped text) :=
  List.decidableBAll (fun c => c ≠ 34 ∧ c ≠ 92 ∧ ¬c < 32) text

theorem Unescaped.append {xs ys : Bytes} (hxs : Unescaped xs) (hys : Unescaped ys) :
    Unescaped (xs ++ ys) := by
  intro c hc
  rcases List.mem_append.mp hc with hc | hc
  · exact hxs c hc
  · exact hys c hc

/-- A text that stands in a string as it is. -/
structure Plain (text : Bytes) : Prop where
  unescaped : Unescaped text
  utf8 : isUtf8 text = true

theorem plain_iff {text : Bytes} : Plain text ↔ Unescaped text ∧ isUtf8 text = true :=
  ⟨fun h => ⟨h.unescaped, h.utf8⟩, fun h => ⟨h.1, h.2⟩⟩

instance (text : Bytes) : Decidable (Plain text) := decidable_of_iff' _ plain_iff

theorem Plain.append {xs ys : Bytes} (hxs : Plain xs) (hys : Plain ys) : Plain (xs ++ ys) where
  unescaped := hxs.unescaped.append hys.unescaped
  utf8 := by rw [isUtf8_append hxs.utf8, hys.utf8]

/-- ASCII characters that need no escape. -/
theorem plain_of_forall {text : Bytes} (h : ∀ c ∈ text, Unescaped [c] ∧ c < 0x80) :
    Plain text where
  unescaped c hc := (h c hc).1 c List.mem_cons_self
  utf8 := isUtf8_ascii fun c hc => (h c hc).2

theorem plain_hexText (bytes : Bytes) : Plain (hexText bytes) := by
  have hdigit : ∀ n < 16, Unescaped [hexDigit n] ∧ hexDigit n < 0x80 := by decide
  refine plain_of_forall fun c hc => ?_
  obtain ⟨b, -, hb⟩ := List.mem_flatMap.mp hc
  have hb256 : b.toNat < 256 := b.toNat_lt
  rcases List.mem_pair.mp hb with rfl | rfl
  · exact hdigit (b.toNat / 16) (by omega)
  · exact hdigit (b.toNat % 16) (by omega)

theorem skipSpace_append {blank : Bytes} (h : Blank blank) (text : Bytes) :
    skipSpace (blank ++ text) = skipSpace text := by
  exact List.dropWhile_append_of_pos h

theorem skipSpace_blank {blank : Bytes} (h : Blank blank) : skipSpace blank = [] := by
  exact List.dropWhile_eq_nil_iff.mpr h

theorem skipSpace_cons {c : UInt8} (h : isSpace c = false) (rest : Bytes) :
    skipSpace (c :: rest) = c :: rest := by
  unfold skipSpace
  rw [List.dropWhile_cons_of_neg]
  rw [h]
  exact Bool.false_ne_true

theorem token_append {blank : Bytes} (h : Blank blank) (c : UInt8) (text : Bytes) :
    token c (blank ++ text) = token c text := by
  unfold token
  rw [skipSpace_append h]

theorem token_blank {blank : Bytes} (h : Blank blank) (c : UInt8) : token c blank = none := by
  unfold token
  rw [skipSpace_blank h]

theorem token_cons {d : UInt8} (h : isSpace d = false) (c : UInt8) (rest : Bytes) :
    token c (d :: rest) = if d = c then some rest else none := by
  unfold token
  rw [skipSpace_cons h]

theorem stringBody_unescaped {text : Bytes} (h : Unescaped text) (rest : Bytes) :
    stringBody 0 (text ++ 34 :: rest) = some (text, rest) := by
  induction text with
  | nil => rfl
  | cons c text ih =>
      obtain ⟨hquote, hbackslash, hcontrol⟩ := h c List.mem_cons_self
      rw [List.cons_append, stringBody, if_neg hquote, if_neg hbackslash, if_neg hcontrol,
        ih fun d hd => h d (List.mem_cons_of_mem c hd)]
      rfl

/-! ## Reading values -/

/-- With `k` steps, the text is read as the value and nothing behind it is touched. -/
def Reads (k : Nat) (text : Bytes) (item : Value) : Prop :=
  ∀ fuel, k ≤ fuel → ∀ rest : Bytes, (∀ c ∈ rest.head?, isNumberChar c = false) →
    value fuel (text ++ rest) = some (item, rest)

/-- The members of an object, its closing brace included. -/
def ReadsMembers (k : Nat) (text : Bytes) (fields : List (Bytes × Value)) : Prop :=
  ∀ fuel, k ≤ fuel → ∀ rest, members fuel (text ++ rest) = some (fields, rest)

/-- The items of an array, its closing bracket included. -/
def ReadsElements (k : Nat) (text : Bytes) (items : List Value) : Prop :=
  ∀ fuel, k ≤ fuel → ∀ rest, elements fuel (text ++ rest) = some (items, rest)

theorem Reads.mono {k l : Nat} {text : Bytes} {item : Value} (h : Reads k text item)
    (hkl : k ≤ l) : Reads l text item := fun fuel hfuel => h fuel (hkl.trans hfuel)

theorem value_append {blank : Bytes} (h : Blank blank) (fuel : Nat) (text : Bytes) :
    value fuel (blank ++ text) = value fuel text := by
  cases fuel with
  | zero => rfl
  | succ fuel => simp only [value, token_append h, literal, skipSpace_append h]

theorem value_blank {blank : Bytes} (h : Blank blank) (fuel : Nat) : value fuel blank = none := by
  cases fuel with
  | zero => rfl
  | succ fuel =>
      simp only [value, token_blank h, literal, skipSpace_blank h]
      rfl

/-- Where no bracket or quote opens the text, a literal has to. -/
theorem value_literal {fuel : Nat} {text : Bytes} (hbrace : token 123 text = none)
    (hbracket : token 91 text = none) (hquote : token 34 text = none) :
    value (fuel + 1) text = literal text := by
  simp only [value, hbrace, hbracket, hquote]

theorem Reads.number {c : UInt8} {text : Bytes} (hchars : (c :: text).all isNumberChar = true)
    (hvalid : validNumber (c :: text) = true) : Reads 1 (c :: text) (.number (c :: text)) := by
  intro fuel hfuel rest hrest
  obtain ⟨fuel, rfl⟩ : ∃ n, fuel = n + 1 := ⟨fuel - 1, by omega⟩
  have hc : isNumberChar c = true := List.all_eq_true.mp hchars c List.mem_cons_self
  have hspace : isSpace c = false := by
    cases hs : isSpace c with
    | false => rfl
    | true =>
        simp only [isSpace, Bool.or_eq_true, decide_eq_true_eq] at hs
        rcases hs with ((rfl | rfl) | rfl) | rfl <;> simp [isNumberChar, isDigit] at hc
  have hne : ∀ d, isNumberChar d = false → c ≠ d := by
    rintro d hd rfl
    rw [hc] at hd
    cases hd
  have htoken : ∀ d, isNumberChar d = false → token d (c :: text ++ rest) = none := by
    intro d hd
    rw [List.cons_append, token_cons hspace, if_neg (hne d hd)]
  have hshown : (c :: text ++ rest).takeWhile isNumberChar = c :: text := by
    rw [List.takeWhile_append_of_pos (List.all_eq_true.mp hchars)]
    cases rest with
    | nil => simp
    | cons d rest => rw [List.takeWhile_cons_of_neg (by simp [hrest d rfl]), List.append_nil]
  have hword : ∀ (d : UInt8) (word : Bytes), isNumberChar d = false →
      startsWith (c :: text ++ rest) (d :: word) = false := by
    intro d word hd
    have hdc : (d == c) = false := beq_eq_false_iff_ne.mpr (hne d hd).symm
    rw [startsWith, List.cons_append, List.isPrefixOf_cons_cons, hdc, Bool.false_and]
  rw [value_literal (htoken 123 rfl) (htoken 91 rfl) (htoken 34 rfl)]
  have hskip : skipSpace (c :: text ++ rest) = c :: text ++ rest := skipSpace_cons hspace _
  have hnull : startsWith (c :: text ++ rest) (ascii "null") = false := hword 110 _ rfl
  have htrue : startsWith (c :: text ++ rest) (ascii "true") = false := hword 116 _ rfl
  have hfalse : startsWith (c :: text ++ rest) (ascii "false") = false := hword 102 _ rfl
  simp only [literal, hskip, hnull, htrue, hfalse, Bool.false_eq_true, if_false]
  unfold Json.number
  rw [hshown, if_pos hvalid, List.drop_left]

def quoted (text : Bytes) : Bytes := 34 :: text ++ [34]

theorem Reads.string {text : Bytes} (h : Unescaped text) :
    Reads 1 (quoted text) (.string text) := by
  intro fuel hfuel rest _
  obtain ⟨fuel, rfl⟩ : ∃ n, fuel = n + 1 := ⟨fuel - 1, by omega⟩
  have hquote : isSpace 34 = false := rfl
  simp only [quoted, List.cons_append, List.append_assoc, List.nil_append, value,
    token_cons hquote]
  change (stringBody 0 (text ++ 34 :: rest)).map _ = _
  rw [stringBody_unescaped h]
  rfl

theorem isUtf8_quoted (text : Bytes) : isUtf8 (quoted text) = isUtf8 text := by
  have hquote : (34 : UInt8) < 0x80 := by decide
  rw [quoted, List.cons_append, isUtf8_cons hquote, isUtf8_split hquote]
  exact Bool.and_true _

/-! ## Objects and arrays -/

/-- A member of an object, or the members from one on. -/
def member (blank key after : Bytes) : Bytes := blank ++ 34 :: key ++ 34 :: 58 :: after

theorem member_append (blank key after rest : Bytes) :
    member blank key after ++ rest = member blank key (after ++ rest) := by
  simp [member]

theorem isUtf8_member {blank : Bytes} (hblank : isUtf8 blank = true) (key after : Bytes) :
    isUtf8 (member blank key after) = (isUtf8 key && isUtf8 after) := by
  have hquote : (34 : UInt8) < 0x80 := by decide
  have hcolon : (58 : UInt8) < 0x80 := by decide
  rw [member, List.append_assoc, List.cons_append, isUtf8_split hquote, hblank, Bool.true_and,
    isUtf8_split hquote, isUtf8_cons hcolon]

/-- A member behind its key. -/
theorem members_member {fuel : Nat} {blank key after : Bytes} (hblank : Blank blank)
    (hkey : Unescaped key) : members (fuel + 1) (member blank key after) =
      (value fuel after).bind fun r =>
        match token 44 r.2 with
        | some rest => (members fuel rest).map fun q => ((key, r.1) :: q.1, q.2)
        | none => (token 125 r.2).map fun rest => ([(key, r.1)], rest) := by
  have hquote : isSpace 34 = false := rfl
  have hcolon : isSpace 58 = false := rfl
  have hopen : token 34 (member blank key after) = some (key ++ 34 :: 58 :: after) := by
    rw [member, List.append_assoc, token_append hblank, List.cons_append, token_cons hquote,
      if_pos rfl]
  have hnext : token 58 (58 :: after) = some after := by
    rw [token_cons hcolon, if_pos rfl]
  rw [members, hopen]
  change ((stringBody 0 (key ++ 34 :: 58 :: after)).bind _) = _
  rw [stringBody_unescaped hkey]
  change ((token 58 (58 :: after)).bind (value fuel)).bind _ = _
  rw [hnext]
  rfl

theorem ReadsMembers.last {k : Nat} {blank text : Bytes} {item : Value} (key close : Bytes)
    (hblank : Blank blank) (hkey : Unescaped key) (h : Reads k text item) (hclose : Blank close) :
    ReadsMembers (k + 1) (member blank key (text ++ close ++ [125])) [(key, item)] := by
  intro fuel hfuel rest
  obtain ⟨fuel, rfl⟩ : ∃ n, fuel = n + 1 := ⟨fuel - 1, by omega⟩
  have hbrace : isSpace 125 = false := rfl
  have hrest : ∀ c ∈ (close ++ 125 :: rest).head?, isNumberChar c = false := by
    intro c hc
    cases close with
    | nil =>
        obtain rfl : 125 = c := Option.some.inj hc
        rfl
    | cons d close =>
        obtain rfl : d = c := Option.some.inj hc
        have hd : isSpace d = true := hclose d List.mem_cons_self
        simp only [isSpace, Bool.or_eq_true, decide_eq_true_eq] at hd
        rcases hd with ((rfl | rfl) | rfl) | rfl <;> rfl
  have hshape : text ++ close ++ [125] ++ rest = text ++ (close ++ 125 :: rest) := by simp
  rw [member_append, hshape, members_member hblank hkey, h fuel (by omega) _ hrest]
  simp only [Option.bind_some, token_append hclose, token_cons hbrace]
  rfl

theorem ReadsMembers.cons {k : Nat} {blank text more : Bytes} {item : Value}
    {fields : List (Bytes × Value)} (hmore : ReadsMembers k more fields) (key : Bytes)
    (hblank : Blank blank) (hkey : Unescaped key) (h : Reads k text item) :
    ReadsMembers (k + 1) (member blank key (text ++ 44 :: more)) ((key, item) :: fields) := by
  intro fuel hfuel rest
  obtain ⟨fuel, rfl⟩ : ∃ n, fuel = n + 1 := ⟨fuel - 1, by omega⟩
  have hcomma : isSpace 44 = false := rfl
  rw [member_append, List.append_assoc, List.cons_append, members_member hblank hkey,
    h fuel (by omega) _ (by simp [isNumberChar, isDigit])]
  simp only [Option.bind_some, token_cons hcomma, if_true, hmore fuel (by omega) rest]
  rfl

theorem members_append {blank : Bytes} (h : Blank blank) (fuel : Nat) (text : Bytes) :
    members fuel (blank ++ text) = members fuel text := by
  cases fuel with
  | zero => rfl
  | succ fuel => rw [members, members, token_append h]

theorem ReadsMembers.space {k : Nat} {text blank : Bytes} {fields : List (Bytes × Value)}
    (h : ReadsMembers k text fields) (hblank : Blank blank) :
    ReadsMembers k (blank ++ text) fields := by
  intro fuel hfuel rest
  rw [List.append_assoc, members_append hblank]
  exact h fuel hfuel rest

theorem members_none {text : Bytes} (h : token 34 text = none) (fuel : Nat) :
    members fuel text = none := by
  cases fuel with
  | zero => rfl
  | succ fuel =>
      rw [members, h]
      rfl

/-- A member does not help members behind it that cannot be read. -/
theorem members_member_none {blank key text more : Bytes} {item : Value} (hblank : Blank blank)
    (hkey : Unescaped key) (h : Reads 1 text item) (hmore : ∀ fuel, members fuel more = none)
    (fuel : Nat) : members fuel (member blank key (text ++ 44 :: more)) = none := by
  have hcomma : isSpace 44 = false := rfl
  cases fuel with
  | zero => rfl
  | succ fuel =>
      rw [members_member hblank hkey]
      cases fuel with
      | zero => rfl
      | succ fuel =>
          rw [h (fuel + 1) (by omega) _ (by simp [isNumberChar, isDigit])]
          simp only [Option.bind_some, token_cons hcomma, if_true, hmore]
          rfl

/-- Nothing closes the object behind its last member. -/
theorem members_member_open {blank key text rest : Bytes} {item : Value} (hblank : Blank blank)
    (hkey : Unescaped key) (h : Reads 1 text item)
    (hrest : ∀ c ∈ rest.head?, isNumberChar c = false)
    (hcomma : token 44 rest = none) (hbrace : token 125 rest = none) (fuel : Nat) :
    members fuel (member blank key (text ++ rest)) = none := by
  cases fuel with
  | zero => rfl
  | succ fuel =>
      rw [members_member hblank hkey]
      cases fuel with
      | zero => rfl
      | succ fuel =>
          rw [h (fuel + 1) (by omega) rest hrest]
          simp only [Option.bind_some, hcomma, hbrace]
          rfl

/-- The string in the last member does not end. -/
theorem members_string_none {blank key body : Bytes} (hblank : Blank blank) (hkey : Unescaped key)
    (h : stringBody 0 body = none) (fuel : Nat) :
    members fuel (member blank key (34 :: body)) = none := by
  have hquote : isSpace 34 = false := rfl
  cases fuel with
  | zero => rfl
  | succ fuel =>
      rw [members_member hblank hkey]
      cases fuel with
      | zero => rfl
      | succ fuel =>
          simp only [value, token_cons hquote]
          change (((stringBody 0 body).map _).bind _) = none
          rw [h]
          rfl

theorem stringBody_unescaped_none {text rest : Bytes} (h : Unescaped text)
    (hrest : stringBody 0 rest = none) : stringBody 0 (text ++ rest) = none := by
  induction text with
  | nil => exact hrest
  | cons c text ih =>
      obtain ⟨hquote, hbackslash, hcontrol⟩ := h c List.mem_cons_self
      rw [List.cons_append, stringBody, if_neg hquote, if_neg hbackslash, if_neg hcontrol,
        ih fun d hd => h d (List.mem_cons_of_mem c hd)]
      rfl

theorem value_object_none {inside : Bytes} (hnonempty : token 125 inside = none)
    (h : ∀ fuel, members fuel inside = none) (fuel : Nat) : value fuel (123 :: inside) = none := by
  have hbrace : isSpace 123 = false := rfl
  cases fuel with
  | zero => rfl
  | succ fuel =>
      simp only [value, token_cons hbrace, if_true, hnonempty, h]
      rfl

theorem ReadsMembers.object {k : Nat} {blank key after : Bytes} {fields : List (Bytes × Value)}
    (hblank : Blank blank) (h : ReadsMembers k (member blank key after) fields) :
    Reads (k + 1) (123 :: member blank key after) (.object fields) := by
  intro fuel hfuel rest _
  obtain ⟨fuel, rfl⟩ : ∃ n, fuel = n + 1 := ⟨fuel - 1, by omega⟩
  have hbrace : isSpace 123 = false := rfl
  have hquote : isSpace 34 = false := rfl
  have hnonempty : token 125 (member blank key after ++ rest) = none := by
    rw [member_append, member, List.append_assoc, token_append hblank, List.cons_append,
      token_cons hquote, if_neg (by decide)]
  simp only [List.cons_append, value, token_cons hbrace, if_true, hnonempty,
    h fuel (by omega) rest]
  rfl

theorem ReadsElements.last {k : Nat} {text close : Bytes} {item : Value} (h : Reads k text item)
    (hclose : Blank close) : ReadsElements (k + 1) (text ++ (close ++ [93])) [item] := by
  intro fuel hfuel rest
  obtain ⟨fuel, rfl⟩ : ∃ n, fuel = n + 1 := ⟨fuel - 1, by omega⟩
  have hbracket : isSpace 93 = false := rfl
  have hrest : ∀ c ∈ (close ++ [93] ++ rest).head?, isNumberChar c = false := by
    intro c hc
    cases close with
    | nil =>
        obtain rfl : 93 = c := Option.some.inj hc
        rfl
    | cons d close =>
        obtain rfl : d = c := Option.some.inj hc
        have hspace := hclose d List.mem_cons_self
        simp only [isSpace, Bool.or_eq_true, decide_eq_true_eq] at hspace
        rcases hspace with ((rfl | rfl) | rfl) | rfl <;> rfl
  rw [List.append_assoc, elements, h fuel (by omega) _ hrest]
  have hcomma : token 44 (close ++ [93] ++ rest) = none := by
    rw [List.append_assoc, token_append hclose, List.cons_append, token_cons hbracket,
      if_neg (by decide)]
  have hend : token 93 (close ++ [93] ++ rest) = some rest := by
    rw [List.append_assoc, token_append hclose, List.cons_append, token_cons hbracket, if_pos rfl]
    rfl
  simp only [Option.bind_eq_bind, Option.bind_some, hcomma, hend]
  rfl

theorem ReadsElements.cons {k l : Nat} {text more : Bytes} {item : Value} {items : List Value}
    (h : Reads k text item) (hmore : ReadsElements l more items) (hkl : k ≤ l) :
    ReadsElements (l + 1) (text ++ 44 :: more) (item :: items) := by
  intro fuel hfuel rest
  obtain ⟨fuel, rfl⟩ : ∃ n, fuel = n + 1 := ⟨fuel - 1, by omega⟩
  have hcomma : isSpace 44 = false := rfl
  rw [List.append_assoc, elements, h fuel (by omega) _ (by simp [isNumberChar, isDigit])]
  simp only [List.cons_append, Option.bind_eq_bind, Option.bind_some, token_cons hcomma, if_true,
    hmore fuel (by omega) rest]
  rfl

theorem elements_append {blank : Bytes} (h : Blank blank) (fuel : Nat) (text : Bytes) :
    elements fuel (blank ++ text) = elements fuel text := by
  cases fuel with
  | zero => rfl
  | succ fuel => rw [elements, elements, value_append h]

theorem ReadsElements.space {k : Nat} {text blank : Bytes} {items : List Value}
    (h : ReadsElements k text items) (hblank : Blank blank) :
    ReadsElements k (blank ++ text) items := by
  intro fuel hfuel rest
  rw [← h fuel hfuel rest, List.append_assoc, elements_append hblank]

theorem value_array {inside : Bytes} (fuel : Nat) (h : token 93 inside = none) :
    value (fuel + 1) (91 :: inside) =
      (elements fuel inside).map fun r => (.array r.1, r.2) := by
  have hbracket : isSpace 91 = false := rfl
  have hbrace : token 123 (91 :: inside) = none := by
    rw [token_cons hbracket, if_neg (by decide)]
  have hopen : token 91 (91 :: inside) = some inside := by
    rw [token_cons hbracket, if_pos rfl]
  simp only [value, hbrace, hopen, h]

/-! ## Whole texts -/

/-- Values that are each followed by `close`. -/
def terminated (close : Bytes) : Nat → Bytes → Option (List Value)
  | 0, _ => none
  | fuel + 1, text =>
      if text = [] then some []
      else
        match value (2 * text.length + 2) text with
        | none => none
        | some (item, rest) =>
            if startsWith rest close then
              (terminated close fuel (rest.drop close.length)).map (item :: ·)
            else none

section Terminated

variable {k : Nat} {text close : Bytes} {item : Value}

theorem terminated_reads (h : Reads k text item) (hk : k ≤ 2 * text.length + 2)
    (hne : text ≠ []) {rest : Bytes} (hrest : ∀ c ∈ rest.head?, isNumberChar c = false)
    (fuel : Nat) : terminated close (fuel + 1) (text ++ rest) =
      if startsWith rest close then
        (terminated close fuel (rest.drop close.length)).map (item :: ·)
      else none := by
  have hnonempty : text ++ rest ≠ [] := by simp [hne]
  have hfuel : k ≤ 2 * (text ++ rest).length + 2 := by
    rw [List.length_append]
    omega
  rw [terminated, if_neg hnonempty, h _ hfuel rest hrest]

theorem startsWith_append (close rest : Bytes) : startsWith (close ++ rest) close = true := by
  unfold startsWith
  exact List.isPrefixOf_iff_prefix.mpr (List.prefix_append close rest)

theorem terminated_append (h : Reads k text item) (hk : k ≤ 2 * text.length + 2)
    (hne : text ≠ []) (hclose : ∀ c ∈ close.head?, isNumberChar c = false) (hclosed : close ≠ [])
    (fuel : Nat) (rest : Bytes) : terminated close (fuel + 1) (text ++ (close ++ rest)) =
      (terminated close fuel rest).map (item :: ·) := by
  have hhead : ∀ c ∈ (close ++ rest).head?, isNumberChar c = false := by
    rw [List.head?_append_of_ne_nil _ hclosed]
    exact hclose
  rw [terminated_reads h hk hne hhead, if_pos (startsWith_append close rest), List.drop_left]

theorem terminated_none (hne : text ≠ []) (h : ∀ fuel, value fuel text = none) (fuel : Nat) :
    terminated close fuel text = none := by
  cases fuel with
  | zero => rfl
  | succ fuel => rw [terminated, if_neg hne, h]

/-- A key is read as a string, and what follows it is a colon. -/
theorem terminated_member_none {blank key : Bytes} (hblank : Blank blank) (hkey : Unescaped key)
    (hclose : close.head? ≠ some 58) (hclosed : close ≠ []) (after : Bytes) (fuel : Nat) :
    terminated close fuel (member blank key after) = none := by
  cases fuel with
  | zero => rfl
  | succ fuel =>
      have hne : member blank key after ≠ [] := by simp [member]
      have hshape : member blank key after = blank ++ (quoted key ++ 58 :: after) := by
        simp [member, quoted]
      have hcolon : startsWith (58 :: after) close = false := by
        obtain ⟨c, close, rfl⟩ := List.exists_cons_of_ne_nil hclosed
        have hc : (c == 58) = false := beq_eq_false_iff_ne.mpr fun h => hclose (by rw [h]; rfl)
        rw [startsWith, List.isPrefixOf_cons_cons, hc, Bool.false_and]
      rw [terminated, if_neg hne]
      rw [hshape, value_append hblank,
        Reads.string hkey _ (by omega) _ (by simp [isNumberChar, isDigit])]
      simp only [hcolon, Bool.false_eq_true, if_false]

end Terminated

section Separated

variable {γ : Type} {k : Nat} {text : γ → Bytes} {item : γ → Value} {separator : Bytes}

/-- Items that are each followed by a comma. -/
def separated (text : γ → Bytes) (separator : Bytes) (xs : List γ) : Bytes :=
  xs.flatMap fun x => text x ++ 44 :: separator

theorem separated_cons (x : γ) (xs : List γ) : separated text separator (x :: xs) =
    text x ++ 44 :: (separator ++ separated text separator xs) := by
  simp [separated]

theorem separated_append (xs ys : List γ) : separated text separator (xs ++ ys) =
    separated text separator xs ++ separated text separator ys := List.flatMap_append

theorem isUtf8_separated (hseparator : isUtf8 separator = true) (xs : List γ) (rest : Bytes) :
    isUtf8 (separated text separator xs ++ rest) =
      (xs.all (fun x => isUtf8 (text x)) && isUtf8 rest) := by
  have hcomma : (44 : UInt8) < 0x80 := by decide
  induction xs with
  | nil => rfl
  | cons x xs ih =>
      rw [separated_cons, List.append_assoc, List.cons_append, isUtf8_split hcomma,
        List.append_assoc, isUtf8_append hseparator, ih, List.all_cons, Bool.and_assoc]

theorem length_separated (text : γ → Bytes) (separator : Bytes) (xs : List γ) :
    xs.length ≤ (separated text separator xs).length := by
  induction xs with
  | nil => exact Nat.zero_le _
  | cons x xs ih =>
      rw [separated_cons]
      simp only [List.length_append, List.length_cons]
      omega

/-- The last item is followed by the bracket. -/
theorem ReadsElements.separated (hseparator : Blank separator) {close : Bytes}
    (hclose : Blank close) {last : γ} (hlast : Reads k (text last) (item last)) (xs : List γ)
    (h : ∀ x ∈ xs, Reads k (text x) (item x)) :
    ReadsElements (k + xs.length + 1)
      (separated text separator xs ++ (text last ++ (close ++ [93])))
      (xs.map item ++ [item last]) := by
  induction xs with
  | nil => exact ReadsElements.last hlast hclose
  | cons x xs ih =>
      have hrest := ih fun y hy => h y (List.mem_cons_of_mem x hy)
      have hx := h x List.mem_cons_self
      have hitems := ReadsElements.cons hx (hrest.space hseparator) (by omega)
      rw [separated_cons, List.append_assoc, List.cons_append, List.append_assoc]
      exact hitems

/-- Without a last item the array has no end. -/
theorem elements_unclosed {close : Bytes} (hseparator : Blank separator) (hclose : Blank close)
    (xs : List γ) {fuel : Nat} (h : ∀ x ∈ xs, Reads k (text x) (item x))
    (hfuel : xs ≠ [] → k + xs.length ≤ fuel) :
    elements fuel (separated text separator xs ++ close) = none := by
  have hcomma : isSpace 44 = false := rfl
  induction xs generalizing fuel with
  | nil =>
      cases fuel with
      | zero => rfl
      | succ fuel =>
          rw [elements]
          change (value fuel close).bind _ = none
          rw [value_blank hclose]
          rfl
  | cons x xs ih =>
      have hle : k + (xs.length + 1) ≤ fuel := hfuel (List.cons_ne_nil x xs)
      obtain ⟨fuel, rfl⟩ : ∃ n, fuel = n + 1 := ⟨fuel - 1, by omega⟩
      have hrest : elements fuel (separated text separator xs ++ close) = none :=
        ih (fun y hy => h y (List.mem_cons_of_mem x hy)) fun _ => by omega
      rw [separated_cons, List.append_assoc, List.cons_append, List.append_assoc, elements,
        h x List.mem_cons_self fuel (by omega) _ (by simp [isNumberChar, isDigit])]
      simp only [Option.bind_eq_bind, Option.bind_some, token_cons hcomma, if_true]
      rw [elements_append hseparator, hrest]
      rfl

theorem token_object {object : Bytes} (h : object.head? = some 123) (rest : Bytes) :
    token 93 (object ++ rest) = none := by
  have hbrace : isSpace 123 = false := rfl
  obtain ⟨tail, rfl⟩ : ∃ tail, object = 123 :: tail := List.head?_eq_some_iff.mp h
  rw [List.cons_append, token_cons hbrace]
  rfl

/-- No bracket stands where the first object opens. -/
theorem token_separated {rest : Bytes} (xs : List γ)
    (hopen : ∀ x ∈ xs, (text x).head? = some 123) (hrest : token 93 rest = none) :
    token 93 (separated text separator xs ++ rest) = none := by
  cases xs with
  | nil => exact hrest
  | cons x xs =>
      rw [separated_cons, List.append_assoc]
      exact token_object (hopen x List.mem_cons_self) _

/-- Objects with commas between them and brackets around are an array, if nothing
but space follows. No object is nested deeper than all of them are long. -/
theorem document_separated_of_le (hseparator : Blank separator) {close : Bytes}
    (hclose : Blank close) (xs : List γ) (last : γ) (rest : Bytes)
    (h : ∀ x ∈ xs ++ [last], Reads k (text x) (item x))
    (hopen : ∀ x ∈ xs ++ [last], (text x).head? = some 123)
    (hlength : k ≤ (separated text separator xs).length + (text last).length) :
    document (91 :: (separated text separator xs ++ (text last ++ (close ++ 93 :: rest)))) =
      if skipSpace rest = [] then some (.array ((xs ++ [last]).map item)) else none := by
  have hmem : ∀ x ∈ xs, x ∈ xs ++ [last] := fun x hx => List.mem_append_left [last] hx
  have hlast : last ∈ xs ++ [last] := List.mem_append_right xs List.mem_cons_self
  have hnonempty : token 93 (separated text separator xs ++
      (text last ++ (close ++ 93 :: rest))) = none :=
    token_separated xs (fun x hx => hopen x (hmem x hx)) (token_object (hopen last hlast) _)
  have hfuel : k + xs.length + 1 ≤ 2 * (91 :: (separated text separator xs ++
      (text last ++ (close ++ 93 :: rest)))).length + 1 := by
    have hcount := length_separated text separator xs
    simp only [List.length_cons, List.length_append]
    omega
  have hitems := ReadsElements.separated hseparator hclose (h last hlast) xs
    (fun x hx => h x (hmem x hx)) _ hfuel rest
  simp only [List.append_assoc, List.cons_append, List.nil_append] at hitems
  unfold document
  rw [value_array _ hnonempty, hitems, List.map_append]
  rfl

theorem document_separated (hseparator : Blank separator) (xs : List γ) (last : γ) (rest : Bytes)
    (h : ∀ x ∈ xs ++ [last], Reads k (text x) (item x))
    (hopen : ∀ x ∈ xs ++ [last], (text x).head? = some 123) (hlength : k ≤ (text last).length) :
    document (91 :: (separated text separator xs ++ (text last ++ 93 :: rest))) =
      if skipSpace rest = [] then some (.array ((xs ++ [last]).map item)) else none := by
  have hclose : Blank [] := by decide
  exact document_separated_of_le hseparator hclose xs last rest h hopen (by omega)

theorem document_unclosed {close : Bytes} (hseparator : Blank separator) (hclose : Blank close)
    (xs : List γ) (h : ∀ x ∈ xs, Reads k (text x) (item x))
    (hopen : ∀ x ∈ xs, (text x).head? = some 123) (hlength : ∀ x ∈ xs, k ≤ (text x).length) :
    document (91 :: (separated text separator xs ++ close)) = none := by
  have hnonempty : token 93 (separated text separator xs ++ close) = none :=
    token_separated xs hopen (token_blank hclose 93)
  have hfuel : xs ≠ [] →
      k + xs.length ≤ 2 * (91 :: (separated text separator xs ++ close)).length + 1 := by
    intro hxs
    obtain ⟨x, ys, rfl⟩ := List.exists_cons_of_ne_nil hxs
    have hx := hlength x List.mem_cons_self
    have hcount := length_separated text separator ys
    rw [separated_cons]
    simp only [List.length_cons, List.length_append]
    omega
  unfold document
  rw [value_array _ hnonempty, elements_unclosed hseparator hclose xs h hfuel]
  rfl

end Separated

end Json
