import MeasuredBoot.Common.SetupHeader

/-! # Boot configuration files

The lines of a configuration: those that assign a value to a key, those `config_load` turns
down and those on which it hands `free` a pointer that is not from `strdup`. From the lines,
what configuring a kernel from a file does to its image.
-/

namespace MeasuredBoot

open Binary Imperative Assignments

/-! ## Lines -/

def Blank (text : Bytes) : Prop := ∀ c ∈ text, isspace c = true

theorem Blank.free {text : Bytes} (h : Blank text) {c : UInt8} (hc : isspace c = false) :
    c ∉ text := by
  intro hmem
  rw [h c hmem] at hc
  cases hc

/-- A text that neither starts nor ends with a blank. -/
structure Trimmed (text : Bytes) : Prop where
  head : ∀ c ∈ text.head?, isspace c = false
  last : ∀ c ∈ text.getLast?, isspace c = false

theorem dropWhile_blanks {blanks text : Bytes} (hblank : Blank blanks)
    (hhead : ∀ c ∈ text.head?, isspace c = false) (hne : text ≠ []) :
    (blanks ++ text).dropWhile isspace = text := by
  rw [List.dropWhile_append_of_pos hblank]
  cases text with
  | nil => exact absurd rfl hne
  | cons c text => simp [hhead c rfl]

/-- `trim` takes the blanks away. -/
theorem trim_blanks {before text after : Bytes} (hbefore : Blank before) (hafter : Blank after)
    (htext : Trimmed text) (hne : text ≠ []) : trim (before ++ text ++ after) = text := by
  have hhead : ∀ c ∈ (text ++ after).head?, isspace c = false := by
    intro c hc
    rw [List.head?_append_of_ne_nil _ hne] at hc
    exact htext.head c hc
  have hblank : Blank after.reverse := fun c hc => hafter c (List.mem_reverse.mp hc)
  have hlast : ∀ c ∈ text.reverse.head?, isspace c = false := by
    intro c hc
    rw [List.head?_reverse] at hc
    exact htext.last c hc
  unfold trim
  rw [List.append_assoc, dropWhile_blanks hbefore hhead (by simp [hne]), List.reverse_append,
    dropWhile_blanks hblank hlast (by simp [hne]), List.reverse_reverse]

/-- A line `key = value` with blanks around both: the key holds no `=`, and the value more
than that. -/
structure KeyValueLine (line key value : Bytes) : Prop where
  text : ∃ before after behind trail, Blank before ∧ Blank after ∧ Blank behind ∧ Blank trail ∧
    line = before ++ key ++ after ++ 61 :: (behind ++ value ++ trail)
  key_ne : key ≠ []
  key_trimmed : Trimmed key
  key_free : (61 : UInt8) ∉ key
  nul_free : (0 : UInt8) ∉ key ∧ (0 : UInt8) ∉ value
  value_ne : ∃ c ∈ value, c ≠ 61

/-- The key is the first token, and behind it stands the value. -/
theorem KeyValueLine.tokens {line key value : Bytes} (h : KeyValueLine line key value) :
    ∃ var behind trail, Blank behind ∧ Blank trail ∧ trim var = key ∧
      strtok 61 (cString line) = some (var, behind ++ value ++ trail) ∧
      (cString line).head? ≠ some 61 := by
  obtain ⟨before, after, behind, trail, hbefore, hafter, hbehind, htrail, rfl⟩ := h.text
  have hnul : isspace 0 = false := by decide
  have hsep : isspace 61 = false := by decide
  have htext : cString (before ++ key ++ after ++ 61 :: (behind ++ value ++ trail)) =
      before ++ key ++ after ++ 61 :: (behind ++ value ++ trail) := by
    apply cString_eq_self
    simp only [List.mem_append, List.mem_cons, not_or]
    exact ⟨⟨⟨hbefore.free hnul, h.nul_free.1⟩, hafter.free hnul⟩, by decide,
      ⟨hbehind.free hnul, h.nul_free.2⟩, htrail.free hnul⟩
  have hfree : (61 : UInt8) ∉ before ++ key ++ after := by
    simp only [List.mem_append, not_or]
    exact ⟨⟨hbefore.free hsep, h.key_free⟩, hafter.free hsep⟩
  have hne : before ++ key ++ after ≠ [] := by simp [h.key_ne]
  refine ⟨before ++ key ++ after, behind, trail, hbehind, htrail,
    trim_blanks hbefore hafter h.key_trimmed h.key_ne, ?_, ?_⟩
  · rw [htext, strtok_delimited hne hfree]
  · rw [htext, List.head?_append_of_ne_nil _ hne]
    intro hhead
    exact hfree (List.mem_of_mem_head? hhead)

/-! ### What becomes of a line -/

/-- The line has two tokens, the first of which is no key. -/
def Rejects (line : Bytes) : Prop :=
  ∃ var rest, strtok 61 (cString line) = some (var, rest) ∧ (strtok 61 rest).isSome ∧
    ∀ key : SetupKey, trim var ≠ key.name

/-- The line starts with `=` and has a token. Unless it is rejected, that token is what
`free` gets. -/
def Misfrees (line : Bytes) : Prop :=
  (cString line).head? = some 61 ∧ (∃ c ∈ cString line, c ≠ 61) ∧ ¬Rejects line

theorem configLine_rejects {line : Bytes} (h : Rejects line) (c : KernelSetupHdr) :
    configLine c line = .ok none := by
  obtain ⟨var, rest, hvar, hval, hunknown⟩ := h
  obtain ⟨⟨val, last⟩, hval⟩ := Option.isSome_iff_exists.mp hval
  unfold configLine
  simp only [hvar, hval, setVal_eq_none.mpr hunknown]

theorem rejects_of_setVal {line var val rest last : Bytes} {c : KernelSetupHdr}
    (hvar : strtok 61 (cString line) = some (var, rest)) (hval : strtok 61 rest = some (val, last))
    (hset : setVal c (trim var) (trim val) = none) : Rejects line := by
  refine ⟨var, rest, hvar, ?_, setVal_eq_none.mp hset⟩
  rw [hval]
  rfl

theorem configLine_misfrees {line : Bytes} (h : Misfrees line) (c : KernelSetupHdr) :
    configLine c line = .error .fault := by
  obtain ⟨hhead, htoken, hnot⟩ := h
  obtain ⟨⟨var, rest⟩, hvar⟩ := Option.isSome_iff_exists.mp (strtok_isSome.mpr htoken)
  unfold configLine
  simp only [hvar, hhead, if_true]
  cases hval : strtok 61 rest with
  | none => rfl
  | some token =>
      simp only
      cases hset : setVal c (trim var) (trim token.1) with
      | none => exact absurd (rejects_of_setVal hvar hval hset) hnot
      | some c' => rfl

/-- Every other line leaves a configuration. -/
theorem configLine_accepts {line : Bytes} (hrejects : ¬Rejects line) (hmisfrees : ¬Misfrees line)
    (c : KernelSetupHdr) : ∃ c', configLine c line = .ok (some c') := by
  unfold configLine
  simp only
  cases hvar : strtok 61 (cString line) with
  | none => exact ⟨c, rfl⟩
  | some token =>
      obtain ⟨var, rest⟩ := token
      have htoken := strtok_isSome.mp (show (strtok 61 (cString line)).isSome by rw [hvar]; rfl)
      have hhead : ¬(cString line).head? = some 61 :=
        fun hhead => hmisfrees ⟨hhead, htoken, hrejects⟩
      simp only [if_neg hhead]
      cases hval : strtok 61 rest with
      | none => exact ⟨c, rfl⟩
      | some token =>
          simp only
          cases hset : setVal c (trim var) (trim token.1) with
          | none => exact absurd (rejects_of_setVal hvar hval hset) hrejects
          | some c' => exact ⟨c', rfl⟩

/-- The file is turned down if and only if a line that is rejected comes before all that
misuse `free`. -/
theorem configLines_eq_none {lines : List Bytes} (c : KernelSetupHdr) :
    configLines c lines = .ok none ↔ ∃ before line after, lines = before ++ line :: after ∧
      Rejects line ∧ ∀ earlier ∈ before, ¬Misfrees earlier := by
  induction lines generalizing c with
  | nil =>
      simp [configLines]
  | cons first lines ih =>
      by_cases hrejects : Rejects first
      · rw [configLines, configLine_rejects hrejects]
        simp only [true_iff]
        exact ⟨[], first, lines, rfl, hrejects, by simp⟩
      · by_cases hmisfrees : Misfrees first
        · rw [configLines, configLine_misfrees hmisfrees]
          simp only [reduceCtorEq, false_iff]
          rintro ⟨before, line, after, heq, hline, hbefore⟩
          cases before with
          | nil =>
              cases heq
              exact hrejects hline
          | cons earlier before =>
              cases heq
              exact hbefore first List.mem_cons_self hmisfrees
        · obtain ⟨c', hc'⟩ := configLine_accepts hrejects hmisfrees c
          rw [configLines, hc']
          simp only
          rw [ih c']
          constructor
          · rintro ⟨before, line, after, rfl, hline, hbefore⟩
            exact ⟨first :: before, line, after, rfl, hline,
              List.forall_mem_cons.mpr ⟨hmisfrees, hbefore⟩⟩
          · rintro ⟨before, line, after, heq, hline, hbefore⟩
            cases before with
            | nil =>
                cases heq
                exact absurd hline hrejects
            | cons earlier before =>
                cases heq
                exact ⟨before, line, after, rfl, hline, (List.forall_mem_cons.mp hbefore).2⟩

/-! ### Assignments -/

/-- The value of hexadecimal digits. -/
def hexValue (digits : Bytes) : Nat :=
  digits.foldl (fun value c => 16 * value + (hexDigitValue c).getD 0) 0

/-- A hexadecimal numeral and its value. -/
inductive HexNumeral : Bytes → Nat → Prop where
  | plain (digits : Bytes) (hne : digits ≠ []) (h : ∀ c ∈ digits, (hexDigitValue c).isSome) :
      HexNumeral digits (hexValue digits)
  | marked (mark digits : Bytes) (hmark : mark = ascii "0x" ∨ mark = ascii "0X")
      (hne : digits ≠ []) (h : ∀ c ∈ digits, (hexDigitValue c).isSome) :
      HexNumeral (mark ++ digits) (hexValue digits)

theorem HexNumeral.ne_nil {numeral : Bytes} {value : Nat} (h : HexNumeral numeral value) :
    numeral ≠ [] := by
  cases h with
  | plain _ hne _ => exact hne
  | marked mark digits _ hne _ => simp [hne]

theorem HexNumeral.chars {numeral : Bytes} {value : Nat} (h : HexNumeral numeral value) :
    ∀ c ∈ numeral, (hexDigitValue c).isSome ∨ c = 120 ∨ c = 88 := by
  intro c hc
  cases h with
  | plain _ _ h => exact Or.inl (h c hc)
  | marked mark digits hmark _ h =>
      rcases List.mem_append.mp hc with hc | hc
      · have hzero : (hexDigitValue 48).isSome := by decide
        rcases hmark with rfl | rfl
        · rcases List.mem_cons.mp hc with rfl | hc
          · exact Or.inl hzero
          · exact Or.inr (Or.inl (List.mem_singleton.mp hc))
        · rcases List.mem_cons.mp hc with rfl | hc
          · exact Or.inl hzero
          · exact Or.inr (Or.inr (List.mem_singleton.mp hc))
      · exact Or.inl (h c hc)

theorem HexNumeral.free {numeral : Bytes} {value : Nat} (h : HexNumeral numeral value) {c : UInt8}
    (hdigit : hexDigitValue c = none) (hmark : c ≠ 120 ∧ c ≠ 88) : c ∉ numeral := by
  intro hc
  rcases h.chars c hc with hsome | hlower | hupper
  · rw [hdigit] at hsome
    cases hsome
  · exact hmark.1 hlower
  · exact hmark.2 hupper

theorem HexNumeral.not_blank {numeral : Bytes} {value : Nat} (h : HexNumeral numeral value) :
    ∀ c ∈ numeral, isspace c = false := by
  intro c hc
  by_contra hblank
  have hspace : c = 32 ∨ (9 ≤ c ∧ c ≤ 13) := by
    rw [Decidable.or_iff_not_imp_left]
    simpa [isspace] using hblank
  have hdigit : hexDigitValue c = none := by
    unfold hexDigitValue
    simp only [UInt8.le_iff_toNat_le, UInt8.reduceToNat, ← UInt8.toNat_inj] at hspace ⊢
    grind
  have hmark : c ≠ 120 ∧ c ≠ 88 := by
    simp only [UInt8.le_iff_toNat_le, UInt8.reduceToNat, ← UInt8.toNat_inj, ne_eq] at hspace ⊢
    omega
  exact h.free hdigit hmark hc

theorem HexNumeral.trimmed {numeral : Bytes} {value : Nat} (h : HexNumeral numeral value) :
    Trimmed numeral where
  head c hc := h.not_blank c (List.mem_of_mem_head? hc)
  last c hc := h.not_blank c (List.mem_of_mem_getLast? hc)

theorem hexPrefixValue_digits {digits : Bytes} (h : ∀ c ∈ digits, (hexDigitValue c).isSome) :
    hexPrefixValue digits = hexValue digits := by
  rw [hexPrefixValue, List.takeWhile_eq_self_iff.mpr h]
  rfl

/-- `strtol` reads a numeral that fits a `long`. -/
theorem HexNumeral.strtolHex_eq {numeral : Bytes} {value : Nat} (h : HexNumeral numeral value)
    (hlt : value < 2 ^ 63) : strtolHex numeral = value := by
  have hnone : Blank [] := fun c hc => by cases hc
  have hbody : numeral.dropWhile isspace = numeral :=
    dropWhile_blanks hnone h.trimmed.head h.ne_nil
  have hsign : ∀ sign : UInt8, hexDigitValue sign = none → sign ≠ 120 ∧ sign ≠ 88 →
      ¬numeral.head? = some sign := fun sign hdigit hmark hhead =>
    h.free hdigit hmark (List.mem_of_mem_head? hhead)
  have hminus := hsign 45 (by decide) (by decide)
  have hplus := hsign 43 (by decide) (by decide)
  have hdigits : hexPrefixValue
      (if startsWith numeral (ascii "0x") ∨ startsWith numeral (ascii "0X") then numeral.drop 2
        else numeral) = value := by
    cases h with
    | plain _ hne h =>
        rw [if_neg, hexPrefixValue_digits h]
        rintro (hstart | hstart)
        · have hmark : 120 ∈ ascii "0x" := by decide
          have hmem := (List.isPrefixOf_iff_prefix.mp hstart).subset hmark
          exact absurd (h 120 hmem) (by decide)
        · have hmark : 88 ∈ ascii "0X" := by decide
          have hmem := (List.isPrefixOf_iff_prefix.mp hstart).subset hmark
          exact absurd (h 88 hmem) (by decide)
    | marked mark digits hmark hne h =>
        rw [if_pos, ← hexPrefixValue_digits h]
        · rcases hmark with rfl | rfl <;> rfl
        · rcases hmark with rfl | rfl
          · exact Or.inl (startsWith_append _ _)
          · exact Or.inr (startsWith_append _ _)
  unfold strtolHex
  simp only [hbody, hminus, hplus, decide_false, Bool.false_eq_true, or_self, if_false, hdigits]
  omega

/-- The lines are blank or assign a value to a key, in this order. -/
inductive Assigning : List Bytes → List (SetupKey × Nat) → Prop where
  | nil : Assigning [] []
  | blank (line : Bytes) (lines : List Bytes) (assigned : List (SetupKey × Nat))
      (hblank : Blank line) (h : Assigning lines assigned) : Assigning (line :: lines) assigned
  | assign (line numeral : Bytes) (key : SetupKey) (value : Nat) (lines : List Bytes)
      (assigned : List (SetupKey × Nat)) (hline : KeyValueLine line key.name numeral)
      (hnumeral : HexNumeral numeral value) (hlt : value < 2 ^ 63) (h : Assigning lines assigned) :
      Assigning (line :: lines) ((key, value) :: assigned)

/-- A permutation of the lines permutes the assignments. -/
theorem Assigning.perm {lines lines' : List Bytes} (hperm : lines.Perm lines') :
    ∀ {assigned}, Assigning lines assigned →
      ∃ assigned', Assigning lines' assigned' ∧ assigned.Perm assigned' := by
  induction hperm with
  | nil =>
      intro assigned h
      exact ⟨assigned, h, .refl _⟩
  | cons line _ ih =>
      intro assigned h
      cases h with
      | blank _ _ _ hblank h =>
          obtain ⟨assigned', h', hperm⟩ := ih h
          exact ⟨assigned', .blank _ _ _ hblank h', hperm⟩
      | assign _ numeral key value _ rest hline hnumeral hlt h =>
          obtain ⟨assigned', h', hperm⟩ := ih h
          exact ⟨_, .assign _ numeral key value _ _ hline hnumeral hlt h', hperm.cons _⟩
  | swap first second lines =>
      intro assigned h
      cases h with
      | blank _ _ _ hsecond h =>
          cases h with
          | blank _ _ _ hfirst h =>
              exact ⟨assigned, .blank _ _ _ hfirst (.blank _ _ _ hsecond h), .refl _⟩
          | assign _ _ _ _ _ _ hfirst hnumeral hlt h =>
              exact ⟨_, .assign _ _ _ _ _ _ hfirst hnumeral hlt (.blank _ _ _ hsecond h), .refl _⟩
      | assign _ _ _ _ _ _ hsecond hnumeral hlt h =>
          cases h with
          | blank _ _ _ hfirst h =>
              exact ⟨_, .blank _ _ _ hfirst (.assign _ _ _ _ _ _ hsecond hnumeral hlt h), .refl _⟩
          | assign _ _ _ _ _ _ hfirst hnumeral' hlt' h =>
              exact ⟨_, .assign _ _ _ _ _ _ hfirst hnumeral' hlt'
                (.assign _ _ _ _ _ _ hsecond hnumeral hlt h), .swap ..⟩
  | trans _ _ ihfirst ihsecond =>
      intro assigned h
      obtain ⟨assigned', h', hperm⟩ := ihfirst h
      obtain ⟨assigned'', h'', hperm'⟩ := ihsecond h'
      exact ⟨assigned'', h'', hperm.trans hperm'⟩

theorem configLine_blank {line : Bytes} (h : Blank line) (c : KernelSetupHdr) :
    configLine c line = .ok (some c) := by
  have htext : cString line = line := cString_eq_self (h.free (by decide))
  unfold configLine
  simp only [htext]
  by_cases hempty : line = []
  · subst hempty
    rfl
  · have hsep : (61 : UInt8) ∉ line := h.free (by decide)
    have hhead : ¬line.head? = some 61 := fun hhead => hsep (List.mem_of_mem_head? hhead)
    have hnone : strtok 61 [] = none := rfl
    rw [strtok_last hempty hsep]
    simp only [hnone, if_neg hhead]

theorem configLine_assign {line numeral : Bytes} {key : SetupKey} {value : Nat}
    (h : KeyValueLine line key.name numeral) (hnumeral : HexNumeral numeral value)
    (hlt : value < 2 ^ 63) (c : KernelSetupHdr) :
    configLine c line = .ok (some (c.assign key value)) := by
  obtain ⟨var, behind, trail, hbehind, htrail, htrim, hvar, hhead⟩ := h.tokens
  have hsep : (61 : UInt8) ∉ behind ++ numeral ++ trail := by
    simp only [List.mem_append, not_or]
    exact ⟨⟨hbehind.free (by decide), hnumeral.free (by decide) (by decide)⟩,
      htrail.free (by decide)⟩
  have hval := strtok_last (by simp [hnumeral.ne_nil]) hsep
  have hset := setVal_name c key numeral
  rw [hnumeral.strtolHex_eq hlt] at hset
  unfold configLine
  simp only [hvar, hval, htrim, trim_blanks hbehind htrail hnumeral.trimmed hnumeral.ne_nil, hset,
    if_neg hhead]

/-- The configuration is what the assignments make of it. -/
theorem configLines_assigning {lines : List Bytes} {assigned : List (SetupKey × Nat)}
    (h : Assigning lines assigned) (c : KernelSetupHdr) :
    configLines c lines = .ok (some (KernelSetupHdr.fields.run c assigned)) := by
  induction h generalizing c with
  | nil => rfl
  | blank line lines assigned hblank _ ih =>
      rw [configLines, configLine_blank hblank]
      exact ih c
  | assign line numeral key value lines assigned hline hnumeral hlt _ ih =>
      rw [configLines, configLine_assign hline hnumeral hlt]
      exact ih (c.assign key value)

/-! ## Configuration files -/

/-- A configuration file that is read without an error. -/
structure ConfigFile where
  file : File
  delivered : file.LinesDelivered

def ConfigFile.lines (f : ConfigFile) : List Bytes := getlines f.file.content

theorem ConfigFile.configLoad_eq (f : ConfigFile) :
    configLoad f.file = configLines {} f.lines := configLoad_of_delivered f.delivered

/-- `config_load`, then `config_prepare_kernel_pecoff`: the patched image, or none where one of
them fails. -/
def configureKernel (f : ConfigFile) (image : Bytes) : Except Stop (Option Bytes) :=
  (configLoad f.file).map (·.bind (configPrepareKernelPecoff image))

/-- A line `key = value` whose key is not known. -/
def UnknownKey (line : Bytes) : Prop :=
  ∃ key value, KeyValueLine line key value ∧ ∀ known : SetupKey, key ≠ known.name

/-- What configuring a kernel from a file is to do. Files whose assignments differ only in the
order of distinct keys give one image; `permuted` is the case of lines that change places. -/
structure HandlesConfig (f : ConfigFile) : Prop where
  sets : ∀ assigned, Assigning f.lines assigned → ∀ image : Bytes, 0x230 ≤ image.length →
    ∃ patched, configureKernel f image = .ok (some patched) ∧
      configureKernel f patched = .ok (some patched) ∧ Configured assigned image patched
  rearranged : ∀ (g : ConfigFile) assigned assigned', Assigning f.lines assigned →
    Assigning g.lines assigned' → SameOrder assigned assigned' →
    ∀ image : Bytes, 0x230 ≤ image.length → configureKernel g image = configureKernel f image
  permuted : ∀ (g : ConfigFile) assigned, Assigning f.lines assigned →
    (assigned.map Prod.fst).Nodup → f.lines.Perm g.lines →
    ∀ image : Bytes, 0x230 ≤ image.length → configureKernel g image = configureKernel f image
  rejects : (∃ line ∈ f.lines, UnknownKey line) → configLoad f.file = .ok none

theorem configureKernel_of_assigning {f : ConfigFile} {assigned : List (SetupKey × Nat)}
    (h : Assigning f.lines assigned) (image : Bytes) : configureKernel f image =
      .ok (configPrepareKernelPecoff image (KernelSetupHdr.fields.run {} assigned)) := by
  rw [configureKernel, f.configLoad_eq, configLines_assigning h]
  rfl

theorem configureKernel_of_sameOrder {f g : ConfigFile} {assigned assigned' : List (SetupKey × Nat)}
    (h : Assigning f.lines assigned) (h' : Assigning g.lines assigned')
    (horder : SameOrder assigned assigned') (image : Bytes) :
    configureKernel g image = configureKernel f image := by
  rw [configureKernel_of_assigning h, configureKernel_of_assigning h', run_of_sameOrder horder]

theorem UnknownKey.rejects {line : Bytes} (h : UnknownKey line) : Rejects line := by
  obtain ⟨key, value, hline, hunknown⟩ := h
  obtain ⟨var, behind, trail, -, -, htrim, hvar, -⟩ := hline.tokens
  refine ⟨var, _, hvar, ?_, ?_⟩
  · obtain ⟨c, hc, hne⟩ := hline.value_ne
    exact strtok_isSome.mpr ⟨c, by simp [hc], hne⟩
  · rw [htrim]
    exact hunknown

/-- A file with an unknown key is rejected unless a line in front of every such line hands
`free` a pointer that `malloc` did not return. -/
theorem handlesConfig_iff (f : ConfigFile) :
    HandlesConfig f ↔
      ((∃ line ∈ f.lines, UnknownKey line) → ∃ before line after,
        f.lines = before ++ line :: after ∧ Rejects line ∧
          ∀ earlier ∈ before, ¬Misfrees earlier) := by
  rw [← configLines_eq_none {}, ← f.configLoad_eq]
  constructor
  · intro h
    exact h.rejects
  · intro hrejects
    refine ⟨?_, ?_, ?_, hrejects⟩
    · intro assigned h image hsize
      obtain ⟨patched, hpatched, htwice, hconfigured⟩ := configured_prepare assigned hsize
      refine ⟨patched, ?_, ?_, hconfigured⟩
      · rw [configureKernel_of_assigning h, hpatched]
      · rw [configureKernel_of_assigning h, htwice]
    · intro g assigned assigned' h h' horder image _
      exact configureKernel_of_sameOrder h h' horder image
    · intro g assigned h hnodup hperm image _
      obtain ⟨assigned', h', hassigned⟩ := h.perm hperm
      exact configureKernel_of_sameOrder h h' (sameOrder_of_perm hassigned hnodup) image

/-- A line of one `=` in front of a key that is not known. -/
def separatorFirst : ConfigFile where
  file := File.intact [] (ascii "=\nFoo = 1\n") (by decide)
  delivered := by decide

theorem unknownKey_foo : UnknownKey (ascii "Foo = 1\n") := by
  refine ⟨ascii "Foo", ascii "1", ?_, fun known => by cases known <;> decide⟩
  have hspace : Blank (ascii " ") := by
    intro c hc
    rw [List.mem_singleton.mp hc]
    rfl
  have hnewline : Blank (ascii "\n") := by
    intro c hc
    rw [List.mem_singleton.mp hc]
    rfl
  have hnone : Blank [] := fun c hc => by cases hc
  constructor
  case text =>
    exact ⟨[], ascii " ", ascii " ", ascii "\n", hnone, hspace, hspace, hnewline, by decide⟩
  case key_trimmed => exact ⟨fun c hc => by cases hc; rfl, fun c hc => by cases hc; rfl⟩
  case value_ne => exact ⟨49, List.mem_cons_self, by decide⟩
  all_goals decide

/-- `free` ends the program before the key is looked at. -/
theorem not_handlesConfig_separatorFirst : ¬HandlesConfig separatorFirst := by
  intro h
  have hfault : configLoad separatorFirst.file = .error .fault := by decide
  have hnone := h.rejects ⟨ascii "Foo = 1\n", by decide, unknownKey_foo⟩
  rw [hfault] at hnone
  cases hnone

end MeasuredBoot
