import MeasuredBoot.Common.Firmware

/-! # Variable files shorter than their attributes

`create_uefi_variable` and the `Boot####` loop of `calculate_efi_boot_vars` subtract the
four attribute bytes from the size of a file without looking at it first.
-/

namespace MeasuredBoot

open Binary Imperative Imperative.Proc

variable {n : Nat}

/-! ## Sizes -/

/-- `*size` of `create_uefi_variable`. -/
def uefiVariableSize (nameLen varDataSize : UInt64) : UInt64 :=
  16 + 8 + 8 + nameLen * 2 + varDataSize

/-- The subtraction gives the integer difference where the file has the attributes. -/
theorem attributes_noWrap {size : UInt64} : (size - 4).toNat + 4 = size.toNat ↔ 4 ≤ size.toNat := by
  have hlt := size.toNat_lt
  have hsub : (size - 4).toNat = (2 ^ 64 - 4 + size.toNat) % 2 ^ 64 := UInt64.toNat_sub size 4
  omega

theorem uefiVariableSize_toNat {nameLen varDataSize : UInt64}
    (h : 32 + 2 * nameLen.toNat + varDataSize.toNat < 2 ^ 64) :
    (uefiVariableSize nameLen varDataSize).toNat
      = 32 + 2 * nameLen.toNat + varDataSize.toNat := by
  simp only [uefiVariableSize, UInt64.toNat_add, UInt64.toNat_mul, UInt64.reduceToNat]
  omega

/-- The names of the secure boot variables are short. -/
theorem secureBootVariables_name {args : SecureBootArgs} {var : VariableType}
    (h : var ∈ secureBootVariables args) : var.variableName.length ≤ 10 := by
  simp only [secureBootVariables, List.mem_cons, List.not_mem_nil, or_false] at h
  rcases h with rfl | rfl | rfl | rfl | rfl <;>
    simp [driverConfigVariable, utf16]

/-! ## One variable -/

theorem measureVariable_eq (md : Md n) (mrIndex : Nat) (var : VariableType) (s : Measurement n) :
    measureVariable md mrIndex var s =
      match createUefiVariable var with
      | .error why => .stop why
      | .ok none => .exit (-1) s
      | .ok (some data) =>
          .next 0 (s.measured md mrIndex var.eventType data (nameNarrow var.variableName)) := by
  unfold measureVariable
  cases createUefiVariable var with
  | error why => rfl
  | ok created => cases created <;> rfl

theorem measureBootxxxx_eq (md : Md n) (mrIndex : Nat) {f : File} (h : f.Readable)
    (s : Measurement n) :
    measureBootxxxx md mrIndex f s =
      if 4 ≤ f.content.length then
        .next () (s.measured md mrIndex (ascii "EV_EFI_VARIABLE_BOOT") (f.content.drop 4)
          (bootVariableName "Boot####"))
      else .stop .fault := by
  unfold measureBootxxxx
  rw [readFile_of_readable h]
  dsimp only
  rw [f.copyFrom_attributes]
  split <;> rfl

/-- A run of one variable measures the given bytes, or fails and leaves register and log
as they are. -/
def MeasuresOrFails {α : Type} (outcome : Outcome (Measurement n) α) (value : α)
    (s measured : Measurement n) : Prop :=
  outcome = .next value measured ∨ ∃ r, r ≠ 0 ∧ outcome = .exit r s

/-- The two places a variable file is used in take its bytes from offset 4 on for the
data, or fail; and no size they compute wraps. -/
structure VariableFileHandled (f : File) : Prop where
  secureBoot : ∀ (args : SecureBootArgs) (var : VariableType),
    var ∈ secureBootVariables args → var.path = some f →
      ∀ (n : Nat) (md : Md n) (mrIndex : Nat) (s : Measurement n),
        MeasuresOrFails (measureVariable md mrIndex var s) 0 s
          (s.measured md mrIndex var.eventType (uefiVariableData var (f.content.drop 4))
            (nameNarrow var.variableName))
  bootxxxx : ∀ (n : Nat) (md : Md n) (mrIndex : Nat) (s : Measurement n),
    MeasuresOrFails (measureBootxxxx md mrIndex f s) () s
      (s.measured md mrIndex (ascii "EV_EFI_VARIABLE_BOOT") (f.content.drop 4)
        (bootVariableName "Boot####"))
  dataSize : ∀ b, readFile f = some b → (b.size - 4).toNat + 4 = b.size.toNat
  variableSize : ∀ (args : SecureBootArgs) (var : VariableType),
    var ∈ secureBootVariables args → ∀ b, readFile f = some b →
      (uefiVariableSize (UInt64.ofNat var.variableName.length) (b.size - 4)).toNat
        = 32 + 2 * var.variableName.length + (b.size - 4).toNat

theorem createUefiVariable_unreadable {var : VariableType} {f : File} (hpath : var.path = some f)
    (hread : ¬f.Readable) : createUefiVariable var = .ok none :=
  createUefiVariable_of_fails (.file f hpath hread)

theorem VariableFileHandled.of_unreadable {f : File} (h : ¬f.Readable) :
    VariableFileHandled f where
  secureBoot args var _ hpath n md mrIndex s := by
    refine Or.inr ⟨-1, by decide, ?_⟩
    rw [measureVariable_eq, createUefiVariable_unreadable hpath h]
  bootxxxx n md mrIndex s := by
    refine Or.inr ⟨-1, by decide, ?_⟩
    unfold measureBootxxxx
    rw [readFile_eq_none.mpr h]
    rfl
  dataSize b hb := absurd (readFile_eq_some.mp hb).1 h
  variableSize _ _ _ b hb := absurd (readFile_eq_some.mp hb).1 h

theorem VariableFileHandled.of_attributes {f : File} (hread : f.Readable)
    (hlen : 4 ≤ f.content.length) : VariableFileHandled f where
  secureBoot args var _ hpath n md mrIndex s := by
    rw [measureVariable_eq]
    cases halloc : var.allocates with
    | false =>
        refine Or.inr ⟨-1, by decide, ?_⟩
        rw [createUefiVariable_of_fails (.allocation halloc)]
    | true =>
        have hfile : ∀ g, var.path = some g → g.Readable ∧ 4 ≤ g.content.length := by
          intro g hg
          rw [hpath] at hg
          cases hg
          exact ⟨hread, hlen⟩
        have hcontent : var.content = f.content.drop 4 := by
          unfold VariableType.content
          rw [hpath]
        refine Or.inl ?_
        rw [createUefiVariable_of_passes ⟨hfile, halloc⟩, hcontent]
  bootxxxx n md mrIndex s := by
    refine Or.inl ?_
    rw [measureBootxxxx_eq md mrIndex hread, if_pos hlen]
  dataSize b hb := by
    rw [attributes_noWrap, b.size_toNat, (readFile_eq_some.mp hb).2]
    exact hlen
  variableSize args var hvar b hb := by
    have hname := secureBootVariables_name hvar
    have hname64 : (UInt64.ofNat var.variableName.length).toNat = var.variableName.length := by
      rw [UInt64.toNat_ofNat']
      omega
    have hattributes : (b.size - 4).toNat + 4 = b.size.toNat := by
      rw [attributes_noWrap, b.size_toNat, (readFile_eq_some.mp hb).2]
      exact hlen
    have hsize := b.size_lt
    rw [b.size_toNat] at hattributes
    rw [uefiVariableSize_toNat (by omega), hname64]

/-- A file that is read is used right exactly where it has its four attribute bytes. -/
theorem variableFileHandled_iff (f : File) :
    VariableFileHandled f ↔ ¬f.Readable ∨ 4 ≤ f.content.length := by
  constructor
  · intro h
    by_cases hread : f.Readable
    · have hsize := h.dataSize _ (readFile_of_readable hread)
      rw [attributes_noWrap, Buffer.size_toNat] at hsize
      exact Or.inr hsize
    · exact Or.inl hread
  · rintro (hread | hlen)
    · exact .of_unreadable hread
    · by_cases hread : f.Readable
      · exact .of_attributes hread hlen
      · exact .of_unreadable hread

/-- Three bytes: not even the attributes. -/
def shortVariableFile : File := .intact (ascii "Boot0001") [7, 0, 0] (by decide)

theorem not_variableFileHandled_short : ¬VariableFileHandled shortVariableFile := by
  intro h
  have hread : shortVariableFile.Readable := File.intact_readable ..
  have hrun := h.bootxxxx 0 (fun _ => zeroDigest 0) 0 ⟨zeroDigest 0, []⟩
  rw [measureBootxxxx_eq _ _ hread, if_neg (by decide)] at hrun
  rcases hrun with hnext | ⟨r, -, hexit⟩
  · cases hnext
  · cases hexit

end MeasuredBoot
