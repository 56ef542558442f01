import MeasuredBoot.Common.VariableFiles
import MeasuredBoot.SrtmLog.Format

/-! # The body of variable events, written and read

`create_uefi_variable` writes the `UEFI_VARIABLE_DATA` of edk2, `parse_event2body` checks
the one of `efi_event.h`: a GUID, the number of characters of the name, the number of
bytes of the data, the name and the data.
-/

namespace MeasuredBoot

open Binary Imperative Imperative.Proc SrtmLog

/-! ## Reading the layout -/

/-- The `EFI_GUID` at the start of a string. -/
def guidAt (mem : Bytes) (h : 16 ≤ mem.length) : EfiGuid where
  data1 := UInt32.ofNat (ofLE (slice mem 0 4))
  data2 := UInt16.ofNat (ofLE (slice mem 4 2))
  data3 := UInt16.ofNat (ofLE (slice mem 6 2))
  data4 := slice mem 8 8
  data4_length := slice_length h

/-- The first `count` of the `CHAR16` units a string holds. -/
def char16Units : Nat → Bytes → List UInt16
  | 0, _ => []
  | count + 1, mem => UInt16.ofNat (ofLE (mem.take 2)) :: char16Units count (mem.drop 2)

/-- A variable as its event describes it. -/
structure UefiVariable where
  guid : EfiGuid
  name : List UInt16
  data : Bytes
  deriving DecidableEq

/-- The variable a `UEFI_VARIABLE_DATA` of this many bytes holds. -/
def decodeUefiVariable (body : Bytes) : Option UefiVariable :=
  let unicodeNameLength := ofLE (slice body 16 8)
  let variableDataLength := ofLE (slice body 24 8)
  if h : 32 + 2 * unicodeNameLength + variableDataLength ≤ body.length then
    some ⟨guidAt body (by omega), char16Units unicodeNameLength (body.drop 32),
      slice body (32 + 2 * unicodeNameLength) variableDataLength⟩
  else none

theorem guidAt_append (g : EfiGuid) (rest : Bytes) (h : 16 ≤ (g.bytes ++ rest).length) :
    guidAt (g.bytes ++ rest) h = g := by
  have h1 : g.data1.toNat < 256 ^ 4 := g.data1.toNat_lt
  have h2 : g.data2.toNat < 256 ^ 2 := g.data2.toNat_lt
  have h3 : g.data3.toNat < 256 ^ 2 := g.data3.toNat_lt
  have hdata1 : slice (g.bytes ++ rest) 0 4 = toLE 4 g.data1.toNat := by
    simp only [EfiGuid.bytes, List.append_assoc]
    show slice ([] ++ toLE 4 g.data1.toNat ++ _) 0 4 = _
    exact slice_middle rfl (toLE_length 4 _).symm
  have hdata2 : slice (g.bytes ++ rest) 4 2 = toLE 2 g.data2.toNat := by
    simp only [EfiGuid.bytes, List.append_assoc]
    rw [← List.append_assoc]
    exact slice_middle (toLE_length 4 _).symm (toLE_length 2 _).symm
  have hdata3 : slice (g.bytes ++ rest) 6 2 = toLE 2 g.data3.toNat := by
    simp only [EfiGuid.bytes, List.append_assoc]
    rw [← List.append_assoc, ← List.append_assoc]
    exact slice_middle (by simp) (toLE_length 2 _).symm
  have hdata4 : slice (g.bytes ++ rest) 8 8 = g.data4 :=
    slice_middle (by simp) g.data4_length.symm
  have hguid : ∀ d1 d2 d3 d4 h4, d1 = g.data1 → d2 = g.data2 → d3 = g.data3 → d4 = g.data4 →
      (⟨d1, d2, d3, d4, h4⟩ : EfiGuid) = g := by
    rintro _ _ _ _ _ rfl rfl rfl rfl
    rfl
  apply hguid
  · rw [hdata1, ofLE_toLE_of_lt h1, UInt32.ofNat_toNat]
  · rw [hdata2, ofLE_toLE_of_lt h2, UInt16.ofNat_toNat]
  · rw [hdata3, ofLE_toLE_of_lt h3, UInt16.ofNat_toNat]
  · exact hdata4

theorem char16Units_append (units : List UInt16) (rest : Bytes) :
    char16Units units.length (char16Bytes units ++ rest) = units := by
  induction units with
  | nil => rfl
  | cons u units ih =>
      have hu : u.toNat < 256 ^ 2 := u.toNat_lt
      have hsplit : char16Bytes (u :: units) ++ rest
          = toLE 2 u.toNat ++ (char16Bytes units ++ rest) := by
        simp [char16Bytes]
      rw [hsplit]
      show UInt16.ofNat (ofLE ((toLE 2 u.toNat ++ _).take 2)) :: char16Units _ _ = _
      rw [List.take_left' (toLE_length 2 _), List.drop_left' (toLE_length 2 _),
        ofLE_toLE_of_lt hu, UInt16.ofNat_toNat, ih]

/-! ## The fields of a written variable -/

section Fields

variable (var : VariableType) (data : Bytes)

theorem uefiVariableData_length :
    (uefiVariableData var data).length = 32 + 2 * var.variableName.length + data.length := by
  simp only [uefiVariableData, List.length_append, EfiGuid.bytes_length, toLE_length,
    char16Bytes_length]

theorem uefiVariableData_nameLength :
    slice (uefiVariableData var data) 16 8 = toLE 8 var.variableName.length := by
  simp only [uefiVariableData, List.append_assoc]
  rw [← List.append_assoc]
  exact slice_middle (EfiGuid.bytes_length _).symm (toLE_length 8 _).symm

theorem uefiVariableData_dataLength :
    slice (uefiVariableData var data) 24 8 = toLE 8 data.length := by
  unfold uefiVariableData
  rw [List.append_assoc _ (char16Bytes _)]
  exact slice_middle (by simp) (toLE_length 8 _).symm

end Fields

/-- The address space holds the variable. -/
def VariableType.Fits (var : VariableType) (data : Bytes) : Prop :=
  32 + 2 * var.variableName.length + data.length < 2 ^ 64

section Fits

variable {var : VariableType} {data : Bytes}

theorem VariableType.Fits.nameLength (h : var.Fits data) :
    ofLE (slice (uefiVariableData var data) 16 8) = var.variableName.length := by
  unfold VariableType.Fits at h
  rw [uefiVariableData_nameLength, ofLE_toLE_of_lt (by omega)]

theorem VariableType.Fits.dataLength (h : var.Fits data) :
    ofLE (slice (uefiVariableData var data) 24 8) = data.length := by
  unfold VariableType.Fits at h
  rw [uefiVariableData_dataLength, ofLE_toLE_of_lt (by omega)]

theorem decodeUefiVariable_of_fits (h : var.Fits data) :
    decodeUefiVariable (uefiVariableData var data)
      = some ⟨var.vendorGuid, var.variableName, data⟩ := by
  have hlen := uefiVariableData_length var data
  have hdrop : (uefiVariableData var data).drop 32 = char16Bytes var.variableName ++ data := by
    unfold uefiVariableData
    rw [List.append_assoc]
    exact List.drop_left' (by simp)
  have hdata : slice (uefiVariableData var data) (32 + 2 * var.variableName.length) data.length
      = data := by
    unfold uefiVariableData
    rw [← List.append_nil (_ ++ data)]
    exact slice_middle (by simp; omega) rfl
  have hguid : ∀ hle, guidAt (uefiVariableData var data) hle = var.vendorGuid := by
    unfold uefiVariableData
    rw [List.append_assoc, List.append_assoc, List.append_assoc]
    exact guidAt_append var.vendorGuid _
  unfold decodeUefiVariable
  simp only [h.nameLength, h.dataLength]
  rw [dif_pos (by omega), hguid, hdrop, char16Units_append, hdata]

/-! ## The event with the variable in it -/

/-- A `TCG_EVENT2` in memory, and what follows it. -/
def event2 (body rest : Bytes) : Bytes := toLE 4 body.length ++ body ++ rest

theorem event2_size {body : Bytes} (hsize : body.length < 2 ^ 32) (rest : Bytes) :
    ofLE (slice (event2 body rest) 0 4) = body.length := by
  unfold event2
  rw [List.append_assoc]
  have hslice : slice ([] ++ toLE 4 body.length ++ (body ++ rest)) 0 4 = toLE 4 body.length :=
    slice_middle rfl (toLE_length 4 _).symm
  rw [List.nil_append] at hslice
  rw [hslice, ofLE_toLE_of_lt hsize]

theorem event2_body (body rest : Bytes) : (event2 body rest).drop 4 = body ++ rest := by
  unfold event2
  rw [List.append_assoc]
  exact List.drop_left' (toLE_length 4 _)

/-- Of the prefixes of a variable only the whole passes for a variable. -/
theorem parseEvent2body_prefix {type : Nat} {body : Bytes} (h : var.Fits data)
    (htype : isVariableEvent type = true) (hbody : body <+: uefiVariableData var data)
    (hsize : body.length < 2 ^ 32) (rest : Bytes) :
    parseEvent2body (event2 body rest) type = true ↔ body = uefiVariableData var data := by
  obtain ⟨missing, hmissing⟩ := hbody
  have hlen := uefiVariableData_length var data
  have hsum := congrArg List.length hmissing
  rw [List.length_append] at hsum
  have hfits : 32 + 2 * var.variableName.length + data.length < 2 ^ 64 := h
  have hwhole : body = uefiVariableData var data ↔ missing.length = 0 := by
    rw [← hmissing, List.length_eq_zero_iff]
    constructor
    · exact List.self_eq_append_right.mp
    · rintro rfl
      rw [List.append_nil]
  simp only [parseEvent2body, htype, if_true, event2_size hsize, event2_body]
  by_cases hheader : 32 ≤ body.length
  · have hread : ∀ off, off + 8 ≤ 32 →
        slice (body ++ rest) off 8 = slice (uefiVariableData var data) off 8 := by
      intro off hoff
      rw [← hmissing, slice_append_left rest (by omega), slice_append_left missing (by omega)]
    rw [hread 16 (by decide), hread 24 (by decide), h.nameLength, h.dataLength, hwhole]
    have hmod : (32 + var.variableName.length * 2 + data.length) % 2 ^ 64
        = 32 + var.variableName.length * 2 + data.length := Nat.mod_eq_of_lt (by omega)
    rw [hmod, Bool.and_eq_true, decide_eq_true_eq, decide_eq_true_eq]
    omega
  · have hfalse : decide (32 ≤ body.length) = false := decide_eq_false hheader
    rw [hfalse, Bool.false_and, hwhole]
    simp only [Bool.false_eq_true, false_iff]
    omega

end Fits

/-! ## The three sources of the data -/

/-- `char16_strlen` of a string in memory. -/
def char16Strlen (str : List UInt16) : Nat := (str.takeWhile (· ≠ 0)).length

theorem char16Strlen_terminated {name : List UInt16} (h : 0 ∉ name) :
    char16Strlen (name ++ [0]) = name.length := by
  induction name with
  | nil => rfl
  | cons u name ih =>
      have hu : u ≠ 0 := fun hu => h (hu ▸ List.mem_cons_self)
      have hrest := ih fun hmem => h (List.mem_cons_of_mem u hmem)
      unfold char16Strlen at hrest ⊢
      rw [List.cons_append, List.takeWhile_cons_of_pos (by simpa using hu), List.length_cons,
        hrest, List.length_cons]

/-- Where the data of a variable comes from: behind the four attribute bytes of a file
that is read, a buffer, or nowhere. -/
inductive VariableType.Carries (var : VariableType) : Bytes → Prop where
  | file (f : File) (attributes data : Bytes) (hpath : var.path = some f) (hread : f.Readable)
      (hcontent : f.content = attributes ++ data) (hlen : attributes.length = 4) : Carries var data
  | buffer (data : Bytes) (hpath : var.path = none) (hdata : var.data = some data) :
      Carries var data
  | absent (hpath : var.path = none) (hdata : var.data = none) : Carries var []

theorem createUefiVariable_of_carries {var : VariableType} {data : Bytes} (h : var.Carries data)
    (halloc : var.allocates = true) :
    createUefiVariable var = .ok (some (uefiVariableData var data)) := by
  have hpass : var.Passes ∧ var.content = data := by
    cases h with
    | file f attributes data hpath hread hcontent hlen =>
        refine ⟨⟨?_, halloc⟩, ?_⟩
        · intro g hg
          rw [hpath] at hg
          cases hg
          refine ⟨hread, ?_⟩
          rw [hcontent, List.length_append]
          omega
        · simp only [VariableType.content, hpath, hcontent]
          exact List.drop_left' hlen
    | buffer data hpath hdata =>
        refine ⟨⟨by simp [hpath], halloc⟩, ?_⟩
        simp [VariableType.content, hpath, hdata]
    | absent hpath hdata =>
        refine ⟨⟨by simp [hpath], halloc⟩, ?_⟩
        simp [VariableType.content, hpath, hdata]
  rw [createUefiVariable_of_passes hpass.1, hpass.2]

/-- What `parse-srtm-pcrs` makes of the bytes measured for a variable. -/
structure EncodesVariable (var : VariableType) (data body : Bytes) : Prop where
  length : body.length = 32 + 2 * var.variableName.length + data.length
  nameLength : ofLE (slice body 16 8) = char16Strlen (var.variableName ++ [0])
  decodes : decodeUefiVariable body = some ⟨var.vendorGuid, var.variableName, data⟩
  accepted : ∀ type, isVariableEvent type = true → ∀ part rest, part <+: body →
    part.length < 2 ^ 32 → (parseEvent2body (event2 part rest) type = true ↔ part = body)

theorem encodesVariable_of_fits {var : VariableType} {data : Bytes} (h : var.Fits data)
    (hnul : 0 ∉ var.variableName) : EncodesVariable var data (uefiVariableData var data) where
  length := uefiVariableData_length var data
  nameLength := by rw [h.nameLength, char16Strlen_terminated hnul]
  decodes := decodeUefiVariable_of_fits h
  accepted _ htype _ rest hpart hsize := parseEvent2body_prefix h htype hpart hsize rest

/-- The bytes measured for a variable are its encoding, and no variable with another GUID,
name or data has them too. -/
theorem createUefiVariable_encodes {var : VariableType} {data : Bytes} (h : var.Carries data)
    (halloc : var.allocates = true) (hnul : 0 ∉ var.variableName) (hfits : var.Fits data) :
    ∃ body, createUefiVariable var = .ok (some body) ∧
      (∀ (n : Nat) (md : Md n) (mrIndex : Nat) (s : Measurement n),
        measureVariable md mrIndex var s = .next 0
          (s.measured md mrIndex var.eventType body (nameNarrow var.variableName))) ∧
      EncodesVariable var data body ∧
      ∀ (other : VariableType) (otherData : Bytes), other.Carries otherData →
        other.Fits otherData → createUefiVariable other = .ok (some body) →
          (other.vendorGuid, other.variableName, otherData)
            = (var.vendorGuid, var.variableName, data) := by
  have hbody := createUefiVariable_of_carries h halloc
  refine ⟨uefiVariableData var data, hbody, ?_, encodesVariable_of_fits hfits hnul, ?_⟩
  · intro n md mrIndex s
    rw [measureVariable_eq, hbody]
  · intro other otherData hother hotherFits hsame
    have hotherAlloc : other.allocates = true := by
      by_contra hnot
      rw [Bool.not_eq_true] at hnot
      rw [createUefiVariable_of_fails (.allocation hnot)] at hsame
      cases hsame
    rw [createUefiVariable_of_carries hother hotherAlloc] at hsame
    have hdecoded := decodeUefiVariable_of_fits hotherFits
    rw [Option.some.inj (Except.ok.inj hsame), decodeUefiVariable_of_fits hfits] at hdecoded
    injection hdecoded with hvariable
    injection hvariable with hguid hname hdata
    rw [hguid, hname, hdata]

/-- `SecureBoot` with its file: the attributes and one byte. -/
def secureBootEnabled : VariableType :=
  driverConfigVariable "SecureBoot" efiGlobalVariable
    ⟨some (.intact (ascii "SecureBoot") [7, 0, 0, 0, 1] (by decide)), true⟩

theorem createUefiVariable_encodes_secureBoot :
    ∃ body, createUefiVariable secureBootEnabled = .ok (some body) ∧ body.length = 53 := by
  have hcarries : secureBootEnabled.Carries [1] :=
    .file _ [7, 0, 0, 0] [1] rfl (File.intact_readable ..) rfl rfl
  obtain ⟨body, hbody, -, hencodes, -⟩ :=
    createUefiVariable_encodes hcarries rfl (by decide) (by unfold VariableType.Fits; decide)
  exact ⟨body, hbody, hencodes.length⟩

end MeasuredBoot
