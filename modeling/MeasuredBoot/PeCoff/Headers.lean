import MeasuredBoot.Common.File

/-! # Headers of PE/COFF and TE images

The structures of `PeImage.h` as they lie in memory, `Tcg2DxeImageRead`, and
`PeCoffLoaderGetPeHeader` of `MeasureBootPeCoff.c`. A function of the loader is left
with an error status, or it never returns.
-/

namespace MeasuredBoot.PeCoff

open Binary Imperative

/-! ## Statuses -/

/-- How a function of the loader is left before its end. -/
inductive Leave where
  | status (code : UInt64)
  | stop (why : Stop)
  deriving DecidableEq, Repr

abbrev Loader (α : Type) := Except Leave α

def efiSuccess : UInt64 := 0
def efiInvalidParameter : UInt64 := 0x8000000000000002
def efiUnsupported : UInt64 := 0x8000000000000003
def efiOutOfResources : UInt64 := 0x8000000000000009

/-- The `-1` that `PeCoffLoaderGetImageInfo` returns for a short read. -/
def minusOne : UInt64 := 0xffffffffffffffff

/-- `EFI_ERROR`: the status is negative as a signed number. -/
def efiError (status : UInt64) : Prop := 0x8000000000000000 ≤ status

instance (status : UInt64) : Decidable (efiError status) :=
  inferInstanceAs (Decidable (_ ≤ _))

/-- `return RETURN_UNSUPPORTED` under an `if`. -/
def refuseIf (c : Prop) [Decidable c] : Loader Unit :=
  if c then .error (.status efiUnsupported) else .ok ()

@[simp] theorem refuseIf_eq_ok {c : Prop} [Decidable c] {u : Unit} :
    refuseIf c = .ok u ↔ ¬c := by
  unfold refuseIf
  split <;> simp_all

/-! ## Fields -/

/-- The little-endian number of `width` bytes at `off`. -/
def field (raw : Bytes) (off width : Nat) : Nat := ofLE (slice raw off width)

theorem field_lt (raw : Bytes) (off width : Nat) : field raw off width < 256 ^ width := by
  refine (ofLE_lt _).trans_le (Nat.pow_le_pow_right (by omega) ?_)
  simp [slice]

/-- A field of a part of the image is a field of the image. -/
theorem field_slice (image : Bytes) (base size : Nat) {off width : Nat}
    (h : off + width ≤ size) :
    field (slice image base size) off width = field image (base + off) width := by
  unfold field
  rw [slice_slice _ _ _ _ _ h]

def sizeofDosHeader : Nat := 64
def sizeofHeaderUnion : Nat := 264
def sizeofTeHeader : Nat := 40
def sizeofSectionHeader : Nat := 40
def sizeofDebugEntry : Nat := 28

def dosSignature : Nat := 0x5a4d
def teSignature : Nat := 0x5a56
def ntSignature : Nat := 0x00004550

structure DataDirectory where
  virtualAddress : Nat
  size : Nat
  deriving DecidableEq, Repr

/-- `EFI_IMAGE_DATA_DIRECTORY` at `off`. -/
def dataDirectoryAt (raw : Bytes) (off : Nat) : DataDirectory :=
  ⟨field raw off 4, field raw (off + 4) 4⟩

/-- The fields of `EFI_IMAGE_SECTION_HEADER` that are read. -/
structure SectionHeader where
  virtualSize : Nat
  virtualAddress : Nat
  sizeOfRawData : Nat
  pointerToRawData : Nat
  deriving DecidableEq, Repr

def sectionHeader (raw : Bytes) : SectionHeader where
  virtualSize := field raw 8 4
  virtualAddress := field raw 12 4
  sizeOfRawData := field raw 16 4
  pointerToRawData := field raw 20 4

/-- Where the header stands behind the DOS header. -/
def peCoffHeaderOffset (dosHdr : Bytes) : Nat :=
  if field dosHdr 0 2 = dosSignature then field dosHdr 60 4 else 0

/-! ### `EFI_IMAGE_NT_HEADERS32` and `EFI_IMAGE_NT_HEADERS64`

`hdr` starts at the signature. The two formats share their fields up to the sizes of
the stack and the heap. -/

namespace Nt

variable (hdr : Bytes)

def signature : Nat := field hdr 0 4
def machine : Nat := field hdr 4 2
def numberOfSections : Nat := field hdr 6 2
def sizeOfOptionalHeader : Nat := field hdr 20 2
def characteristics : Nat := field hdr 22 2
def magic : Nat := field hdr 24 2
def sectionAlignment : Nat := field hdr 56 4
def sizeOfImage : Nat := field hdr 80 4
def sizeOfHeaders : Nat := field hdr 84 4
def subsystem : Nat := field hdr 92 2

def hdr32Magic : Nat := 0x10b
def hdr64Magic : Nat := 0x20b

/-- Where `CheckSum` stands in both formats. -/
def checkSumOffset : Nat := 88

def imageBase : Nat := if magic hdr = hdr32Magic then field hdr 52 4 else field hdr 48 8

def headerWithoutDataDir : Nat := if magic hdr = hdr32Magic then 96 else 112

def numberOfRvaAndSizes : Nat := field hdr (20 + headerWithoutDataDir hdr) 4

def dataDirectoryOffset (index : Nat) : Nat := 24 + headerWithoutDataDir hdr + 8 * index

def dataDirectory (index : Nat) : DataDirectory :=
  dataDirectoryAt hdr (dataDirectoryOffset hdr index)

end Nt

def directoryEntrySecurity : Nat := 4
def directoryEntryDebug : Nat := 6
def numberOfDirectoryEntries : Nat := 16

/-! ### `EFI_TE_IMAGE_HEADER` -/

namespace Te

variable (hdr : Bytes)

def signature : Nat := field hdr 0 2
def machine : Nat := field hdr 2 2
def numberOfSections : Nat := field hdr 4 1
def subsystem : Nat := field hdr 5 1
def strippedSize : Nat := field hdr 6 2
def baseOfCode : Nat := field hdr 12 4
def imageBase : Nat := field hdr 16 8
def dataDirectory (index : Nat) : DataDirectory := dataDirectoryAt hdr (24 + 8 * index)

/-- `StrippedSize` without the header that stands in its place, as a `UINT32`. -/
def strippedOffset : Nat := (strippedSize hdr + 2 ^ 32 - sizeofTeHeader) % 2 ^ 32

end Te

/-! ## Reading the image -/

def maxAddress : Nat := 0xffffffffffffffff
def maxUint32 : Nat := 0xffffffff

/-- `memcpy` out of the image. -/
def imageCopy (image : Bytes) (off count : Nat) : Loader Bytes :=
  match copyFrom image off count with
  | .ok bytes => .ok bytes
  | .error why => .error (.stop why)

/-- `Tcg2DxeImageRead`: the bytes that are read, which are fewer at the end of the
image. -/
def tcg2DxeImageRead (image : Bytes) (fileOffset readSize : Nat) : Loader Bytes :=
  if maxAddress - fileOffset < readSize then .error (.status efiInvalidParameter)
  else if image.length ≤ fileOffset then .ok []
  else
    let endPosition := fileOffset + readSize
    imageCopy image fileOffset
      (if image.length < endPosition then (image.length - fileOffset) % 2 ^ 32 else readSize)

/-- A read through `ImageRead` that must be complete, and the status of one that is not. -/
def imageRead (image : Bytes) (short : UInt64) (off size : Nat) : Loader Bytes := do
  let raw ← tcg2DxeImageRead image off size
  if raw.length ≠ size then .error (.status short)
  else return raw

/-- What is copied is in the image, and what is not is left out. -/
theorem tcg2DxeImageRead_eq (image : Bytes) {fileOffset readSize : Nat}
    (haddress : fileOffset + readSize ≤ maxAddress) (hsize : readSize ≤ 2 ^ 32) :
    tcg2DxeImageRead image fileOffset readSize = .ok (slice image fileOffset readSize) := by
  unfold tcg2DxeImageRead
  rw [if_neg (by omega)]
  split
  · rw [slice, List.drop_of_length_le ‹_›, List.take_nil]
  · dsimp only
    split
    · next hbehind hend =>
      have hmod : (image.length - fileOffset) % 2 ^ 32 = image.length - fileOffset :=
        Nat.mod_eq_of_lt (by omega)
      rw [imageCopy, hmod, copyFrom_ok (by omega)]
      simp only [slice, ← List.length_drop, List.take_length]
      rw [List.take_of_length_le]
      simp only [List.length_drop]
      omega
    · rw [imageCopy, copyFrom_ok (by omega)]

/-- A complete read, as the bytes it delivers. -/
theorem imageRead_eq (image : Bytes) (short : UInt64) {off size : Nat}
    (haddress : off + size ≤ maxAddress) (hsize : size ≤ 2 ^ 32) (hpos : 0 < size) :
    imageRead image short off size =
      if off + size ≤ image.length then .ok (slice image off size)
      else .error (.status short) := by
  unfold imageRead
  rw [tcg2DxeImageRead_eq image haddress hsize]
  change (if (slice image off size).length ≠ size then _ else _) = _
  by_cases hin : off + size ≤ image.length
  · rw [if_pos hin, if_neg (not_not.mpr (slice_length hin))]
    rfl
  · rw [if_neg hin, if_pos]
    simp only [slice, List.length_take, List.length_drop]
    omega

theorem imageRead_eq_ok {image raw : Bytes} {short : UInt64} {off size : Nat}
    (haddress : off + size ≤ maxAddress) (hsize : size ≤ 2 ^ 32) (hpos : 0 < size) :
    imageRead image short off size = .ok raw ↔
      off + size ≤ image.length ∧ raw = slice image off size := by
  rw [imageRead_eq image short haddress hsize hpos]
  split
  · simp_all [eq_comm]
  · simp_all

/-! ## The header -/

/-- The fields of `PE_COFF_LOADER_IMAGE_CONTEXT` that are set. -/
structure ImageContext where
  peCoffHeaderOffset : Nat
  isTeImage : Bool
  machine : Nat
  imageType : Nat
  imageSize : Nat
  sectionAlignment : Nat
  sizeOfHeaders : Nat
  imageAddress : Nat := 0
  relocationsStripped : Bool := false
  debugDirectoryEntryRva : Nat := 0
  deriving DecidableEq, Repr

/-- `PeCoffLoaderAdjustOffsetForTeImage` -/
def adjustOffsetForTeImage (s : SectionHeader) (teStrippedOffset : Nat) : SectionHeader :=
  { s with
    virtualAddress := (s.virtualAddress + 2 ^ 32 - teStrippedOffset) % 2 ^ 32
    pointerToRawData := (s.pointerToRawData + 2 ^ 32 - teStrippedOffset) % 2 ^ 32 }

def imageFormatSupported (machine : Nat) : Prop :=
  machine = 0x014c ∨ machine = 0x8664 ∨ machine = 0x0ebc ∨ machine = 0xaa64

instance (machine : Nat) : Decidable (imageFormatSupported machine) :=
  inferInstanceAs (Decidable (_ ∨ _))

/-- A directory with a size needs an address. -/
def DataDirectory.Unplaced (d : DataDirectory) : Prop := d.size ≠ 0 ∧ d.virtualAddress = 0

instance (d : DataDirectory) : Decidable d.Unplaced := inferInstanceAs (Decidable (_ ∧ _))

/-- The branch of `PeCoffLoaderGetPeHeader` for a TE image. `SizeOfHeaders` is a
64-bit difference, computed before it is known to have a value. -/
def getTeHeader (image hdr : Bytes) (offset : Nat) : Loader ImageContext := do
  let sizeOfHeaders :=
    (sizeofTeHeader + Te.baseOfCode hdr + 2 ^ 64 - Te.strippedSize hdr) % 2 ^ 64
  refuseIf (sizeofTeHeader ≥ Te.strippedSize hdr)
  refuseIf (Te.baseOfCode hdr ≤ Te.strippedSize hdr)
  let _ ← imageRead image efiUnsupported (sizeOfHeaders - 1) 1
  refuseIf ((Te.dataDirectory hdr 0).Unplaced ∨ (Te.dataDirectory hdr 1).Unplaced)
  return {
    peCoffHeaderOffset := offset
    isTeImage := true
    machine := Te.machine hdr
    imageType := Te.subsystem hdr
    imageSize := 0
    sectionAlignment := 0
    sizeOfHeaders := sizeOfHeaders }

/-- `SectionHeaderOffset` of a PE image, a `UINT32`. -/
def sectionHeaderOffset (offset : Nat) (hdr : Bytes) : Nat :=
  (offset + 24 + Nt.sizeOfOptionalHeader hdr) % 2 ^ 32

/-- The check of the `EFI_IMAGE_DIRECTORY_ENTRY_SECURITY` data. -/
def checkSecurityDirectory (image hdr : Bytes) : Loader Unit :=
  let security := Nt.dataDirectory hdr directoryEntrySecurity
  if directoryEntrySecurity < Nt.numberOfRvaAndSizes hdr ∧ security.size ≠ 0 then do
    refuseIf (maxUint32 - security.virtualAddress < security.size)
    let _ ← imageRead image efiUnsupported (security.virtualAddress + security.size - 1) 1
    return ()
  else return ()

/-- The branch of `PeCoffLoaderGetPeHeader` for a PE image: the two formats are checked
alike. -/
def getNtHeader (image hdr : Bytes) (offset : Nat) : Loader ImageContext := do
  refuseIf (Nt.magic hdr ≠ Nt.hdr32Magic ∧ Nt.magic hdr ≠ Nt.hdr64Magic)
  refuseIf (numberOfDirectoryEntries < Nt.numberOfRvaAndSizes hdr)
  refuseIf ((Nt.sizeOfOptionalHeader hdr + 2 ^ 32 - Nt.headerWithoutDataDir hdr) % 2 ^ 32 ≠
    Nt.numberOfRvaAndSizes hdr * 8)
  let sectionHeaderOffset := sectionHeaderOffset offset hdr
  refuseIf (Nt.sizeOfImage hdr ≤ sectionHeaderOffset)
  refuseIf ((Nt.sizeOfImage hdr - sectionHeaderOffset) / sizeofSectionHeader ≤
    Nt.numberOfSections hdr)
  refuseIf (Nt.sizeOfHeaders hdr ≤ sectionHeaderOffset)
  refuseIf (Nt.sizeOfHeaders hdr ≥ Nt.sizeOfImage hdr)
  refuseIf ((Nt.sizeOfHeaders hdr - sectionHeaderOffset) / sizeofSectionHeader <
    Nt.numberOfSections hdr)
  let _ ← imageRead image efiUnsupported (Nt.sizeOfHeaders hdr - 1) 1
  checkSecurityDirectory image hdr
  return {
    peCoffHeaderOffset := offset
    isTeImage := false
    machine := Nt.machine hdr
    imageType := Nt.subsystem hdr
    imageSize := Nt.sizeOfImage hdr
    sectionAlignment := Nt.sectionAlignment hdr
    sizeOfHeaders := Nt.sizeOfHeaders hdr }

/-- The data of a section: behind the headers, and its last byte in the image. -/
def checkSectionData (image : Bytes) (sizeOfHeaders : Nat) (s : SectionHeader) : Loader Unit :=
  if 0 < s.sizeOfRawData then do
    refuseIf (s.virtualAddress < sizeOfHeaders ∨ s.pointerToRawData < sizeOfHeaders)
    refuseIf (maxUint32 - s.pointerToRawData < s.sizeOfRawData)
    let _ ← imageRead image efiUnsupported (s.pointerToRawData + s.sizeOfRawData - 1) 1
    return ()
  else return ()

/-- The loop over the section headers. A TE image moves each header by the offset. -/
def checkSections (image : Bytes) (teStrippedOffset : Option Nat) (sizeOfHeaders : Nat) :
    Nat → Nat → Loader Unit
  | 0, _ => return ()
  | count + 1, off => do
      let raw ← imageRead image efiUnsupported off sizeofSectionHeader
      let s := match teStrippedOffset with
        | some stripped => adjustOffsetForTeImage (sectionHeader raw) stripped
        | none => sectionHeader raw
      checkSectionData image sizeOfHeaders s
      checkSections image teStrippedOffset sizeOfHeaders count
        ((off + sizeofSectionHeader) % 2 ^ 32)

/-- `PeCoffLoaderGetPeHeader`: the context and the header that is read. -/
def getPeHeader (image : Bytes) : Loader (ImageContext × Bytes) := do
  let dosHdr ← imageRead image efiUnsupported 0 sizeofDosHeader
  let offset := peCoffHeaderOffset dosHdr
  let hdr ← imageRead image efiUnsupported offset sizeofHeaderUnion
  if Te.signature hdr = teSignature then do
    let ctx ← getTeHeader image hdr offset
    refuseIf (¬imageFormatSupported ctx.machine)
    checkSections image (some (Te.strippedOffset hdr)) ctx.sizeOfHeaders
      (Te.numberOfSections hdr) sizeofTeHeader
    return (ctx, hdr)
  else if Nt.signature hdr = ntSignature then do
    let ctx ← getNtHeader image hdr offset
    refuseIf (¬imageFormatSupported ctx.machine)
    checkSections image none ctx.sizeOfHeaders (Nt.numberOfSections hdr)
      (sectionHeaderOffset offset hdr)
    return (ctx, hdr)
  else .error (.status efiUnsupported)

end MeasuredBoot.PeCoff
