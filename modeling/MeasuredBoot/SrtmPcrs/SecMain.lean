import MeasuredBoot.Common.File
import MeasuredBoot.Common.Guid

/-! # Unpacking a firmware volume

`SecMain.c`: the search for the first LZMA section of a firmware volume and its
decompression. Positions are relative to the volume, which `malloc` aligns. The
decoder is a parameter.
-/

namespace MeasuredBoot.SrtmPcrs

open Binary Imperative

/-- The little-endian number of `width` bytes at `off` of an object. -/
def readLE (object : Bytes) (off width : Nat) : Except Stop Nat := do
  let raw ← copyFrom object off width
  return ofLE raw

/-- The next multiple of `unit` from `address` on. -/
def alignUp (address unit : Nat) : Nat := (address + (unit - 1)) / unit * unit

theorem le_alignUp {address unit : Nat} (h : 0 < unit) : address ≤ alignUp address unit := by
  have hdiv := Nat.div_add_mod (address + (unit - 1)) unit
  have hmod := Nat.mod_lt (address + (unit - 1)) h
  rw [Nat.mul_comm] at hdiv
  unfold alignUp
  omega

def sizeofSectionHeader : Nat := 4
def sizeofFileHeader : Nat := 24

/-- What `FindFfsSectionInstance` returns. -/
inductive SectionSearch where
  | found (section' : Nat)
  | notFound
  | corrupted

/-- The loop over the sections of a file, from the end of the last one on. -/
def findFfsSectionInstance (volume : Bytes) (sectionType endOfSections : Nat) :
    Nat → Nat → Except Stop SectionSearch
  | 0, _ => .error .diverge
  | fuel + 1, endOfSection =>
      let current := alignUp endOfSection 4
      if endOfSection = endOfSections then return .notFound
      else if current ≥ endOfSections then return .corrupted
      else do
        let size ← readLE volume current 3
        if size < sizeofSectionHeader then return .corrupted
        else if current + size > endOfSections then return .corrupted
        else do
          let type ← readLE volume (current + 3) 1
          if type = sectionType then return .found current
          else findFfsSectionInstance volume sectionType endOfSections fuel (current + size)

def findFfsSectionInSections (volume : Bytes) (sections endOfSections sectionType : Nat) :
    Except Stop SectionSearch :=
  findFfsSectionInstance volume sectionType endOfSections (volume.length + 1) sections

/-- The loop over the files of a volume, from the end of the last one on. -/
def findFfsFile (volume : Bytes) (fileType sectionType endOfVolume : Nat) :
    Nat → Nat → Except Stop (Option Nat)
  | 0, _ => .error .diverge
  | fuel + 1, endOfFile =>
      let current := alignUp endOfFile 8
      if current > endOfVolume then return none
      else do
        let size ← readLE volume (current + 20) 3
        if size < sizeofFileHeader + sizeofSectionHeader then return none
        else if current + size > endOfVolume then return none
        else do
          let type ← readLE volume (current + 18) 1
          if type ≠ fileType then
            findFfsFile volume fileType sectionType endOfVolume fuel (current + size)
          else do
            match ← findFfsSectionInSections volume (current + sizeofFileHeader)
              (current + size) sectionType with
            | .found section' => return some section'
            | .corrupted => return none
            | .notFound =>
                findFfsFile volume fileType sectionType endOfVolume fuel (current + size)

def efiFvhSignature : Nat := 0x4856465f

/-- `FindFfsFileAndSection`: where the section starts, or none where it returns `-1`. -/
def findFfsFileAndSection (volume : Bytes) (fileType sectionType : Nat) :
    Except Stop (Option Nat) := do
  let signature ← readLE volume 40 4
  if signature ≠ efiFvhSignature then return none
  else do
    let fvLength ← readLE volume 32 8
    let headerLength ← readLE volume 48 2
    findFfsFile volume fileType sectionType fvLength (volume.length + 1) headerLength

/-! ### The loops end -/

/-- What the decoder is called with: the bytes of the source as far as the volume has them,
the size it is told the source has, and the size the source announces. -/
structure LzmaInput where
  source : Bytes
  sourceSize : UInt32
  decodedSize : Nat
  deriving DecidableEq

/-- The LZMA decoder: the bytes of the announced size, or none where it returns an error.
`leftover` is what it leaves in the fresh buffer then, and `allocated` tells whether
there are a buffer and a scratch buffer. -/
structure LzmaDecoder where
  decompress : (input : LzmaInput) → Option { out : Bytes // out.length = input.decodedSize }
  leftover : (input : LzmaInput) → { out : Bytes // out.length = input.decodedSize }
  allocated : Bool

/-- The buffer after `LzmaUefiDecompress`. -/
def LzmaDecoder.buffer (lzma : LzmaDecoder) (input : LzmaInput) :
    { out : Bytes // out.length = input.decodedSize } :=
  (lzma.decompress input).getD (lzma.leftover input)

def efiFvFiletypeFirmwareVolumeImage : Nat := 0x0b
def efiSectionGuidDefined : Nat := 0x02
def lzmaHeaderSize : UInt32 := 13
def maxUint32 : Nat := 0xffffffff

def lzmaDecompressGuid : EfiGuid where
  data1 := 0xee4e5898
  data2 := 0x3914
  data3 := 0x4259
  data4 := [0x9d, 0x6e, 0xdc, 0x7b, 0xd7, 0x94, 0x03, 0xcf]

/-- `extract_lzma_fvmain_new` up to the call of the decoder: what it is called with, or none
where `NULL` is returned. The size of the source is a `UINT32` difference that is only
passed on; a short source fails an assertion. -/
def lzmaSource (volume : Bytes) : Except Stop (Option LzmaInput) := do
  match ← findFfsFileAndSection volume efiFvFiletypeFirmwareVolumeImage efiSectionGuidDefined with
  | none => return none
  | some section' =>
      let size ← readLE volume section' 3
      let dataOffset ← readLE volume (section' + 20) 2
      let guid ← copyFrom volume (section' + 4) 16
      if guid ≠ lzmaDecompressGuid.bytes then return none
      else do
        let sourceSize := UInt32.ofNat size - UInt32.ofNat dataOffset
        if sourceSize < lzmaHeaderSize then .error .fault
        else do
          let decodedSize ← readLE volume (section' + dataOffset + 5) 8
          if decodedSize > maxUint32 then return none
          else
            return some ⟨slice volume (section' + dataOffset) sourceSize.toNat, sourceSize,
              decodedSize⟩

/-- `extract_lzma_fvmain_new`: the status of the decoder is only printed. -/
def extractLzmaFvmainNew (lzma : LzmaDecoder) (volume : Bytes) : Except Stop (Option Bytes) := do
  match ← lzmaSource volume with
  | none => return none
  | some input =>
      if lzma.allocated = false then .error .fault
      else return some (lzma.buffer input).val

/-- The decoder succeeded on what it was given of a volume, and left `fvmain`. -/
def Decompressed (lzma : LzmaDecoder) (volume fvmain : Bytes) : Prop :=
  ∃ input out, lzmaSource volume = .ok (some input) ∧ lzma.decompress input = some out ∧
    fvmain = out.val

/-- The announced size fits a `UINT32`. -/
theorem lzmaSource_size {volume : Bytes} {input : LzmaInput}
    (h : lzmaSource volume = .ok (some input)) : input.decodedSize ≤ maxUint32 := by
  unfold lzmaSource at h
  obtain ⟨found, -, h⟩ := bind_eq_ok.mp h
  cases found with
  | none => cases h
  | some section' =>
      obtain ⟨sectionSize, -, h⟩ := bind_eq_ok.mp h
      obtain ⟨dataOffset, -, h⟩ := bind_eq_ok.mp h
      obtain ⟨guid, -, h⟩ := bind_eq_ok.mp h
      split at h
      · cases h
      dsimp only at h
      split at h
      · cases h
      obtain ⟨decodedSize, -, h⟩ := bind_eq_ok.mp h
      split at h
      · cases h
      · next hle =>
        cases h
        exact Nat.le_of_not_lt hle

/-- A buffer that is handed on comes from a source that was found. -/
theorem extractLzmaFvmainNew_some {lzma : LzmaDecoder} {volume fvmain : Bytes}
    (h : extractLzmaFvmainNew lzma volume = .ok (some fvmain)) :
    ∃ input, lzmaSource volume = .ok (some input) ∧ fvmain = (lzma.buffer input).val := by
  unfold extractLzmaFvmainNew at h
  obtain ⟨found, hsource, h⟩ := bind_eq_ok.mp h
  cases found with
  | none => cases h
  | some input =>
      dsimp only at h
      split at h
      · cases h
      · cases h
        exact ⟨input, hsource, rfl⟩

theorem extractLzmaFvmainNew_length {lzma : LzmaDecoder} {volume fvmain : Bytes}
    (h : extractLzmaFvmainNew lzma volume = .ok (some fvmain)) : fvmain.length ≤ maxUint32 := by
  obtain ⟨input, hsource, rfl⟩ := extractLzmaFvmainNew_some h
  rw [(lzma.buffer input).property]
  exact lzmaSource_size hsource

/-- What is handed on of a volume that was decompressed is its contents. -/
theorem Decompressed.eq_of_extract {lzma : LzmaDecoder} {volume fvmain fvmain' : Bytes}
    (h : Decompressed lzma volume fvmain')
    (hextract : extractLzmaFvmainNew lzma volume = .ok (some fvmain)) : fvmain' = fvmain := by
  obtain ⟨input, hsource, rfl⟩ := extractLzmaFvmainNew_some hextract
  obtain ⟨input', out, hsource', hout, rfl⟩ := h
  rw [hsource] at hsource'
  cases hsource'
  rw [LzmaDecoder.buffer, hout]
  rfl

end MeasuredBoot.SrtmPcrs
