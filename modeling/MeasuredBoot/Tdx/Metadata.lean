import MeasuredBoot.Common.File
import MeasuredBoot.Common.Guid

/-! # TDX metadata of a firmware image

The parsing half of `mrtd.c`: where the metadata starts, its descriptor and its
section records. Offsets are `uint64_t`; a read that leaves the object it reads
from is a fault.
-/

namespace MeasuredBoot.Tdx

open Binary Imperative

/-! ## Little-endian reads -/

def readU16Le (image : Bytes) (off : UInt64) : Except Stop UInt16 := do
  let raw ← copyFrom image off.toNat 2
  return UInt16.ofNat (ofLE raw)

def readU32Le (image : Bytes) (off : UInt64) : Except Stop UInt32 := do
  let raw ← copyFrom image off.toNat 4
  return UInt32.ofNat (ofLE raw)

/-! ## Locating the metadata -/

def ovmfTableFooterGuid : EfiGuid where
  data1 := 0x96b582de
  data2 := 0x1fb2
  data3 := 0x45f7
  data4 := [0xba, 0xea, 0xa3, 0x66, 0xc5, 0x5a, 0x08, 0x2d]

def ovmfTableTdxMetadataGuid : EfiGuid where
  data1 := 0xe47a6535
  data2 := 0x984a
  data3 := 0x4798
  data4 := [0x86, 0x5e, 0x46, 0x85, 0xa7, 0xbf, 0x8e, 0xc2]

def ovmfTableFooterGuidOffset : UInt64 := 0x30
def tdvfDescriptorOffset : UInt64 := 0x20
def sizeofGuid : UInt64 := 16

/-- One entry of the GUIDed table, read backwards from its end. -/
inductive TableEntry where
  | tdxMetadata (offset : UInt64)
  | other (len : UInt16)

def tableEntry (rawImage : Buffer) (tableOffset : UInt64) : Except Stop TableEntry := do
  let guidBuf ← copyFrom rawImage.bytes (tableOffset - sizeofGuid).toNat 16
  let len ← readU16Le rawImage.bytes (tableOffset - sizeofGuid - 2)
  if ovmfTableTdxMetadataGuid.bytes = guidBuf then
    let distance ← readU32Le rawImage.bytes (tableOffset - sizeofGuid - 2 - 4)
    return .tdxMetadata (rawImage.size - distance.toUInt64 - sizeofGuid)
  else
    return .other len

/-- The `while (count < table_len)` loop. A table without the entry leaves the
offset at 0. -/
def tableWalk (rawImage : Buffer) (tableLen : UInt16) :
    Nat → UInt64 → UInt16 → Except Stop UInt64
  | 0, _, _ => .error .diverge
  | fuel + 1, tableOffset, count =>
      if count < tableLen then do
        match ← tableEntry rawImage tableOffset with
        | .tdxMetadata offset => return offset
        | .other len => tableWalk rawImage tableLen fuel (tableOffset - len.toUInt64) (count + len)
      else
        return 0

/-- The metadata offset, or none where the function returns `-1`. -/
def getOvmfMetadataOffset (rawImage : Buffer) : Except Stop (Option UInt64) := do
  let tableFooterOffset := rawImage.size - ovmfTableFooterGuidOffset
  if tableFooterOffset + sizeofGuid > rawImage.size then
    return none
  let footerGuidBuf ← copyFrom rawImage.bytes tableFooterOffset.toNat 16
  if ovmfTableFooterGuid.bytes = footerGuidBuf then
    let ovmfTableOffset := rawImage.size - ovmfTableFooterGuidOffset - 2
    let total ← readU16Le rawImage.bytes ovmfTableOffset
    let tableLen := total - 16 - 2
    let offset ← tableWalk rawImage tableLen (rawImage.bytes.length + 1) ovmfTableOffset 0
    return some offset
  else
    let offset ← readU32Le rawImage.bytes (rawImage.size - tdvfDescriptorOffset - sizeofGuid)
    return some offset.toUInt64

/-! ## The rounds of the table walk -/

theorem copyFrom_eq_ok {object data : Bytes} {off count : Nat} :
    copyFrom object off count = .ok data ↔
      off + count ≤ object.length ∧ data = slice object off count := by
  unfold copyFrom
  split
  · simp_all [eq_comm]
  · simp_all

/-- An entry that is read lies in the image, so its end is at least 18. -/
theorem tableEntry_bounds {rawImage : Buffer} {tableOffset : UInt64} {entry : TableEntry}
    (h : tableEntry rawImage tableOffset = .ok entry) :
    18 ≤ tableOffset.toNat ∧ tableOffset.toNat ≤ rawImage.bytes.length := by
  have hsize := rawImage.size_lt
  unfold tableEntry readU16Le at h
  obtain ⟨guidBuf, hguid, h⟩ := bind_eq_ok.mp h
  obtain ⟨len, hread, -⟩ := bind_eq_ok.mp h
  obtain ⟨raw, hlen, -⟩ := bind_eq_ok.mp hread
  have hg := (copyFrom_eq_ok.mp hguid).1
  have hl := (copyFrom_eq_ok.mp hlen).1
  have hlt := tableOffset.toNat_lt
  simp only [sizeofGuid, UInt64.toNat_sub] at hg hl
  simp only [UInt64.reduceToNat] at hg hl
  omega

/-- An entry of length 0 keeps the walk where it is. -/
theorem tableWalk_stuck {rawImage : Buffer} {tableLen : UInt16} {tableOffset : UInt64}
    {count : UInt16} (hcount : count < tableLen)
    (hentry : tableEntry rawImage tableOffset = .ok (.other 0)) (fuel : Nat) :
    tableWalk rawImage tableLen fuel tableOffset count = .error .diverge := by
  induction fuel with
  | zero => rfl
  | succ fuel ih =>
      simp only [tableWalk, if_pos hcount, hentry]
      simpa [bind, Except.bind] using ih

/-! ## Descriptor and sections -/

structure TdxMetadataDescriptor where
  signature : UInt32
  length : UInt32
  version : UInt32
  numberOfSectionEntry : UInt32
  deriving DecidableEq

structure TdxMetadataSection where
  dataOffset : UInt32
  rawDataSize : UInt32
  memoryAddress : UInt64
  memoryDataSize : UInt64
  type : UInt32
  attributes : UInt32
  deriving DecidableEq

def tdxMetadataSignature : UInt32 := 0x46564454

def isValidDescriptor (d : TdxMetadataDescriptor) : Bool :=
  d.signature = tdxMetadataSignature && d.version = 1 && d.numberOfSectionEntry ≠ 0

/-- The field of a packed structure at `off`. -/
def fieldU32 (raw : Bytes) (off : Nat) : UInt32 := UInt32.ofNat (ofLE (slice raw off 4))

def fieldU64 (raw : Bytes) (off : Nat) : UInt64 := UInt64.ofNat (ofLE (slice raw off 8))

/-- The descriptor behind the GUID in `desc_buf`. -/
def readDescriptor (rawImage : Buffer) (metadataOffset : UInt64) :
    Except Stop TdxMetadataDescriptor := do
  let descBuf ← copyFrom rawImage.bytes metadataOffset.toNat 32
  return ⟨fieldU32 descBuf 16, fieldU32 descBuf 20, fieldU32 descBuf 24, fieldU32 descBuf 28⟩

/-- The contents of `metadata_buf`. -/
def copyMetadata (rawImage : Buffer) (metadataOffset : UInt64) (d : TdxMetadataDescriptor) :
    Except Stop Bytes :=
  copyFrom rawImage.bytes (metadataOffset.toNat + 16) d.length.toNat

/-- The `memcpy` of a packed record into a `tdx_metadata_section_t`. -/
def parseSection (raw : Bytes) : TdxMetadataSection :=
  ⟨fieldU32 raw 0, fieldU32 raw 4, fieldU64 raw 8, fieldU64 raw 16, fieldU32 raw 24,
    fieldU32 raw 28⟩

/-- The section record of round `i` of the section loops. -/
def readSection (metadataBuf : Bytes) (i : Nat) : Except Stop TdxMetadataSection := do
  let raw ← copyFrom metadataBuf (16 + 32 * i) 32
  return parseSection raw

theorem readSection_fault {metadataBuf : Bytes} {i : Nat}
    (h : ¬16 + 32 * (i + 1) ≤ metadataBuf.length) :
    readSection metadataBuf i = .error .fault := by
  unfold readSection
  rw [copyFrom_fault (by omega)]
  rfl

/-- Section record `i` of the metadata at an offset of the image. -/
def sectionAt (rawImage : Buffer) (metadataOffset : UInt64) (i : Nat) : TdxMetadataSection :=
  parseSection (slice rawImage.bytes (metadataOffset.toNat + 32 + 32 * i) 32)

/-- The copy of the metadata holds the records of the image. -/
theorem readSection_copy {rawImage : Buffer} {metadataOffset : UInt64}
    {d : TdxMetadataDescriptor} {metadataBuf : Bytes} {i : Nat}
    (hcopy : copyMetadata rawImage metadataOffset d = .ok metadataBuf)
    (hi : 16 + 32 * (i + 1) ≤ d.length.toNat) :
    readSection metadataBuf i = .ok (sectionAt rawImage metadataOffset i) := by
  obtain ⟨hin, rfl⟩ := copyFrom_eq_ok.mp hcopy
  have hlen := slice_length hin
  unfold readSection sectionAt
  rw [copyFrom_ok (by omega), slice_slice _ _ _ _ _ (by omega)]
  change Except.ok _ = Except.ok _
  congr 3
  omega

end MeasuredBoot.Tdx
