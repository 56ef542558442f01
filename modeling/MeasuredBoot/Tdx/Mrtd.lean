import MeasuredBoot.Tdx.Metadata

/-! # Measuring the firmware image

The measuring half of `mrtd.c`. A run keeps the arguments of `EVP_DigestUpdate`
in order and what `EVP_DigestFinal_ex` wrote, if it was reached.
-/

namespace MeasuredBoot.Tdx

open Binary Imperative Imperative.Proc

/-! ## Records of the TDX module -/

/-- `td_call_mem_page_add` on the 128-byte buffer. -/
def tdCallMemPageAdd (gpa : UInt64) : Bytes :=
  overwrite (overwrite (zeros 128) 0 (ascii "MEM.PAGE.ADD")) 16 (toLE 8 gpa.toNat)

/-- The first of the three buffers of `td_call_mr_extend`. -/
def mrExtendHeader (gpa : UInt64) : Bytes :=
  overwrite (overwrite (zeros 128) 0 (ascii "MR.EXTEND")) 16 (toLE 8 gpa.toNat)

/-- `td_call_mr_extend`: the three buffers, or none where it returns `-1`. -/
def tdCallMrExtend (gpa : UInt64) (rawImage : Buffer) (dataOffset : UInt64) :
    Except Stop (Option (List Bytes)) :=
  if dataOffset + 2 * 128 > rawImage.size then return none
  else do
    let buf1 ← copyFrom rawImage.bytes dataOffset.toNat 128
    let buf2 ← copyFrom rawImage.bytes (dataOffset.toNat + 128) 128
    return some [mrExtendHeader gpa, buf1, buf2]

/-! ## `measure_ovmf` -/

/-- The allocations of a run and the start of its digest. -/
structure OvmfEnv where
  metadataAllocated : Bool
  ctxCreated : Bool
  digestStarted : Bool

/-- The updates hashed so far and the digest, once it is final. -/
structure OvmfRun where
  updates : List Bytes
  digest : Option (Digest 48)

def OvmfRun.start : OvmfRun := ⟨[], none⟩

/-- `EVP_DigestUpdate`, once for each buffer. -/
def OvmfRun.feed (buffers : List Bytes) (s : OvmfRun) : OvmfRun :=
  { s with updates := s.updates ++ buffers }

/-- `EVP_DigestFinal_ex`. -/
def OvmfRun.finish (md : Md 48) (s : OvmfRun) : OvmfRun :=
  { s with digest := some (md s.updates.flatten) }

def pageSize : UInt64 := 0x1000
def tdInfoType : UInt32 := 7
def sectionTypeMax : UInt32 := 9
def attributeNoPageAdd : UInt32 := 0x2
def attributeExtendMr : UInt32 := 0x1

def pageAddress (sec : TdxMetadataSection) (iter : Nat) : UInt64 :=
  sec.memoryAddress + UInt64.ofNat iter * pageSize

def addPage (sec : TdxMetadataSection) (iter : Nat) : Proc OvmfRun Unit :=
  update (OvmfRun.feed [tdCallMemPageAdd (pageAddress sec iter)])

/-- One round of the loop over the 256-byte chunks of a page. -/
def extendChunk (ret : Int) (rawImage : Buffer) (sec : TdxMetadataSection) (iter chunkIter : Nat) :
    Proc OvmfRun Unit := do
  let chunkOffset := UInt64.ofNat chunkIter * 256
  let buffers ← lift (tdCallMrExtend (pageAddress sec iter + chunkOffset) rawImage
    (sec.dataOffset.toUInt64 + UInt64.ofNat iter * pageSize + chunkOffset))
  match buffers with
  | none => exit ret
  | some buffers => update (OvmfRun.feed buffers)

def extendPage (ret : Int) (rawImage : Buffer) (sec : TdxMetadataSection) (iter : Nat) :
    Proc OvmfRun Unit :=
  forEach (extendChunk ret rawImage sec iter) (List.range 16)

/-- The sanity checks of a section, in order. -/
def checkSection (ret : Int) (sec : TdxMetadataSection) : Proc OvmfRun Unit := do
  exitIf (sec.memoryAddress % pageSize ≠ 0) ret
  exitIf (sec.type ≠ tdInfoType ∧ (sec.memoryAddress ≠ 0 ∨ sec.memoryDataSize ≠ 0) ∧
    sec.memoryDataSize < sec.rawDataSize.toUInt64) ret
  exitIf (sec.memoryDataSize % pageSize ≠ 0) ret
  exitIf (sec.type ≥ sectionTypeMax) ret

def nrPages (sec : TdxMetadataSection) : Nat := (sec.memoryDataSize / pageSize).toNat

/-- One round of the section loop: `goto out` returns `ret`. -/
def measureSection (ret : Int) (rawImage : Buffer) (qemuVersion : Bytes) (metadataBuf : Bytes)
    (i : Nat) : Proc OvmfRun Unit := do
  let sec ← lift (readSection metadataBuf i)
  checkSection ret sec
  if qemuVersion = ascii "9.2.0" then
    forEach (fun iter => do
      when (sec.attributes &&& attributeNoPageAdd = 0) (addPage sec iter)
      when (sec.attributes &&& attributeExtendMr ≠ 0) (extendPage ret rawImage sec iter))
      (List.range (nrPages sec))
  else if qemuVersion = ascii "8.2.2" then
    when (sec.attributes &&& attributeNoPageAdd = 0)
      (forEach (addPage sec) (List.range (nrPages sec)))
    when (sec.attributes &&& attributeExtendMr ≠ 0)
      (forEach (extendPage ret rawImage sec) (List.range (nrPages sec)))
  else
    exit ret

/-- The section loop and the end of the digest. -/
def measureSections (md : Md 48) (ret : Int) (rawImage : Buffer) (qemuVersion : Bytes)
    (metadataBuf : Bytes) (d : TdxMetadataDescriptor) : Proc OvmfRun Int := do
  forEach (measureSection ret rawImage qemuVersion metadataBuf)
    (List.range d.numberOfSectionEntry.toNat)
  update (OvmfRun.finish md)
  return 0

def measureOvmf (md : Md 48) (env : OvmfEnv) (rawImage : Buffer) (qemuVersion : Bytes) :
    Proc OvmfRun Int := do
  let found ← lift (getOvmfMetadataOffset rawImage)
  match found with
  | none => exit (-1)
  | some metadataOffset =>
      -- what `get_ovmf_metadata_offset` returned, and no statement before the last changes it
      let ret := 0
      let d ← lift (readDescriptor rawImage metadataOffset)
      exitIf (isValidDescriptor d = false) (-1)
      exitIf (env.metadataAllocated = false) (-1)
      let metadataBuf ← lift (copyMetadata rawImage metadataOffset d)
      exitIf (env.ctxCreated = false) ret
      exitIf (env.digestStarted = false) ret
      measureSections md ret rawImage qemuVersion metadataBuf d

end MeasuredBoot.Tdx
