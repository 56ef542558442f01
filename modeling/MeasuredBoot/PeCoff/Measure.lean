import MeasuredBoot.Common.Hash
import MeasuredBoot.Lib.InsertionSort
import MeasuredBoot.PeCoff.Headers

/-! # Measuring a PE/COFF image

`PeCoffLoaderGetImageInfo` and `MeasurePeImage` of `MeasureBootPeCoff.c`. The loader
looks at the image through `ImageRead`; what is hashed is read through pointers.
-/

namespace MeasuredBoot.PeCoff

open Binary Imperative

/-! ## Image information -/

/-- The search for the section the address `rva` is in: the file offset of the address,
or 0 where no section has it. The end of the section is a `UINT32`. -/
def findDebugDirectory (image : Bytes) (rva : Nat) : Nat → Nat → Loader Nat
  | 0, _ => return 0
  | count + 1, off => do
      let raw ← imageRead image minusOne off sizeofSectionHeader
      let s := sectionHeader raw
      if s.virtualAddress ≤ rva ∧ rva < (s.virtualAddress + s.virtualSize) % 2 ^ 32 then
        return rva - s.virtualAddress + s.pointerToRawData
      else findDebugDirectory image rva count (off + sizeofSectionHeader)

def debugTypeCodeview : Nat := 2

/-- The loop over the debug entries: the first one with CodeView data, and its index. -/
def findCodeView (image : Bytes) (fileOffset : Nat) : Nat → Nat → Loader (Option (Nat × Bytes))
  | 0, _ => return none
  | rounds + 1, index => do
      let entry ← imageRead image minusOne ((fileOffset + index) % 2 ^ 64) sizeofDebugEntry
      if field entry 12 4 = debugTypeCodeview then return some (index, entry)
      else findCodeView image fileOffset rounds (index + sizeofDebugEntry)

/-- How often that loop runs for a directory of `size` bytes. -/
def debugRounds (size : Nat) : Nat := (size + (sizeofDebugEntry - 1)) / sizeofDebugEntry

/-- The rest of `PeCoffLoaderGetImageInfo` for a PE image. -/
def getNtImageInfo (image : Bytes) (ctx : ImageContext) (hdr : Bytes) : Loader ImageContext := do
  let ctx := { ctx with
    imageAddress := Nt.imageBase hdr
    relocationsStripped := Nt.characteristics hdr % 2 = 1 }
  let debug := Nt.dataDirectory hdr directoryEntryDebug
  if directoryEntryDebug < Nt.numberOfRvaAndSizes hdr then do
    let fileOffset ← findDebugDirectory image debug.virtualAddress (Nt.numberOfSections hdr)
      (ctx.peCoffHeaderOffset + 24 + Nt.sizeOfOptionalHeader hdr)
    if fileOffset ≠ 0 then do
      match ← findCodeView image fileOffset (debugRounds debug.size) 0 with
      | none => return ctx
      | some (index, entry) =>
          let unloaded := field entry 20 4 = 0 ∧ field entry 24 4 ≠ 0
          return { ctx with
            debugDirectoryEntryRva := (debug.virtualAddress + index) % 2 ^ 32
            imageSize := if unloaded then ctx.imageSize + field entry 16 4 else ctx.imageSize }
    else return ctx
  else return ctx

/-- The loop over the sections of a TE image: the file offset of the debug directory and
the size of the image. Behind the section of the directory it skips to the last one. -/
def walkTeSections (image hdr : Bytes) :
    Nat → (index off fileOffset imageSize : Nat) → Loader (Nat × Nat)
  | 0, _, _, _, _ => .error (.stop .diverge)
  | fuel + 1, index, off, fileOffset, imageSize =>
      let last := Te.numberOfSections hdr - 1
      let rva := (Te.dataDirectory hdr 1).virtualAddress
      let stripped := Te.strippedOffset hdr
      if index < Te.numberOfSections hdr then do
        let raw ← imageRead image minusOne off sizeofSectionHeader
        let s := sectionHeader raw
        let here := s.virtualAddress ≤ rva ∧ rva < (s.virtualAddress + s.virtualSize) % 2 ^ 32
        let fileOffset :=
          if here then (rva - s.virtualAddress + s.pointerToRawData + 2 ^ 64 - stripped) % 2 ^ 64
          else fileOffset
        if here ∧ index < last then
          walkTeSections image hdr fuel last (off + (last - index) * sizeofSectionHeader)
            fileOffset imageSize
        else
          let imageSize :=
            if index + 1 = Te.numberOfSections hdr then
              (s.virtualAddress + s.virtualSize + 2 ^ 32 - stripped) % 2 ^ 32
            else imageSize
          walkTeSections image hdr fuel (index + 1) (off + sizeofSectionHeader) fileOffset
            imageSize
      else return (fileOffset, imageSize)

/-- The rest of `PeCoffLoaderGetImageInfo` for a TE image. -/
def getTeImageInfo (image : Bytes) (ctx : ImageContext) (hdr : Bytes) : Loader ImageContext := do
  let relocations := Te.dataDirectory hdr 0
  let debug := Te.dataDirectory hdr 1
  let (fileOffset, imageSize) ←
    walkTeSections image hdr (Te.numberOfSections hdr + 1) 0 sizeofTeHeader 0 0
  let ctx := { ctx with
    imageAddress := (Te.imageBase hdr + Te.strippedOffset hdr) % 2 ^ 64
    relocationsStripped := relocations.size = 0 ∧ relocations.virtualAddress = 0
    imageSize := imageSize }
  if fileOffset ≠ 0 then do
    match ← findCodeView image fileOffset (debugRounds debug.size) 0 with
    | none => return ctx
    | some (index, _) =>
        return { ctx with debugDirectoryEntryRva := (debug.virtualAddress + index) % 2 ^ 32 }
  else return ctx

/-- `PeCoffLoaderGetImageInfo` -/
def getImageInfo (image : Bytes) : Loader ImageContext := do
  let (ctx, hdr) ← getPeHeader image
  if ctx.isTeImage then getTeImageInfo image ctx hdr
  else getNtImageInfo image ctx hdr

/-! ## The table of sections -/

/-- The entry `calloc` fills the table with. -/
def emptySection : SectionHeader := ⟨0, 0, 0, 0⟩

/-- Step 12: every section header is inserted into the table in front of the entries with
a larger offset in the file, which move up by one place. -/
def sortSections (sections : List SectionHeader) : List SectionHeader :=
  InsertionSort.insertAll SectionHeader.pointerToRawData sections 0
    (List.replicate sections.length emptySection)

/-- The section headers behind each other, through the pointer `Section`. -/
def sectionsFrom (image : Bytes) : Nat → Nat → Loader (List SectionHeader)
  | 0, _ => return []
  | count + 1, off => do
      let raw ← imageCopy image off sizeofSectionHeader
      let rest ← sectionsFrom image count (off + sizeofSectionHeader)
      return sectionHeader raw :: rest

/-! ## What is hashed -/

/-- Steps 3 to 9: the headers without the checksum and the entry of the certificates.
The sizes are 64-bit differences. -/
def hashHeaders (image hdr : Bytes) (offset : Nat) : Loader Bytes := do
  let checkSum := offset + Nt.checkSumOffset
  let start ← imageCopy image 0 checkSum
  if Nt.numberOfRvaAndSizes hdr ≤ directoryEntrySecurity then do
    let rest ← imageCopy image (checkSum + 4)
      ((Nt.sizeOfHeaders hdr + 2 ^ 64 - (checkSum + 4)) % 2 ^ 64)
    return start ++ rest
  else do
    let security := offset + Nt.dataDirectoryOffset hdr directoryEntrySecurity
    let behind := offset + Nt.dataDirectoryOffset hdr (directoryEntrySecurity + 1)
    let middle ← imageCopy image (checkSum + 4) (security - (checkSum + 4))
    let rest ← imageCopy image behind ((Nt.sizeOfHeaders hdr + 2 ^ 64 - behind) % 2 ^ 64)
    return start ++ middle ++ rest

/-- Steps 13 to 15: the data of the sections in the order of the table. -/
def hashSections (image : Bytes) : List SectionHeader → Loader Bytes
  | [] => return []
  | s :: table =>
      if s.sizeOfRawData = 0 then hashSections image table
      else do
        let data ← imageCopy image s.pointerToRawData s.sizeOfRawData
        let rest ← hashSections image table
        return data ++ rest

/-- `SUM_OF_BYTES_HASHED`: the headers and the sections that are hashed. -/
def sumOfBytesHashed (hdr : Bytes) (table : List SectionHeader) : Nat :=
  Nt.sizeOfHeaders hdr + (table.map SectionHeader.sizeOfRawData).sum

def certSize (hdr : Bytes) : Nat :=
  if Nt.numberOfRvaAndSizes hdr ≤ directoryEntrySecurity then 0
  else (Nt.dataDirectory hdr directoryEntrySecurity).size

/-- Step 16: what follows in the file, without the certificates at its end. -/
def hashTrailer (image hdr : Bytes) (sum : Nat) : Loader Bytes :=
  if image.length > sum then
    if image.length > certSize hdr + sum then
      imageCopy image sum (image.length - certSize hdr - sum)
    else if image.length < certSize hdr + sum then .error (.status efiUnsupported)
    else return []
  else return []

/-- Steps 3 to 16: the data the digest is updated with. `tableAllocated` tells whether
`calloc` gives the table. -/
def hashImage (tableAllocated : Bool) (image hdr : Bytes) (offset : Nat) : Loader Bytes := do
  let headers ← hashHeaders image hdr offset
  if tableAllocated = false then .error (.status efiOutOfResources)
  else do
    let sections ← sectionsFrom image (Nt.numberOfSections hdr)
      (offset + 24 + Nt.sizeOfOptionalHeader hdr)
    let table := sortSections sections
    let data ← hashSections image table
    let trailer ← hashTrailer image hdr (sumOfBytesHashed hdr table)
    return headers ++ data ++ trailer

/-! ## `MeasurePeImage` -/

/-- What the libraries give, and whether the stack has left a pointer where the jump
over the declaration of `ctx` leaves it without a value. -/
structure MeasureEnv where
  ctxAllocated : Bool
  digestInit : Bool
  tableAllocated : Bool
  staleCtx : Bool

/-- What the image starts with, through the pointer `DosHdr`. -/
def dosHeader (image : Bytes) : Loader Bytes := imageCopy image 0 sizeofDosHeader

/-- `MeasurePeImage` up to the declaration of `ctx`: where the header stands, and what is
there. Every field that is read later lies in the union of the two formats. -/
def locateHeader (image : Bytes) : Loader (Nat × Bytes) := do
  let _ ← getImageInfo image
  let dosHdr ← dosHeader image
  let offset := peCoffHeaderOffset dosHdr
  let hdr ← imageCopy image offset sizeofHeaderUnion
  refuseIf (Nt.signature hdr ≠ ntSignature)
  return (offset, hdr)

/-- What `EVP_DigestUpdate` returns, which is the status of an image that is measured. -/
def digestUpdated : UInt64 := 1

/-- `MeasurePeImage`: the status, and what is written to `hash`. At `Finish` a `ctx`
without a value is freed if it is not `NULL`. -/
def measurePeImage {n : Nat} (md : Md n) (env : MeasureEnv) (image : Bytes) :
    Except Stop (UInt64 × Option (Digest n)) :=
  match locateHeader image with
  | .error (.stop why) => .error why
  | .error (.status status) => if env.staleCtx then .error .fault else .ok (status, none)
  | .ok (offset, hdr) =>
      if env.ctxAllocated = false ∨ env.digestInit = false then .ok (efiSuccess, none)
      else
        match hashImage env.tableAllocated image hdr offset with
        | .error (.stop why) => .error why
        | .error (.status status) => .ok (status, none)
        | .ok data => .ok (digestUpdated, some (md data))

end MeasuredBoot.PeCoff
