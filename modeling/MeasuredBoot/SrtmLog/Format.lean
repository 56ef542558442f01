import MeasuredBoot.Lib.CText
import MeasuredBoot.Lib.Proc

/-! # The crypto-agile event log format

The parts of `tpm2_eventlog.c` that look at one event: its header, its digests, its
size and its body. Memory from a pointer on is the byte string that starts there, so
an event and all that follows it are one string. Where a function returns `false`,
all its callers up to `parse_eventlog` do; this is the exit with status `0`.
-/

namespace MeasuredBoot.SrtmLog

open Binary Imperative Imperative.Proc

variable {σ : Type}

/-! ## Event types -/

def evPostCode : Nat := 0x1
def evNoAction : Nat := 0x3
def evSCrtmContents : Nat := 0x7
def evIpl : Nat := 0xd
def evEfiEventBase : Nat := 0x80000000
def evEfiVariableDriverConfig : Nat := evEfiEventBase + 0x1
def evEfiVariableBoot : Nat := evEfiEventBase + 0x2
def evEfiBootServicesApplication : Nat := evEfiEventBase + 0x3
def evEfiBootServicesDriver : Nat := evEfiEventBase + 0x4
def evEfiRuntimeServicesDriver : Nat := evEfiEventBase + 0x5
def evEfiGptEvent : Nat := evEfiEventBase + 0x6
def evEfiAction : Nat := evEfiEventBase + 0x7
def evEfiPlatformFirmwareBlob : Nat := evEfiEventBase + 0x8
def evEfiHcrtmEvent : Nat := evEfiEventBase + 0x10
def evEfiVariableAuthority : Nat := evEfiEventBase + 0xe0

/-- `UEFI_VARIABLE_DATA` is the body of these events. -/
def isVariableEvent (type : Nat) : Bool :=
  type = evEfiVariableDriverConfig || type = evEfiVariableBoot || type = evEfiVariableAuthority

/-- `UEFI_PLATFORM_FIRMWARE_BLOB` is the body of these events. -/
def isBlobEvent (type : Nat) : Bool :=
  type = evSCrtmContents || type = evEfiPlatformFirmwareBlob

/-- `UEFI_IMAGE_LOAD_EVENT` is the body of these events. -/
def isImageLoadEvent (type : Nat) : Bool :=
  type = evEfiBootServicesApplication || type = evEfiBootServicesDriver ||
    type = evEfiRuntimeServicesDriver

/-! ## Digests -/

def tpm2AlgSha1 : Nat := 0x0004
def tpm2AlgSha256 : Nat := 0x000B
def tpm2AlgSha384 : Nat := 0x000C
def tpm2AlgSha512 : Nat := 0x000D
def tpm2AlgSm3 : Nat := 0x0012

def tpm2AlgUtilGetHashSize (id : Nat) : Nat :=
  if id = tpm2AlgSha1 then 20
  else if id = tpm2AlgSha256 then 32
  else if id = tpm2AlgSha384 then 48
  else if id = tpm2AlgSha512 then 64
  else if id = tpm2AlgSm3 then 32
  else 0

/-- A `TCG_DIGEST2` with the bytes its algorithm gives it. -/
structure Digest2 where
  algorithmId : Nat
  digest : Bytes
  deriving DecidableEq

def Digest2.size (d : Digest2) : Nat := 2 + tpm2AlgUtilGetHashSize d.algorithmId

/-- The `TCG_DIGEST2` at a pointer. -/
def digest2At (mem : Bytes) : Digest2 :=
  ⟨ofLE (slice mem 0 2), slice mem 2 (tpm2AlgUtilGetHashSize (ofLE (slice mem 0 2)))⟩

def tpm2MaxPcrs : Nat := 32

/-- The loop of `foreach_digest2`, over the digests left and the size left. -/
def digestLoop (digest2Cb : Digest2 → Proc σ Bool) : Nat → Bytes → Nat → Proc σ Unit
  | 0, _, _ => return ()
  | count + 1, digest, size => do
      exitIf (size < 2) 0
      let algSize := tpm2AlgUtilGetHashSize (ofLE (slice digest 0 2))
      exitIf (size < 2 + algSize) 0
      let ret ← digest2Cb (digest2At digest)
      exitIf (ret = false) 0
      digestLoop digest2Cb count (digest.drop (2 + algSize)) (size - (2 + algSize))

def foreachDigest2 (digest2Cb : Digest2 → Proc σ Bool) (pcrIndex : Nat) (digest : Bytes)
    (count size : Nat) : Proc σ Unit := do
  exitIf (tpm2MaxPcrs - 1 < pcrIndex) 0
  digestLoop digest2Cb count digest size

/-- `digest2_accumulator_callback`. -/
def digest2Accumulator (d : Digest2) : Proc Nat Bool := do
  update (· + d.size)
  return true

/-! ## Events -/

/-- `TCG_EVENT_HEADER2`. -/
structure Header2 where
  pcrIndex : Nat
  eventType : Nat
  digestCount : Nat
  deriving DecidableEq

def header2At (eventhdr : Bytes) : Header2 :=
  ⟨ofLE (slice eventhdr 0 4), ofLE (slice eventhdr 4 4), ofLE (slice eventhdr 8 4)⟩

/-- What `parse_event2` finds out about an event. -/
structure Layout where
  eventSize : Nat
  digestsSize : Nat
  deriving DecidableEq

def parseEvent2 (eventhdr : Bytes) (bufSize : Nat) : Proc σ Layout := do
  exitIf (bufSize < 12) 0
  let hdr := header2At eventhdr
  let counted ← inner (do
    foreachDigest2 digest2Accumulator hdr.pcrIndex (eventhdr.drop 12) hdr.digestCount
      (bufSize - 12)
    return 1) 0
  exitIf (counted.1 ≠ 1) 0
  let off := 12 + counted.2
  exitIf (bufSize < off + 4) 0
  let dataSize := ofLE (slice eventhdr off 4)
  exitIf (bufSize < off + 4 + dataSize) 0
  return ⟨off + 4 + dataSize, counted.2⟩

/-- `parse_event2body` of the `TCG_EVENT2` at a pointer. The sum of the variable's
lengths is a `UINT64`. -/
def parseEvent2body (event : Bytes) (type : Nat) : Bool :=
  let eventSize := ofLE (slice event 0 4)
  let data := event.drop 4
  if isVariableEvent type then
    32 ≤ eventSize &&
      (32 + ofLE (slice data 16 8) * 2 + ofLE (slice data 24 8)) % 2 ^ 64 ≤ eventSize
  else if isBlobEvent type then 16 ≤ eventSize
  else if isImageLoadEvent type then 32 ≤ eventSize
  else true

/-! ## The specification event -/

/-- `specid_event`: where the first event starts, or none where it returns `false`. -/
def specidEvent (event : Bytes) (size : Nat) : Option Nat :=
  let eventDataSize := ofLE (slice event 28 4)
  let numberOfAlgorithms := ofLE (slice event 56 4)
  let vendor := 60 + 4 * numberOfAlgorithms
  let vendorInfoSize := ofLE (slice event vendor 1)
  if size < 32 then none
  else if ofLE (slice event 4 4) ≠ evNoAction then none
  else if ofLE (slice event 0 4) ≠ 0 then none
  else if slice event 8 20 ≠ zeros 20 then none
  else if eventDataSize < 28 then none
  else if size < 32 + eventDataSize then none
  else if numberOfAlgorithms = 0 then none
  else if size < vendor then none
  else if size < vendor + 1 then none
  else if size < vendor + 1 + vendorInfoSize then none
  else some (vendor + 1 + vendorInfoSize)

/-- `parse_sha1_log_event`: the size of an event in the old format. -/
def parseSha1LogEvent (event : Bytes) (size : Nat) : Option Nat :=
  if size < 32 then none
  else if size < 32 + ofLE (slice event 28 4) then none
  else some (32 + ofLE (slice event 28 4))

end MeasuredBoot.SrtmLog
