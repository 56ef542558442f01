import MeasuredBoot.Common.Hash
import MeasuredBoot.SrtmLog.Text
import Mathlib.Logic.Function.Basic

/-! # The callbacks of parse-srtm-pcrs

`eventcb.c` over its `cb_data_t` and its two static variables. The pointers to the
log that a callback gets are byte strings; `event_data_cb` also gives back the memory
from its pointer on, since `event_ipl` writes there. Allocations succeed.
-/

namespace MeasuredBoot.SrtmLog

open Binary Imperative Imperative.Proc

/-- What `event_digest_cb` does with a digest. -/
inductive DigestAct where
  | skip
  | extend
  | pass
  deriving DecidableEq, Repr

/-- `cb_data_t`, the static variables `active_pcr` and `no_action_event_pending`, the
record `acts` of what the digest callback did, and the messages of `get_algo_str`. -/
structure CbData where
  eventlog : Nat → Option Bytes
  format : Format
  pcrNums : List Nat
  calcPcrs : Nat → Digest 32
  activePcr : Nat
  noActionEventPending : Bool
  acts : List DigestAct
  messages : Bytes

def maxPcrs : Nat := 24

/-- `cb_data` in `main`, before the log is parsed. -/
def CbData.start (format : Format) (pcrNums : List Nat) : CbData where
  eventlog := fun _ => none
  format := format
  pcrNums := pcrNums
  calcPcrs := fun _ => zeroDigest 32
  activePcr := 0
  noActionEventPending := false
  acts := []
  messages := []

/-! ## The text of the event log -/

/-- `mystrcat`. -/
def mystrcat (dest : Option Bytes) (src : Bytes) : Option Bytes := some (dest.getD [] ++ src)

def appendText (text : Bytes) (s : CbData) : CbData :=
  let appended := mystrcat (s.eventlog s.activePcr) text
  { s with eventlog := Function.update s.eventlog s.activePcr appended }

/-- `mystrcat(&log[active_pcr], s)`. -/
def appendActive (text : Bytes) : Proc CbData Unit := do
  let s ← getState
  when (maxPcrs ≤ s.activePcr) fault
  update (appendText text)

/-- `ADD_EVLOG`: nothing happens, and nothing is formatted, for other registers. -/
def addEvlog (text : Except Stop Bytes) : Proc CbData Unit := do
  let s ← getState
  when (s.activePcr ∈ s.pcrNums) do
    let formatted ← lift text
    let printed ← lift (snprintf formatted)
    appendActive printed

/-- `ADD_EVLOG_DESCRIPTION`. -/
def addEvlogDescription (description : Except Stop Bytes) : Proc CbData Unit := do
  let s ← getState
  addEvlog (description.map (descriptionText s.format))

/-! ## Headers -/

/-- `event_specid_cb`. Only events of another type than `EV_NO_ACTION` are logged. -/
def eventSpecidCb (event : Bytes) : Proc CbData Unit :=
  when (ofLE (slice event 4 4) ≠ evNoAction) do
    update fun s => { s with activePcr := ofLE (slice event 0 4) }
    let s ← getState
    addEvlog (.ok (sha1RecordText s.format (ofLE (slice event 4 4)) s.activePcr
      (slice event 8 20)))

def eventInitvalCb (locality : UInt8) (pcr : Nat) : Proc CbData Unit := do
  update fun s => { s with activePcr := pcr }
  let s ← getState
  addEvlog (.ok (initvalText s.format locality.toNat pcr))

/-- `event_header_cb`, for the old format. -/
def eventHeaderCb (event : Bytes) : Proc CbData Unit := eventSpecidCb event

def event2HeaderCb (hdr : Header2) : Proc CbData Unit := do
  update fun s => { s with activePcr := hdr.pcrIndex }
  if hdr.eventType = evNoAction then
    update fun s => { s with noActionEventPending := true }
  else do
    let s ← getState
    addEvlog (.ok (headerText s.format hdr.eventType hdr.pcrIndex))

/-! ## Digests -/

/-- The first 32 bytes at a pointer that has at least as many. -/
def sha256Digest (bytes : Bytes) : Digest 32 :=
  ⟨(bytes ++ zeros 32).take 32, by simp⟩

def recordAct (act : DigestAct) (s : CbData) : CbData := { s with acts := s.acts ++ [act] }

/-- `get_algo_str` prints to the standard output at once. -/
def printMessage (id : Nat) (s : CbData) : CbData :=
  { s with messages := s.messages ++ algoMessage id }

/-- `hash_extend` of `calc_pcrs[active_pcr]`. -/
def extendActive (md : Md 32) (digest : Digest 32) (s : CbData) : CbData :=
  let extended := hashExtend md (s.calcPcrs s.activePcr) digest
  { s with calcPcrs := Function.update s.calcPcrs s.activePcr extended }

/-- The digest is logged, and extended where it is a SHA-256 one. -/
def processDigest (md : Md 32) (digest : Digest2) : Proc CbData Bool := do
  update (printMessage digest.algorithmId)
  let s ← getState
  addEvlog (.ok (digestText s.format digest))
  if maxPcrs ≤ s.activePcr then
    return false
  else if digest.algorithmId = tpm2AlgSha256 then do
    update (extendActive md (sha256Digest digest.digest))
    update (recordAct .extend)
    return true
  else do
    update (recordAct .pass)
    return true

def eventDigestCb (md : Md 32) (digest : Digest2) : Proc CbData Bool := do
  let s ← getState
  if s.noActionEventPending then do
    update fun s => { s with noActionEventPending := false }
    update (recordAct .skip)
    return true
  else
    processDigest md digest

/-! ## Event data -/

/-- The loop that replaces tabs, up to the first NUL at or behind its pointer. -/
def replaceTabs : Bytes → Except Stop Bytes
  | [] => .error .fault
  | d :: rest =>
      if d = 0 then .ok (d :: rest)
      else do
        let rest ← replaceTabs rest
        return (if d = 9 then 32 else d) :: rest

/-- The lengths of the lines in the `size` bytes at a pointer, each with its pointer. -/
def iplLines : Nat → Nat → Bytes → List (Nat × Bytes)
  | 0, _, _ => []
  | fuel + 1, size, description =>
      if size = 0 then []
      else
        let line := ((description.take size).takeWhile fun b => b ≠ 10 ∧ b ≠ 0).length
        (line, description) :: iplLines fuel (size - (line + 1)) (description.drop (line + 1))

/-- The text `event_ipl` prints, given the description it prints it from. -/
def printIpl (size : Nat) (description : Bytes) : Proc CbData Unit := do
  let s ← getState
  forEach (fun line => addEvlog (precisionText line.1 line.2)) (iplLines size size description)
  when (s.format = .json) (addEvlog (.ok (ascii "\"\n\x7d,\n")))

def iplOpening : Format → Bytes
  | .json => ascii "\t\"description\":\""
  | .text => ascii "\tdescription: "

/-- `event_ipl`, and the memory from its pointer on as it leaves it. -/
def eventIpl (size : Nat) (description : Bytes) : Proc CbData (Bool × Bytes) := do
  let s ← getState
  addEvlog (.ok (iplOpening s.format))
  let description ← lift (replaceTabs description)
  printIpl size description
  return (true, description)

/-- `event_gpt`. -/
def eventGpt (size : Nat) (data : Bytes) : Proc CbData Bool :=
  if size < 100 then return false
  else do
    addEvlogDescription (.ok (gptDescription data))
    return true

/-- `event_uefi_var`. -/
def eventUefiVar (size : Nat) (data : Bytes) : Proc CbData Bool :=
  if size < 32 then return false
  else do
    addEvlogDescription (.ok (variableDescription data))
    return true

/-- The description of the events that are not checked again. -/
def plainDescription (type size : Nat) (data : Bytes) : Except Stop Bytes :=
  if type = evPostCode then
    if size = 16 then .ok (blobDescription data) else precisionText size data
  else if isBlobEvent type then .ok (blobDescription data)
  else if type = evEfiAction then precisionText size data
  else if isImageLoadEvent type then .ok (imageLoadDescription data size)
  else .ok []

/-- `event_data_cb` of the `TCG_EVENT2` at a pointer, with `ipl` for `event_ipl`. -/
def eventDataCbWith (ipl : Nat → Bytes → Proc CbData (Bool × Bytes)) (event : Bytes)
    (type : Nat) : Proc CbData (Bool × Bytes) :=
  let size := ofLE (slice event 0 4)
  let data := event.drop 4
  if size = 0 then return (true, event)
  else if isVariableEvent type then do
    let ret ← eventUefiVar size data
    return (ret, event)
  else if type = evIpl then do
    let left ← ipl size data
    return (left.1, event.take 4 ++ left.2)
  else if type = evEfiGptEvent then do
    let ret ← eventGpt size data
    return (ret, event)
  else if type = evNoAction then return (true, event)
  else do
    addEvlogDescription (plainDescription type size data)
    return (true, event)

def eventDataCb : Bytes → Nat → Proc CbData (Bool × Bytes) := eventDataCbWith eventIpl

end MeasuredBoot.SrtmLog
