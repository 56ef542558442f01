import MeasuredBoot.Lib.Simulation
import MeasuredBoot.SrtmLog.Callbacks

/-! # The event log parser

`foreach_event2` and `parse_eventlog` of `tpm2_eventlog.c` over an arbitrary context
of callbacks. The loops carry the memory from their pointer on and the size left: a
callback for event data may change that memory, and nothing in front of the pointer
is read again.
-/

namespace MeasuredBoot.SrtmLog

open Binary Imperative Imperative.Proc

variable {σ : Type}

/-- `tpm2_eventlog_context`: the callbacks over the data `σ`, and what the parser itself
writes there for a startup locality. -/
structure Context (σ : Type) where
  specidCb : Bytes → Proc σ Unit
  initvalCb : UInt8 → Nat → Proc σ Unit
  event2hdrCb : Header2 → Proc σ Unit
  logEventhdrCb : Bytes → Proc σ Unit
  digest2Cb : Digest2 → Proc σ Bool
  event2Cb : Bytes → Nat → Proc σ (Bool × Bytes)
  startupLocality : UInt8 → σ → σ

/-! ## One event -/

/-- The locals of `foreach_event2` that outlive an event. -/
structure LoopVars where
  foundHcrtm : Bool
  pcrOccurenceVector : UInt32
  locality : UInt8

def LoopVars.start : LoopVars := ⟨false, 0, 0⟩

def startupLocalitySignature : Bytes := ascii "StartupLocality" ++ [0]

/-- `EV_NO_ACTION_STRUCT` at a pointer: the locality, if the signature is there. -/
def localityAt (data : Bytes) : Except Stop (Option UInt8) := do
  let signature ← copyFrom data 0 16
  if signature = startupLocalitySignature then
    let locality ← copyFrom data 16 1
    return locality.head?
  else return none

/-- The H-CRTM and startup locality part of the loop body. -/
def localityStep (ctx : Context σ) (vars : LoopVars) (hdr : Header2) (eventSize : Nat)
    (data : Bytes) : Proc σ LoopVars :=
  if hdr.eventType = evEfiHcrtmEvent ∧ hdr.pcrIndex = 0 then do
    update (ctx.startupLocality 4)
    return { vars with foundHcrtm := true, locality := 4 }
  else if ¬vars.foundHcrtm ∧ hdr.eventType = evNoAction ∧ hdr.pcrIndex = 0 then do
    exitIf (eventSize < 17) 0
    match ← lift (localityAt data) with
    | some locality => do
        update (ctx.startupLocality locality)
        return { vars with locality := locality }
    | none => return vars
  else return vars

/-- The initial value is announced at the first event of a register. -/
def initvalStep (ctx : Context σ) (vars : LoopVars) (pcrIndex : Nat) : Proc σ LoopVars :=
  let bit := (1 : UInt32) <<< UInt32.ofNat pcrIndex
  if vars.pcrOccurenceVector &&& bit = 0 then do
    let locality := if pcrIndex ≠ 0 then 0 else vars.locality
    ctx.initvalCb locality pcrIndex
    return { vars with pcrOccurenceVector := vars.pcrOccurenceVector ||| bit, locality := locality }
  else return vars

/-- The body of `foreach_event2` between `parse_event2` and the event data. -/
def event2Head (ctx : Context σ) (vars : LoopVars) (eventhdr : Bytes) (layout : Layout) :
    Proc σ LoopVars := do
  let hdr := header2At eventhdr
  let event := eventhdr.drop (12 + layout.digestsSize)
  let vars ← localityStep ctx vars hdr layout.eventSize (event.drop 4)
  let vars ← initvalStep ctx vars hdr.pcrIndex
  ctx.event2hdrCb hdr
  foreachDigest2 ctx.digest2Cb hdr.pcrIndex (eventhdr.drop 12) hdr.digestCount layout.digestsSize
  exitIf (parseEvent2body event hdr.eventType = false) 0
  return vars

/-- The event data callback at a `TCG_EVENT2` of `len` bytes: the memory behind it. -/
def deliverData (ctx : Context σ) (event : Bytes) (type len : Nat) : Proc σ Bytes := do
  let left ← ctx.event2Cb event type
  exitIf (left.1 = false) 0
  return left.2.drop len

/-- One round of `foreach_event2`: the locals, the memory and the size behind the event. -/
def event2Step (ctx : Context σ) (vars : LoopVars) (eventhdr : Bytes) (size : Nat) :
    Proc σ (LoopVars × Bytes × Nat) := do
  let layout ← parseEvent2 eventhdr size
  let vars ← event2Head ctx vars eventhdr layout
  let off := 12 + layout.digestsSize
  let next ← deliverData ctx (eventhdr.drop off) (header2At eventhdr).eventType
    (layout.eventSize - off)
  return (vars, next, size - layout.eventSize)

/-! ## The loops -/

def event2Loop (ctx : Context σ) : Nat → LoopVars → Bytes → Nat → Proc σ Unit
  | 0, _, _, _ => lift (.error .diverge)
  | fuel + 1, vars, eventhdr, size =>
      if size = 0 then return ()
      else do
        let next ← event2Step ctx vars eventhdr size
        event2Loop ctx fuel next.1 next.2.1 next.2.2

/-- An event has at least 16 bytes, so this many rounds always suffice. -/
def foreachEvent2 (ctx : Context σ) (eventhdrStart : Bytes) (size : Nat) : Proc σ Unit :=
  event2Loop ctx (size + 1) LoopVars.start eventhdrStart size

/-- The body of `foreach_sha1_log_event` up to the event data: the size of the event. -/
def sha1Head (ctx : Context σ) (eventhdr : Bytes) (size : Nat) : Proc σ Nat :=
  match parseSha1LogEvent eventhdr size with
  | none => exit 0
  | some eventSize => do
      ctx.logEventhdrCb eventhdr
      exitIf (parseEvent2body (eventhdr.drop 28) (ofLE (slice eventhdr 4 4)) = false) 0
      return eventSize

def sha1Loop (ctx : Context σ) : Nat → Bytes → Nat → Proc σ Unit
  | 0, _, _ => lift (.error .diverge)
  | fuel + 1, eventhdr, size =>
      if size = 0 then return ()
      else do
        let eventSize ← sha1Head ctx eventhdr size
        let next ← deliverData ctx (eventhdr.drop 28) (ofLE (slice eventhdr 4 4)) (eventSize - 28)
        sha1Loop ctx fuel next (size - eventSize)

def foreachSha1LogEvent (ctx : Context σ) (eventhdrStart : Bytes) (size : Nat) : Proc σ Unit :=
  sha1Loop ctx (size + 1) eventhdrStart size

/-! ## The whole log -/

/-- `parse_eventlog`: `1` if the log is accepted. -/
def parseEventlog (ctx : Context σ) (eventlog : Bytes) (size : Nat) : Proc σ Int := do
  exitIf (size < 32) 0
  if ofLE (slice eventlog 4 4) = evNoAction then
    match specidEvent eventlog size with
    | none => return 0
    | some next => do
        ctx.specidCb eventlog
        foreachEvent2 ctx (eventlog.drop next) (size - next)
        return 1
  else do
    foreachSha1LogEvent ctx eventlog size
    return 1

def chunkSize : Nat := 16384

/-- `eventbuf` in `tpm_parse_eventlog`: what was read and the rest of its last chunk,
which is zero only as long as the buffer was never reallocated. -/
structure EventBuf where
  log : Bytes
  slack : Bytes
  slack_length : slack.length = chunkSize - log.length % chunkSize
  slack_zero : log.length < chunkSize → slack = zeros (chunkSize - log.length)

def EventBuf.memory (b : EventBuf) : Bytes := b.log ++ b.slack

/-- The first event says that the log is crypto-agile. -/
def EventBuf.CryptoAgile (b : EventBuf) : Prop :=
  32 ≤ b.log.length ∧ ofLE (slice b.log 4 4) = evNoAction

/-- A buffer that holds a short log. -/
def shortBuf (log : Bytes) (h : log.length < chunkSize) : EventBuf where
  log := log
  slack := zeros (chunkSize - log.length)
  slack_length := by rw [zeros_length, Nat.mod_eq_of_lt h]
  slack_zero := fun _ => rfl

/-- A specification event for SHA-256. -/
def specidLog : Bytes :=
  toLE 4 0 ++ toLE 4 evNoAction ++ zeros 20 ++ toLE 4 33
    ++ (zeros 24 ++ toLE 4 1 ++ toLE 2 tpm2AlgSha256 ++ toLE 2 32 ++ [0])

/-- A PCR value with another last byte. -/
def withLastByte (value : Digest 32) (byte : UInt8) : Digest 32 :=
  ⟨value.val.take 31 ++ [byte], by
    rw [List.length_append, List.length_take, value.property]
    rfl⟩

/-- `calc_pcrs[0][31] = locality`. -/
def setLocality (locality : UInt8) (s : CbData) : CbData :=
  let value := withLastByte (s.calcPcrs 0) locality
  { s with calcPcrs := Function.update s.calcPcrs 0 value }

/-- The context `tpm_parse_eventlog` sets up. -/
def programContext (md : Md 32) : Context CbData where
  specidCb := eventSpecidCb
  initvalCb := eventInitvalCb
  event2hdrCb := event2HeaderCb
  logEventhdrCb := eventHeaderCb
  digest2Cb := eventDigestCb md
  event2Cb := eventDataCb
  startupLocality := setLocality

/-- `tpm_parse_eventlog`, once the log has been read. -/
def tpmParseEventlog (md : Md 32) (b : EventBuf) : Proc CbData Int :=
  parseEventlog (programContext md) b.memory b.log.length

/-! ## Sizes -/

/-- `parse_event2` counts the header, the digests, `EventSize` and the data, and all of
it lies in the bytes left. -/
theorem parseEvent2_layout (eventhdr : Bytes) (bufSize : Nat) (s : σ) :
    wlp (parseEvent2 eventhdr bufSize)
      (fun layout _ =>
        layout.eventSize = 12 + layout.digestsSize + 4 +
          ofLE (slice eventhdr (12 + layout.digestsSize) 4) ∧ layout.eventSize ≤ bufSize)
      (fun _ _ => True) s := by
  apply wlp_bind
  apply wlp_exitIf
  · intro _
    trivial
  intro _
  apply wlp_bind
  apply wlp_lift
  intro counted _
  apply wlp_bind
  apply wlp_exitIf
  · intro _
    trivial
  intro _
  apply wlp_bind
  apply wlp_exitIf
  · intro _
    trivial
  intro _
  apply wlp_bind
  apply wlp_exitIf
  · intro _
    trivial
  intro hfits
  exact ⟨rfl, Nat.le_of_not_lt hfits⟩

theorem sha1Head_size {ctx : Context σ} {eventhdr : Bytes} {size eventSize : Nat} {s s' : σ}
    (h : sha1Head ctx eventhdr size s = .next eventSize s') :
    eventSize = 32 + ofLE (slice eventhdr 28 4) ∧ eventSize ≤ size := by
  unfold sha1Head parseSha1LogEvent at h
  by_cases hshort : size < 32
  · rw [if_pos hshort] at h
    cases h
  rw [if_neg hshort] at h
  by_cases hdata : size < 32 + ofLE (slice eventhdr 28 4)
  · rw [if_pos hdata] at h
    cases h
  rw [if_neg hdata] at h
  have hwlp : wlp (do
      ctx.logEventhdrCb eventhdr
      exitIf (parseEvent2body (eventhdr.drop 28) (ofLE (slice eventhdr 4 4)) = false) 0
      return 32 + ofLE (slice eventhdr 28 4)) (fun n _ => n = 32 + ofLE (slice eventhdr 28 4))
      (fun _ _ => True) s := by
    apply wlp_bind
    apply wlp_mono (wlp_true _ s)
    · intro _ t _
      apply wlp_bind
      apply wlp_exitIf
      · intro _
        trivial
      · intro _
        rfl
    · intro _ _ _
      trivial
  have hvalue := next_of_wlp hwlp h
  exact ⟨hvalue, hvalue ▸ Nat.le_of_not_lt hdata⟩

/-! ## The rounds are enough -/

/-- A round behind which there is something left consumes at least 16 bytes of it. -/
theorem event2Step_size {ctx : Context σ} {vars : LoopVars} {eventhdr : Bytes} {size : Nat}
    {s s' : σ} {next : LoopVars × Bytes × Nat}
    (h : event2Step ctx vars eventhdr size s = .next next s') : next.2.2 + 16 ≤ size := by
  have hwlp : wlp (event2Step ctx vars eventhdr size) (fun next _ => next.2.2 + 16 ≤ size)
      (fun _ _ => True) s := by
    apply wlp_bind
    apply wlp_mono (parseEvent2_layout eventhdr size s) _ fun _ _ _ => trivial
    intro layout t hlayout
    apply wlp_bind
    apply wlp_mono (wlp_true _ t) _ fun _ _ h => h
    intro vars u _
    apply wlp_bind
    apply wlp_mono (wlp_true _ u) _ fun _ _ h => h
    intro next v _
    show size - layout.eventSize + 16 ≤ size
    omega
  have hless := next_of_wlp hwlp h
  exact hless

/-! ## Contexts in lockstep -/

section Lockstep

variable {τ : Type} {R : σ → τ → Prop} {ctx : Context σ} {ctx' : Context τ}

/-- The callbacks in front of the event data are in lockstep. -/
structure Context.HeadAgree (R : σ → τ → Prop) (ctx : Context σ) (ctx' : Context τ) : Prop where
  specid : ∀ event, Lockstep R (ctx.specidCb event) (ctx'.specidCb event)
  initval : ∀ locality pcr, Lockstep R (ctx.initvalCb locality pcr) (ctx'.initvalCb locality pcr)
  event2hdr : ∀ hdr, Lockstep R (ctx.event2hdrCb hdr) (ctx'.event2hdrCb hdr)
  logEventhdr : ∀ event, Lockstep R (ctx.logEventhdrCb event) (ctx'.logEventhdrCb event)
  digest2 : ∀ digest, Lockstep R (ctx.digest2Cb digest) (ctx'.digest2Cb digest)
  locality : ∀ byte s t, R s t → R (ctx.startupLocality byte s) (ctx'.startupLocality byte t)

/-- The callbacks for one header are in lockstep. -/
structure Context.EventAgree (R : σ → τ → Prop) (ctx : Context σ) (ctx' : Context τ)
    (hdr : Header2) : Prop where
  initval : ∀ locality, Lockstep R (ctx.initvalCb locality hdr.pcrIndex)
    (ctx'.initvalCb locality hdr.pcrIndex)
  event2hdr : Lockstep R (ctx.event2hdrCb hdr) (ctx'.event2hdrCb hdr)
  digest2 : ∀ digest, Lockstep R (ctx.digest2Cb digest) (ctx'.digest2Cb digest)
  locality : ∀ byte s t, R s t → R (ctx.startupLocality byte s) (ctx'.startupLocality byte t)

theorem Context.HeadAgree.event (h : ctx.HeadAgree R ctx') (hdr : Header2) :
    ctx.EventAgree R ctx' hdr :=
  ⟨fun locality => h.initval locality _, h.event2hdr hdr, h.digest2, h.locality⟩

theorem digestLoop_lockstep {cb : Digest2 → Proc σ Bool} {cb' : Digest2 → Proc τ Bool}
    (h : ∀ d, Lockstep R (cb d) (cb' d)) (count : Nat) (digest : Bytes) (size : Nat) :
    Lockstep R (digestLoop cb count digest size) (digestLoop cb' count digest size) := by
  induction count generalizing digest size with
  | zero => exact Lockstep.pure ()
  | succ count ih =>
      apply Lockstep.bind (Lockstep.exitIf _ _)
      intro _
      apply Lockstep.bind (Lockstep.exitIf _ _)
      intro _
      apply Lockstep.bind (h _)
      intro ret
      apply Lockstep.bind (Lockstep.exitIf _ _)
      intro _
      exact ih _ _

theorem parseEvent2_lockstep (eventhdr : Bytes) (bufSize : Nat) :
    Lockstep R (parseEvent2 eventhdr bufSize) (parseEvent2 eventhdr bufSize) := by
  apply Lockstep.bind (Lockstep.exitIf _ _)
  intro _
  apply Lockstep.bind (Lockstep.inner _ _)
  intro counted
  apply Lockstep.bind (Lockstep.exitIf _ _)
  intro _
  apply Lockstep.bind (Lockstep.exitIf _ _)
  intro _
  apply Lockstep.bind (Lockstep.exitIf _ _)
  intro _
  exact Lockstep.pure _

theorem localityStep_lockstep {hdr : Header2} (h : ctx.EventAgree R ctx' hdr) (vars : LoopVars)
    (eventSize : Nat) (data : Bytes) :
    Lockstep R (localityStep ctx vars hdr eventSize data)
      (localityStep ctx' vars hdr eventSize data) := by
  apply Lockstep.ite
  · intro _
    apply Lockstep.bind (Lockstep.update (h.locality 4))
    intro _
    exact Lockstep.pure _
  · intro _
    apply Lockstep.ite
    · intro _
      apply Lockstep.bind (Lockstep.exitIf _ _)
      intro _
      apply Lockstep.bind (Lockstep.lift _)
      intro locality
      cases locality with
      | none => exact Lockstep.pure _
      | some locality =>
          apply Lockstep.bind (Lockstep.update (h.locality locality))
          intro _
          exact Lockstep.pure _
    · intro _
      exact Lockstep.pure _

theorem initvalStep_lockstep {hdr : Header2} (h : ctx.EventAgree R ctx' hdr)
    (vars : LoopVars) :
    Lockstep R (initvalStep ctx vars hdr.pcrIndex) (initvalStep ctx' vars hdr.pcrIndex) := by
  apply Lockstep.ite
  · intro _
    apply Lockstep.bind (h.initval _)
    intro _
    exact Lockstep.pure _
  · intro _
    exact Lockstep.pure _

theorem event2Head_lockstep {eventhdr : Bytes}
    (h : ctx.EventAgree R ctx' (header2At eventhdr)) (vars : LoopVars) (layout : Layout) :
    Lockstep R (event2Head ctx vars eventhdr layout) (event2Head ctx' vars eventhdr layout) := by
  apply Lockstep.bind (localityStep_lockstep h _ _ _)
  intro vars
  apply Lockstep.bind (initvalStep_lockstep h _)
  intro vars
  apply Lockstep.bind h.event2hdr
  intro _
  apply Lockstep.bind
  · apply Lockstep.bind (Lockstep.exitIf _ _)
    intro _
    exact digestLoop_lockstep h.digest2 _ _ _
  intro _
  apply Lockstep.bind (Lockstep.exitIf _ _)
  intro _
  exact Lockstep.pure _

theorem sha1Head_lockstep {eventhdr : Bytes}
    (h : Lockstep R (ctx.logEventhdrCb eventhdr) (ctx'.logEventhdrCb eventhdr)) (size : Nat) :
    Lockstep R (sha1Head ctx eventhdr size) (sha1Head ctx' eventhdr size) := by
  unfold sha1Head
  cases parseSha1LogEvent eventhdr size with
  | none => exact Lockstep.exit _
  | some eventSize =>
      apply Lockstep.bind h
      intro _
      apply Lockstep.bind (Lockstep.exitIf _ _)
      intro _
      exact Lockstep.pure _

end Lockstep

end MeasuredBoot.SrtmLog
