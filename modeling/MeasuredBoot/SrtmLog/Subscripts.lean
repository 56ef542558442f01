import MeasuredBoot.SrtmLog.Objects

/-! # Subscripts of the callbacks

The callbacks with each subscript of `eventlog` and `calc_pcrs` written out, over what a
subscript beyond the arrays does: it faults, as in `eventcb.c`, or leaves with a status.
A run that is the same either way evaluates none. The first subscript beyond the arrays
is that of a record for a requested register from 24 on; `contains` is no bounds check.
-/

namespace MeasuredBoot.SrtmLog

open Binary Imperative Imperative.Proc

variable {σ α : Type}

/-- What a subscript beyond the arrays does. -/
def outside (beyond : Option Int) : Proc σ α := beyond.elim fault exit

/-- A subscript of `eventlog` or `calc_pcrs`. -/
def subscript (beyond : Option Int) (index : Nat) : Proc σ Unit :=
  when (maxPcrs ≤ index) (outside beyond)

theorem subscript_of_lt (beyond : Option Int) {index : Nat} (h : index < maxPcrs) :
    (subscript beyond index : Proc σ Unit) = pure () := if_neg (by omega)

theorem subscript_of_ge (beyond : Option Int) {index : Nat} (h : maxPcrs ≤ index) :
    (subscript beyond index : Proc σ Unit) = outside beyond := if_pos h

theorem bind_outside {β : Type} {beyond : Option Int} {m : Proc σ α} {s t : σ}
    (h : m s = outside beyond t) (f : α → Proc σ β) : (m >>= f) s = outside beyond t := by
  rw [bind_apply, h]
  cases beyond <;> rfl

/-! ## The callbacks -/

namespace Subscripted

variable (beyond : Option Int)

def appendActive (text : Bytes) : Proc CbData Unit := do
  let s ← getState
  subscript beyond s.activePcr
  update (appendText text)

def addEvlog (text : Except Stop Bytes) : Proc CbData Unit := do
  let s ← getState
  when (s.activePcr ∈ s.pcrNums) do
    let formatted ← lift text
    let printed ← lift (snprintf formatted)
    appendActive beyond printed

def addEvlogDescription (description : Except Stop Bytes) : Proc CbData Unit := do
  let s ← getState
  addEvlog beyond (description.map (descriptionText s.format))

def eventSpecidCb (event : Bytes) : Proc CbData Unit :=
  when (ofLE (slice event 4 4) ≠ evNoAction) do
    update fun s => { s with activePcr := ofLE (slice event 0 4) }
    let s ← getState
    addEvlog beyond (.ok (sha1RecordText s.format (ofLE (slice event 4 4)) s.activePcr
      (slice event 8 20)))

def eventInitvalCb (locality : UInt8) (pcr : Nat) : Proc CbData Unit := do
  update fun s => { s with activePcr := pcr }
  let s ← getState
  addEvlog beyond (.ok (initvalText s.format locality.toNat pcr))

def event2HeaderCb (hdr : Header2) : Proc CbData Unit := do
  update fun s => { s with activePcr := hdr.pcrIndex }
  if hdr.eventType = evNoAction then
    update fun s => { s with noActionEventPending := true }
  else do
    let s ← getState
    addEvlog beyond (.ok (headerText s.format hdr.eventType hdr.pcrIndex))

/-- The check of `active_pcr` comes behind the record and in front of the register. -/
def processDigest (md : Md 32) (digest : Digest2) : Proc CbData Bool := do
  update (printMessage digest.algorithmId)
  let s ← getState
  addEvlog beyond (.ok (digestText s.format digest))
  if maxPcrs ≤ s.activePcr then
    return false
  else if digest.algorithmId = tpm2AlgSha256 then do
    subscript beyond s.activePcr
    update (extendActive md (sha256Digest digest.digest))
    update (recordAct .extend)
    return true
  else do
    update (recordAct .pass)
    return true

def eventDigestCb (md : Md 32) (digest : Digest2) : Proc CbData Bool := do
  let s ← getState
  if s.noActionEventPending then do
    update fun s => { s with noActionEventPending := false }
    update (recordAct .skip)
    return true
  else
    processDigest beyond md digest

def printIpl (size : Nat) (description : Bytes) : Proc CbData Unit := do
  let s ← getState
  forEach (fun line => addEvlog beyond (precisionText line.1 line.2))
    (iplLines size size description)
  when (s.format = .json) (addEvlog beyond (.ok (ascii "\"\n\x7d,\n")))

def eventIpl (size : Nat) (description : Bytes) : Proc CbData (Bool × Bytes) := do
  let s ← getState
  addEvlog beyond (.ok (iplOpening s.format))
  let description ← lift (replaceTabs description)
  printIpl beyond size description
  return (true, description)

def eventGpt (size : Nat) (data : Bytes) : Proc CbData Bool :=
  if size < 100 then return false
  else do
    addEvlogDescription beyond (.ok (gptDescription data))
    return true

def eventUefiVar (size : Nat) (data : Bytes) : Proc CbData Bool :=
  if size < 32 then return false
  else do
    addEvlogDescription beyond (.ok (variableDescription data))
    return true

def eventDataCb (event : Bytes) (type : Nat) : Proc CbData (Bool × Bytes) :=
  let size := ofLE (slice event 0 4)
  let data := event.drop 4
  if size = 0 then return (true, event)
  else if isVariableEvent type then do
    let ret ← eventUefiVar beyond size data
    return (ret, event)
  else if type = evIpl then do
    let left ← eventIpl beyond size data
    return (left.1, event.take 4 ++ left.2)
  else if type = evEfiGptEvent then do
    let ret ← eventGpt beyond size data
    return (ret, event)
  else if type = evNoAction then return (true, event)
  else do
    addEvlogDescription beyond (plainDescription type size data)
    return (true, event)

/-- The context of the parser with these callbacks. -/
def programContext (md : Md 32) : Context CbData where
  specidCb := eventSpecidCb beyond
  initvalCb := eventInitvalCb beyond
  event2hdrCb := event2HeaderCb beyond
  logEventhdrCb := eventSpecidCb beyond
  digest2Cb := eventDigestCb beyond md
  event2Cb := eventDataCb beyond
  startupLocality := setLocality

end Subscripted

/-- A subscript that faults is the program's. -/
theorem eventDigestCb_none (md : Md 32) :
    Subscripted.eventDigestCb none md = eventDigestCb md := by
  funext digest
  have hprocess : Subscripted.processDigest none md digest = processDigest md digest := by
    funext s
    unfold Subscripted.processDigest processDigest
    rw [bind_apply, bind_apply, update_apply, andThen_next, andThen_next, bind_apply, bind_apply,
      getState_apply, andThen_next, andThen_next]
    by_cases hin : maxPcrs ≤ (printMessage digest.algorithmId s).activePcr
    · rw [if_pos hin, if_pos hin]
      rfl
    · rw [if_neg hin, if_neg hin, subscript_of_lt none (by omega)]
      rfl
  unfold Subscripted.eventDigestCb
  rw [hprocess]
  rfl

theorem programContext_none (md : Md 32) :
    Subscripted.programContext none md = programContext md := by
  unfold Subscripted.programContext
  rw [eventDigestCb_none]
  rfl

/-! ## Events of registers in the arrays -/

/-- The active register is in the arrays, or nobody asked for it. -/
structure Safe (nums : List Nat) (s : CbData) : Prop where
  asked : s.pcrNums = nums
  active : s.activePcr ∈ nums → s.activePcr < maxPcrs

theorem Safe.setActive {nums : List Nat} {s : CbData} (h : Safe nums s) {pcr : Nat}
    (hpcr : pcr ∈ nums → pcr < maxPcrs) : Safe nums { s with activePcr := pcr } :=
  ⟨h.asked, hpcr⟩

section Safe

variable {beyond : Option Int} {nums : List Nat}

theorem appendActive_of_lt {s : CbData} (beyond : Option Int) (h : s.activePcr < maxPcrs)
    (text : Bytes) : Subscripted.appendActive beyond text s = .next () (appendText text s) := by
  unfold Subscripted.appendActive
  rw [bind_apply, getState_apply, andThen_next, subscript_of_lt beyond h]
  rfl

theorem addEvlog_sameOn (text : Except Stop Bytes) :
    SameOn (Safe nums) (Subscripted.addEvlog beyond text) (Subscripted.addEvlog none text) := by
  rintro s _ ⟨rfl, hs⟩
  unfold Subscripted.addEvlog
  rw [bind_apply, bind_apply, getState_apply, andThen_next, andThen_next]
  by_cases hmem : s.activePcr ∈ s.pcrNums
  · have hlt := hs.active (hs.asked ▸ hmem)
    rw [when, when, if_pos hmem, if_pos hmem]
    cases text with
    | error w => rfl
    | ok formatted =>
        rw [lift_ok_bind, lift_ok_bind]
        cases snprintf formatted with
        | error w => rfl
        | ok printed =>
            rw [lift_ok_bind, lift_ok_bind, appendActive_of_lt beyond hlt,
              appendActive_of_lt none hlt]
            exact ⟨rfl, rfl, hs.asked, hs.active⟩
  · rw [when, when, if_neg hmem, if_neg hmem]
    exact ⟨rfl, rfl, hs⟩

theorem addEvlogDescription_sameOn (description : Except Stop Bytes) :
    SameOn (Safe nums) (Subscripted.addEvlogDescription beyond description)
      (Subscripted.addEvlogDescription none description) := by
  apply Lockstep.bind SameOn.getState
  intro s
  exact addEvlog_sameOn _

theorem setActive_sameOn {pcr : Nat} (h : pcr ∈ nums → pcr < maxPcrs) :
    SameOn (Safe nums) (update fun s => { s with activePcr := pcr })
      (update fun s => { s with activePcr := pcr }) :=
  SameOn.update fun _ hs => hs.setActive h

theorem eventSpecidCb_sameOn {event : Bytes}
    (h : ofLE (slice event 4 4) ≠ evNoAction →
      ofLE (slice event 0 4) ∈ nums → ofLE (slice event 0 4) < maxPcrs) :
    SameOn (Safe nums) (Subscripted.eventSpecidCb beyond event)
      (Subscripted.eventSpecidCb none event) := by
  apply Lockstep.ite
  · intro htype
    apply Lockstep.bind (setActive_sameOn (h htype))
    intro _
    apply Lockstep.bind SameOn.getState
    intro s
    exact addEvlog_sameOn _
  · intro _
    exact Lockstep.pure ()

theorem eventInitvalCb_sameOn (locality : UInt8) {pcr : Nat} (h : pcr ∈ nums → pcr < maxPcrs) :
    SameOn (Safe nums) (Subscripted.eventInitvalCb beyond locality pcr)
      (Subscripted.eventInitvalCb none locality pcr) := by
  apply Lockstep.bind (setActive_sameOn h)
  intro _
  apply Lockstep.bind SameOn.getState
  intro s
  exact addEvlog_sameOn _

theorem event2HeaderCb_sameOn {hdr : Header2} (h : hdr.pcrIndex ∈ nums → hdr.pcrIndex < maxPcrs) :
    SameOn (Safe nums) (Subscripted.event2HeaderCb beyond hdr)
      (Subscripted.event2HeaderCb none hdr) := by
  apply Lockstep.bind (setActive_sameOn h)
  intro _
  apply Lockstep.ite
  · intro _
    exact SameOn.update fun _ hs => ⟨hs.asked, hs.active⟩
  · intro _
    apply Lockstep.bind SameOn.getState
    intro s
    exact addEvlog_sameOn _

theorem processDigest_sameOn (md : Md 32) (digest : Digest2) :
    SameOn (Safe nums) (Subscripted.processDigest beyond md digest)
      (Subscripted.processDigest none md digest) := by
  apply Lockstep.bind (SameOn.update fun _ hs => ⟨hs.asked, hs.active⟩)
  intro _
  apply Lockstep.bind SameOn.getState
  intro s
  apply Lockstep.bind (addEvlog_sameOn _)
  intro _
  apply Lockstep.ite
  · intro _
    exact Lockstep.pure false
  · intro hin
    rw [subscript_of_lt beyond (by omega), subscript_of_lt none (by omega)]
    apply Lockstep.ite
    · intro _
      apply Lockstep.bind (Lockstep.pure ())
      intro _
      apply Lockstep.bind (SameOn.update fun _ hs => ⟨hs.asked, hs.active⟩)
      intro _
      apply Lockstep.bind (SameOn.update fun _ hs => ⟨hs.asked, hs.active⟩)
      intro _
      exact Lockstep.pure true
    · intro _
      apply Lockstep.bind (SameOn.update fun _ hs => ⟨hs.asked, hs.active⟩)
      intro _
      exact Lockstep.pure true

theorem eventDigestCb_sameOn (md : Md 32) (digest : Digest2) :
    SameOn (Safe nums) (Subscripted.eventDigestCb beyond md digest)
      (Subscripted.eventDigestCb none md digest) := by
  apply Lockstep.bind SameOn.getState
  intro s
  apply Lockstep.ite
  · intro _
    apply Lockstep.bind (SameOn.update fun _ hs => ⟨hs.asked, hs.active⟩)
    intro _
    apply Lockstep.bind (SameOn.update fun _ hs => ⟨hs.asked, hs.active⟩)
    intro _
    exact Lockstep.pure true
  · intro _
    exact processDigest_sameOn md digest

theorem eventIpl_sameOn (size : Nat) (description : Bytes) :
    SameOn (Safe nums) (Subscripted.eventIpl beyond size description)
      (Subscripted.eventIpl none size description) := by
  apply Lockstep.bind SameOn.getState
  intro s
  apply Lockstep.bind (addEvlog_sameOn _)
  intro _
  apply Lockstep.bind (Lockstep.lift _)
  intro description
  apply Lockstep.bind
  · apply Lockstep.bind SameOn.getState
    intro s
    apply Lockstep.bind (Lockstep.forEach (fun _ => addEvlog_sameOn _) _)
    intro _
    exact Lockstep.when (addEvlog_sameOn _)
  · intro _
    exact Lockstep.pure _

/-- A description behind a check of the size. -/
theorem checkedDescription_sameOn (c : Prop) [Decidable c] (description : Except Stop Bytes) :
    SameOn (Safe nums)
      (if c then return false else do
        Subscripted.addEvlogDescription beyond description
        return true : Proc CbData Bool)
      (if c then return false else do
        Subscripted.addEvlogDescription none description
        return true) := by
  apply Lockstep.ite
  · intro _
    exact Lockstep.pure false
  · intro _
    apply Lockstep.bind (addEvlogDescription_sameOn _)
    intro _
    exact Lockstep.pure true

theorem eventDataCb_sameOn (event : Bytes) (type : Nat) :
    SameOn (Safe nums) (Subscripted.eventDataCb beyond event type)
      (Subscripted.eventDataCb none event type) := by
  apply Lockstep.ite
  · intro _
    exact Lockstep.pure _
  intro _
  apply Lockstep.ite
  · intro _
    apply Lockstep.bind (checkedDescription_sameOn _ _)
    intro _
    exact Lockstep.pure _
  intro _
  apply Lockstep.ite
  · intro _
    apply Lockstep.bind (eventIpl_sameOn _ _)
    intro _
    exact Lockstep.pure _
  intro _
  apply Lockstep.ite
  · intro _
    apply Lockstep.bind (checkedDescription_sameOn _ _)
    intro _
    exact Lockstep.pure _
  intro _
  apply Lockstep.ite
  · intro _
    exact Lockstep.pure _
  intro _
  apply Lockstep.bind (addEvlogDescription_sameOn _)
  intro _
  exact Lockstep.pure _

/-- For a header of a register in the arrays, or of one nobody asked for, the callbacks are
the program's. -/
theorem programContext_eventAgree (beyond : Option Int) (md : Md 32) {hdr : Header2}
    (h : hdr.pcrIndex ∈ nums → hdr.pcrIndex < maxPcrs) :
    (Subscripted.programContext beyond md).EventAgree (fun s t => s = t ∧ Safe nums s)
      (Subscripted.programContext none md) hdr where
  initval locality := eventInitvalCb_sameOn locality h
  event2hdr := event2HeaderCb_sameOn h
  digest2 digest := eventDigestCb_sameOn md digest
  locality := by
    rintro byte s _ ⟨rfl, hs⟩
    exact ⟨rfl, hs.asked, hs.active⟩

theorem deliverData_sameOn (beyond : Option Int) (md : Md 32) (event : Bytes) (type len : Nat) :
    SameOn (Safe nums) (deliverData (Subscripted.programContext beyond md) event type len)
      (deliverData (programContext md) event type len) := by
  rw [← programContext_none]
  apply Lockstep.bind (eventDataCb_sameOn _ _)
  intro left
  apply Lockstep.bind (Lockstep.exitIf _ _)
  intro _
  exact Lockstep.pure _

theorem sha1Head_sameOn (beyond : Option Int) (md : Md 32) {mem : Bytes} (size : Nat)
    (h : ofLE (slice mem 4 4) ≠ evNoAction → ofLE (slice mem 0 4) ∈ nums →
      ofLE (slice mem 0 4) < maxPcrs) :
    SameOn (Safe nums) (sha1Head (Subscripted.programContext beyond md) mem size)
      (sha1Head (programContext md) mem size) := by
  rw [← programContext_none]
  exact sha1Head_lockstep (eventSpecidCb_sameOn h) size

theorem event2Step_sameOn (beyond : Option Int) (md : Md 32) (vars : LoopVars) {mem : Bytes}
    (size : Nat) (h : (header2At mem).pcrIndex ∈ nums → (header2At mem).pcrIndex < maxPcrs) :
    SameOn (Safe nums) (event2Step (Subscripted.programContext beyond md) vars mem size)
      (event2Step (programContext md) vars mem size) := by
  apply Lockstep.bind (parseEvent2_lockstep _ _)
  intro layout
  have hagree := programContext_eventAgree beyond md h
  rw [programContext_none] at hagree
  apply Lockstep.bind (event2Head_lockstep hagree _ _)
  intro vars
  apply Lockstep.bind (deliverData_sameOn beyond md _ _ _)
  intro next
  exact Lockstep.pure _

/-! ## The first subscript beyond the arrays -/

theorem addEvlog_outside {s : CbData} {text : Bytes} (hmem : s.activePcr ∈ s.pcrNums)
    (hge : maxPcrs ≤ s.activePcr) (hshort : text.length ≤ 4095) :
    Subscripted.addEvlog beyond (.ok text) s = outside beyond s := by
  have hprinted : snprintf text = .ok (text.take 4095) := if_pos (by omega)
  unfold Subscripted.addEvlog
  rw [bind_apply, getState_apply, andThen_next, when, if_pos hmem, lift_ok_bind, hprinted,
    lift_ok_bind, Subscripted.appendActive, bind_apply, getState_apply, andThen_next]
  apply bind_outside
  rw [subscript_of_ge beyond hge]

theorem sha1RecordText_short (format : Format) (type : Nat) {pcr : Nat} {digest : Bytes}
    (h : pcr < 2 ^ 32) (hdigest : digest.length ≤ 20) :
    (sha1RecordText format type pcr digest).length ≤ 4095 := by
  have hname := (eventtypeToString_spec type).2
  have hpcr := decText_short h
  have hhex := hexText_length digest
  cases format <;> simp [sha1RecordText, ascii] <;> omega

theorem eventInitvalCb_outside (beyond : Option Int) (locality : UInt8) {pcr : Nat} {s : CbData}
    (hmem : pcr ∈ s.pcrNums) (hge : maxPcrs ≤ pcr) (hlt : pcr < 32) :
    ∃ t : CbData, Subscripted.eventInitvalCb beyond locality pcr s = outside beyond t := by
  refine ⟨{ s with activePcr := pcr }, ?_⟩
  exact addEvlog_outside (s := { s with activePcr := pcr }) hmem hge
    (initvalText_short s.format locality (by omega))

theorem eventSpecidCb_outside (beyond : Option Int) {event : Bytes} {s : CbData}
    (htype : ofLE (slice event 4 4) ≠ evNoAction) (hmem : ofLE (slice event 0 4) ∈ s.pcrNums)
    (hge : maxPcrs ≤ ofLE (slice event 0 4)) :
    ∃ t : CbData, Subscripted.eventSpecidCb beyond event s = outside beyond t := by
  refine ⟨{ s with activePcr := ofLE (slice event 0 4) }, ?_⟩
  have hindex : ofLE (slice event 0 4) < 2 ^ 32 := by
    have hlt := ofLE_lt (slice event 0 4)
    have hlen : (slice event 0 4).length ≤ 4 := List.length_take_le ..
    have hpow : 256 ^ (slice event 0 4).length ≤ 256 ^ 4 := Nat.pow_le_pow_right (by decide) hlen
    omega
  have hdigest : (slice event 8 20).length ≤ 20 := List.length_take_le ..
  unfold Subscripted.eventSpecidCb
  rw [when, if_pos htype]
  exact addEvlog_outside (s := { s with activePcr := ofLE (slice event 0 4) }) hmem hge
    (sha1RecordText_short s.format _ hindex hdigest)

/-- The first event of the old format that is logged for such a register. -/
theorem sha1Head_outside (beyond : Option Int) (md : Md 32) {mem : Bytes} {size : Nat} {s : CbData}
    (hasked : s.pcrNums = nums) (hparse : parseSha1LogEvent mem size ≠ none)
    (htype : ofLE (slice mem 4 4) ≠ evNoAction) (hmem : ofLE (slice mem 0 4) ∈ nums)
    (hge : maxPcrs ≤ ofLE (slice mem 0 4)) : ∃ t : CbData,
      sha1Head (Subscripted.programContext beyond md) mem size s = outside beyond t := by
  obtain ⟨eventSize, hsome⟩ := Option.ne_none_iff_exists'.mp hparse
  obtain ⟨t, ht⟩ := eventSpecidCb_outside beyond htype (hasked ▸ hmem) hge
  refine ⟨t, ?_⟩
  unfold sha1Head
  rw [hsome]
  exact bind_outside ht _

/-- No initial value was announced for a requested register from 24 on. -/
def Unannounced (nums : List Nat) (vars : LoopVars) : Prop :=
  ∀ q ∈ nums, maxPcrs ≤ q → q < 32 → vars.pcrOccurenceVector &&& pcrBit q = 0

theorem localityStep_other (ctx : Context σ) (vars : LoopVars) {hdr : Header2}
    (h : hdr.pcrIndex ≠ 0) (eventSize : Nat) (data : Bytes) :
    localityStep ctx vars hdr eventSize data = pure vars := by
  unfold localityStep
  rw [if_neg fun hand => h hand.2, if_neg fun hand => h hand.2.2]

theorem initvalStep_first (ctx : Context σ) {vars : LoopVars} {pcr : Nat}
    (h : vars.pcrOccurenceVector &&& pcrBit pcr = 0) :
    initvalStep ctx vars pcr = (do
      ctx.initvalCb (if pcr ≠ 0 then 0 else vars.locality) pcr
      return { vars with
        pcrOccurenceVector := vars.pcrOccurenceVector ||| pcrBit pcr
        locality := if pcr ≠ 0 then 0 else vars.locality }) := if_pos h

/-- The first event of such a register is announced beyond the array. -/
theorem event2Step_outside (beyond : Option Int) (md : Md 32) {vars : LoopVars} {mem : Bytes}
    {size : Nat} {layout : Layout} {s : CbData} (hasked : s.pcrNums = nums)
    (hvars : Unannounced nums vars) (hparse : parseEvent2 mem size s = .next layout s)
    (hmem : (header2At mem).pcrIndex ∈ nums) (hge : maxPcrs ≤ (header2At mem).pcrIndex) :
    ∃ t : CbData, event2Step (Subscripted.programContext beyond md) vars mem size s =
      outside beyond t := by
  have hlt : (header2At mem).pcrIndex < 32 :=
    (next_of_wlp (parseEvent2_spec mem size s) hparse).2.2.1
  have hne : (header2At mem).pcrIndex ≠ 0 := by
    unfold maxPcrs at hge
    omega
  obtain ⟨t, ht⟩ := eventInitvalCb_outside beyond (s := s) 0 (hasked ▸ hmem) hge hlt
  refine ⟨t, ?_⟩
  have hbit := hvars _ hmem hge hlt
  unfold event2Step
  rw [bind_apply, hparse, andThen_next]
  apply bind_outside
  unfold event2Head
  rw [localityStep_other _ _ hne, pure_bind]
  apply bind_outside
  rw [initvalStep_first _ hbit, if_pos hne]
  exact bind_outside ht _

theorem localityStep_vector (ctx : Context σ) (vars : LoopVars) (hdr : Header2)
    (eventSize : Nat) (data : Bytes) :
    Yields (fun next => next.pcrOccurenceVector = vars.pcrOccurenceVector) (fun _ => True)
      (localityStep ctx vars hdr eventSize data) := by
  apply Yields.ite
  · intro _
    exact fun _ => rfl
  · intro _
    apply Yields.ite
    · intro _
      apply Yields.bind (Yields.any _)
      intro _ _
      apply Yields.bind (Yields.any _)
      intro locality _
      cases locality with
      | none => exact Yields.pure rfl
      | some locality =>
          apply Yields.bind (Yields.any _)
          intro _ _
          exact Yields.pure rfl
    · intro _
      exact Yields.pure rfl

theorem initvalStep_vector (ctx : Context σ) (vars : LoopVars) (pcr : Nat) :
    Yields (fun next => next.pcrOccurenceVector = vars.pcrOccurenceVector ∨
      next.pcrOccurenceVector = vars.pcrOccurenceVector ||| pcrBit pcr) (fun _ => True)
      (initvalStep ctx vars pcr) := by
  apply Yields.ite
  · intro _
    apply Yields.bind (Yields.any _)
    intro _ _
    exact Yields.pure (Or.inr rfl)
  · intro _
    exact Yields.pure (Or.inl rfl)

/-- An event announces no other register than its own. -/
theorem event2Step_vector (ctx : Context σ) (vars : LoopVars) (mem : Bytes) (size : Nat) :
    Yields (fun next => next.1.pcrOccurenceVector = vars.pcrOccurenceVector ∨
      next.1.pcrOccurenceVector =
        vars.pcrOccurenceVector ||| pcrBit (header2At mem).pcrIndex) (fun _ => True)
      (event2Step ctx vars mem size) := by
  apply Yields.bind (Yields.any _)
  intro layout _
  have hhead : Yields (fun next => next.pcrOccurenceVector = vars.pcrOccurenceVector ∨
      next.pcrOccurenceVector = vars.pcrOccurenceVector ||| pcrBit (header2At mem).pcrIndex)
      (fun _ => True) (event2Head ctx vars mem layout) := by
    apply Yields.bind (localityStep_vector ctx vars _ _ _)
    intro vars₁ hlocality
    apply Yields.bind (initvalStep_vector ctx vars₁ _)
    intro vars₂ hinitval
    rw [hlocality] at hinitval
    apply Yields.bind (Yields.any _)
    intro _ _
    apply Yields.bind (Yields.any _)
    intro _ _
    apply Yields.bind (Yields.any _)
    intro _ _
    exact Yields.pure hinitval
  apply Yields.bind hhead
  intro vars₁ hvector
  apply Yields.bind (Yields.any _)
  intro _ _
  exact Yields.pure hvector

end Safe

end MeasuredBoot.SrtmLog
