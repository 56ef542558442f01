import MeasuredBoot.SrtmLog.Decode
import MeasuredBoot.SrtmLog.ReadOnly

/-! # What the parser does to the registers

The callbacks seen from the calculated PCRs: the machine that applies the events of a
log one by one, without any text, and the accepted runs of the parser as runs of it.
-/

namespace MeasuredBoot.SrtmLog

open Binary Imperative Imperative.Proc

/-! ## The machine -/

/-- The calculated PCRs, the pending flag, what was done with the digests and what was
printed about them. -/
structure Registers where
  pcrs : Nat → Digest 32
  pending : Bool
  acts : List DigestAct
  messages : Bytes

def CbData.registers (s : CbData) : Registers :=
  ⟨s.calcPcrs, s.noActionEventPending, s.acts, s.messages⟩

def Event.isNoAction (e : Event) : Bool := e.eventType = evNoAction

def Event.isHcrtm (e : Event) : Bool := e.eventType = evEfiHcrtmEvent && e.pcrIndex = 0

theorem Event.isNoAction_iff (e : Event) : e.isNoAction = true ↔ e.eventType = evNoAction :=
  decide_eq_true_iff

theorem Event.isHcrtm_iff (e : Event) :
    e.isHcrtm = true ↔ e.eventType = evEfiHcrtmEvent ∧ e.pcrIndex = 0 := by
  simp [Event.isHcrtm]

/-- The locality an `EV_NO_ACTION_STRUCT` with the `StartupLocality` signature gives. -/
def Event.startupLocality (e : Event) : Option UInt8 :=
  if e.isNoAction ∧ e.pcrIndex = 0 ∧ e.window.take 16 = startupLocalitySignature then
    e.window[16]?
  else none

def applyDigest (md : Md 32) (pcr : Nat) (r : Registers) (d : Digest2) : Registers :=
  if r.pending then { r with pending := false, acts := r.acts ++ [.skip] }
  else if d.algorithmId = tpm2AlgSha256 then
    { r with
      pcrs := Function.update r.pcrs pcr (hashExtend md (r.pcrs pcr) (sha256Digest d.digest))
      acts := r.acts ++ [.extend]
      messages := r.messages ++ algoMessage d.algorithmId }
  else
    { r with
      acts := r.acts ++ [.pass]
      messages := r.messages ++ algoMessage d.algorithmId }

/-- The locality the parser takes from an event. -/
def Event.locality (e : Event) (foundHcrtm : Bool) : Option UInt8 :=
  if e.isHcrtm then some 4 else if foundHcrtm then none else e.startupLocality

def setStart (locality : Option UInt8) (pcrs : Nat → Digest 32) : Nat → Digest 32 :=
  match locality with
  | some byte => Function.update pcrs 0 (withLastByte (pcrs 0) byte)
  | none => pcrs

def startEvent (foundHcrtm : Bool) (e : Event) (r : Registers) : Registers :=
  { r with
    pcrs := setStart (e.locality foundHcrtm) r.pcrs
    pending := e.isNoAction || r.pending }

/-- One event, after an H-CRTM event or not. -/
def applyEvent (md : Md 32) (state : Bool × Registers) (e : Event) : Bool × Registers :=
  (state.1 || e.isHcrtm,
    e.digests.foldl (applyDigest md e.pcrIndex) (startEvent state.1 e state.2))

/-! ## Text leaves the registers alone -/

/-- The part of the callbacks' data that matters for the registers stays. -/
def Keeps (s t : CbData) : Prop := t.registers = s.registers ∧ t.activePcr = s.activePcr

theorem addEvlog_keeps (text : Except Stop Bytes) (s : CbData) :
    wlp (addEvlog text) (fun _ => Keeps s) (fun r _ => r = 0) s := by
  apply wlp_bind
  apply wlp_getState
  apply wlp_when
  · intro _
    apply wlp_bind
    apply wlp_lift
    intro formatted _
    apply wlp_bind
    apply wlp_lift
    intro printed _
    apply wlp_bind
    apply wlp_getState
    apply wlp_bind
    apply wlp_when
    · intro _
      trivial
    · intro _
      exact ⟨rfl, rfl⟩
  · intro _
    exact ⟨rfl, rfl⟩

theorem Keeps.trans {s t u : CbData} (h : Keeps s t) (h' : Keeps t u) : Keeps s u :=
  ⟨h'.1.trans h.1, h'.2.trans h.2⟩

theorem addEvlogDescription_keeps (description : Except Stop Bytes) (s : CbData) :
    wlp (addEvlogDescription description) (fun _ => Keeps s) (fun r _ => r = 0) s := by
  apply wlp_bind
  apply wlp_getState
  exact addEvlog_keeps _ s

theorem printIpl_keeps (size : Nat) (description : Bytes) (s : CbData) :
    wlp (printIpl size description) (fun _ => Keeps s) (fun r _ => r = 0) s := by
  apply wlp_bind
  apply wlp_getState
  apply wlp_bind
  apply wlp_mono (wlp_forEach (I := Keeps s) (E := fun r _ => r = 0) _ ⟨rfl, rfl⟩) _
    fun _ _ h => h
  · intro line _ t ht
    apply wlp_mono (addEvlog_keeps _ t) _ fun _ _ h => h
    intro _ u hu
    exact ht.trans hu
  · intro _ t ht
    apply wlp_when
    · intro _
      apply wlp_mono (addEvlog_keeps _ t) _ fun _ _ h => h
      intro _ u hu
      exact ht.trans hu
    · intro _
      exact ht

/-! ## Headers and digests -/

theorem eventInitvalCb_spec (locality : UInt8) (pcr : Nat) (s : CbData) :
    wlp (eventInitvalCb locality pcr) (fun _ t => t.registers = s.registers) (fun r _ => r = 0)
      s := by
  apply wlp_bind
  apply wlp_update
  apply wlp_bind
  apply wlp_getState
  apply wlp_mono (addEvlog_keeps _ _) _ fun _ _ h => h
  intro _ t ht
  exact ht.1

theorem event2HeaderCb_spec (hdr : Header2) (s : CbData) :
    wlp (event2HeaderCb hdr)
      (fun _ t => t.registers = { s.registers with
          pending := decide (hdr.eventType = evNoAction) || s.registers.pending } ∧
        t.activePcr = hdr.pcrIndex) (fun r _ => r = 0) s := by
  apply wlp_bind
  apply wlp_update
  apply wlp_ite
  · intro hno
    apply wlp_update
    simp [CbData.registers, hno]
  · intro hno
    apply wlp_bind
    apply wlp_getState
    apply wlp_mono (addEvlog_keeps _ _) _ fun _ _ h => h
    intro _ t ht
    rw [ht.1, ht.2]
    simp [CbData.registers, hno]

/-- The ways through `event_digest_cb`: the digest is skipped, or logged and then extended
or passed over. -/
theorem wlp_digestRound {md : Md 32} {d : Digest2} {s : CbData} {Q : Unit → CbData → Prop}
    (hskip : s.noActionEventPending = true →
      Q () (recordAct .skip { s with noActionEventPending := false }))
    (hlog : s.noActionEventPending = false →
      wlp (addEvlog (.ok (digestText s.format d)))
        (fun _ t =>
          (d.algorithmId = tpm2AlgSha256 →
            Q () (recordAct .extend (extendActive md (sha256Digest d.digest) t))) ∧
          (d.algorithmId ≠ tpm2AlgSha256 → Q () (recordAct .pass t)))
        (fun r _ => r = 0) (printMessage d.algorithmId s)) :
    wlp (digestRound (eventDigestCb md) d) Q (fun r _ => r = 0) s := by
  apply wlp_bind
  apply wlp_bind
  apply wlp_getState
  apply wlp_ite
  · intro hpending
    apply wlp_bind
    apply wlp_update
    apply wlp_bind
    apply wlp_update
    apply wlp_pure
    apply wlp_exitIf
    · intro _
      rfl
    · intro _
      exact hskip hpending
  · intro hpending
    apply wlp_bind
    apply wlp_update
    apply wlp_bind
    apply wlp_getState
    apply wlp_bind
    apply wlp_mono (hlog (Bool.eq_false_iff.mpr hpending)) _ fun _ _ h => h
    intro _ t ht
    apply wlp_ite
    · intro _
      apply wlp_pure
      apply wlp_exitIf
      · intro _
        rfl
      · intro h
        exact absurd rfl h
    · intro _
      apply wlp_ite
      · intro halg
        apply wlp_bind
        apply wlp_update
        apply wlp_bind
        apply wlp_update
        apply wlp_pure
        apply wlp_exitIf
        · intro _
          rfl
        · intro _
          exact ht.1 halg
      · intro halg
        apply wlp_bind
        apply wlp_update
        apply wlp_pure
        apply wlp_exitIf
        · intro _
          rfl
        · intro _
          exact ht.2 halg

theorem eventDigestCb_spec (md : Md 32) (d : Digest2) (s : CbData) :
    wlp (digestRound (eventDigestCb md) d)
      (fun _ t => t.registers = applyDigest md s.activePcr s.registers d ∧
        t.activePcr = s.activePcr) (fun r _ => r = 0) s := by
  apply wlp_digestRound
  · intro hpending
    simp [CbData.registers, applyDigest, recordAct, hpending]
  · intro hpending
    apply wlp_mono (addEvlog_keeps _ _) _ fun _ _ h => h
    intro _ t ht
    obtain ⟨hpcrs, hflag, hacts, hmessages⟩ := Registers.mk.inj ht.1
    have hpcr : t.activePcr = s.activePcr := ht.2
    constructor
    · intro halg
      simp [CbData.registers, applyDigest, recordAct, extendActive, printMessage, hpcrs, hflag,
        hacts, hmessages, hpcr, hpending, halg]
    · intro halg
      simp [CbData.registers, applyDigest, recordAct, printMessage, hpcrs, hflag, hacts,
        hmessages, hpcr, hpending, halg]

theorem digests_spec (md : Md 32) (digests : List Digest2) (s : CbData) :
    wlp (forEach (digestRound (eventDigestCb md)) digests)
      (fun _ t => t.registers = digests.foldl (applyDigest md s.activePcr) s.registers)
      (fun r _ => r = 0) s := by
  induction digests generalizing s with
  | nil => rfl
  | cons d digests ih =>
      apply wlp_bind
      apply wlp_mono (eventDigestCb_spec md d s) _ fun _ _ h => h
      intro _ t ht
      apply wlp_mono (ih t) _ fun _ _ h => h
      intro _ u hu
      rw [hu, ht.1, ht.2]
      rfl

/-! ## One event -/

theorem eventAt_pcrIndex (mem : Bytes) : (eventAt mem).pcrIndex = (header2At mem).pcrIndex := rfl
theorem eventAt_eventType (mem : Bytes) : (eventAt mem).eventType = (header2At mem).eventType := rfl

/-- The memory at the data of an event. -/
def dataAt (mem : Bytes) : Bytes := (mem.drop (bodyOffset mem)).drop 4

theorem eventAt_window (mem : Bytes) : (eventAt mem).window = (dataAt mem).take 17 := by
  show slice mem (bodyOffset mem + 4) 17 = _
  rw [slice, dataAt, List.drop_drop]

/-- `memcmp` and the locality byte behind the signature, where they are in the buffer. -/
theorem localityAt_spec {data : Bytes} {locality : Option UInt8}
    (h : localityAt data = .ok locality) :
    locality = if (data.take 17).take 16 = startupLocalitySignature then (data.take 17)[16]?
      else none := by
  unfold localityAt copyFrom at h
  by_cases h16 : 0 + 16 ≤ data.length
  · rw [if_pos h16] at h
    have hsignature : slice data 0 16 = (data.take 17).take 16 := by
      simp [slice, List.take_take]
    simp only [bind, Except.bind, pure, Except.pure, hsignature] at h
    by_cases hsig : (data.take 17).take 16 = startupLocalitySignature
    · rw [if_pos hsig] at h ⊢
      by_cases h17 : 16 + 1 ≤ data.length
      · rw [if_pos h17] at h
        simp only [Except.ok.injEq] at h
        rw [← h, slice, List.head?_take, List.head?_drop, List.getElem?_take]
        simp
      · rw [if_neg h17] at h
        cases h
    · rw [if_neg hsig] at h ⊢
      cases h
      rfl
  · rw [if_neg h16] at h
    cases h

/-- `calc_pcrs[0][31]` where the event gives a locality. -/
def takeLocality (locality : Option UInt8) (s : CbData) : CbData :=
  match locality with
  | some byte => setLocality byte s
  | none => s

theorem takeLocality_registers (locality : Option UInt8) (s : CbData) :
    (takeLocality locality s).registers =
      { s.registers with pcrs := setStart locality s.registers.pcrs } := by
  cases locality <;> rfl

theorem localityStep_spec (md : Md 32) (vars : LoopVars) (mem : Bytes) (eventSize : Nat)
    (s : CbData) :
    wlp (localityStep (programContext md) vars (header2At mem) eventSize (dataAt mem))
      (fun vars' t => vars' =
          { vars with
            foundHcrtm := vars.foundHcrtm || (eventAt mem).isHcrtm
            locality := ((eventAt mem).locality vars.foundHcrtm).getD vars.locality } ∧
        t = takeLocality ((eventAt mem).locality vars.foundHcrtm) s)
      (fun r _ => r = 0) s := by
  apply wlp_ite
  · intro hhcrtm
    have hevent : (eventAt mem).isHcrtm = true := (Event.isHcrtm_iff _).mpr hhcrtm
    apply wlp_bind
    apply wlp_update
    apply wlp_pure
    simp [hevent, Event.locality, takeLocality, programContext]
  · intro hhcrtm
    have hevent : (eventAt mem).isHcrtm = false :=
      Bool.eq_false_iff.mpr fun h => hhcrtm ((Event.isHcrtm_iff _).mp h)
    apply wlp_ite
    · intro hnoAction
      obtain ⟨hfound, htype, hpcr⟩ := hnoAction
      have hfound' : vars.foundHcrtm = false := Bool.eq_false_iff.mpr hfound
      apply wlp_bind
      apply wlp_exitIf
      · intro _
        rfl
      intro _
      apply wlp_bind
      apply wlp_lift
      intro locality hlocality
      have hstart : (eventAt mem).startupLocality = locality := by
        rw [localityAt_spec hlocality, Event.startupLocality, eventAt_window, Event.isNoAction,
          eventAt_eventType, eventAt_pcrIndex, htype, hpcr]
        simp
      have htaken : (eventAt mem).locality vars.foundHcrtm = locality := by
        simp [Event.locality, hevent, hfound', hstart]
      rw [htaken]
      cases locality with
      | none =>
          apply wlp_pure
          simp [hevent, takeLocality]
      | some byte =>
          apply wlp_bind
          apply wlp_update
          apply wlp_pure
          simp [hevent, takeLocality, programContext]
    · intro hnoAction
      have hnone : (eventAt mem).locality vars.foundHcrtm = none := by
        unfold Event.locality
        rw [hevent, if_neg Bool.false_ne_true]
        by_cases hfound : vars.foundHcrtm = true
        · rw [if_pos hfound]
        · rw [if_neg hfound, Event.startupLocality, if_neg]
          intro h
          exact hnoAction ⟨hfound, (Event.isNoAction_iff _).mp h.1, h.2.1⟩
      apply wlp_pure
      rw [hnone]
      simp [hevent, takeLocality]

theorem initvalStep_spec (md : Md 32) (vars : LoopVars) (pcrIndex : Nat) (s : CbData) :
    wlp (initvalStep (programContext md) vars pcrIndex)
      (fun vars' t => vars'.foundHcrtm = vars.foundHcrtm ∧ t.registers = s.registers)
      (fun r _ => r = 0) s := by
  apply wlp_ite
  · intro _
    apply wlp_bind
    apply wlp_mono (eventInitvalCb_spec _ _ _) _ fun _ _ h => h
    intro _ t ht
    exact ⟨rfl, ht⟩
  · intro _
    exact ⟨rfl, rfl⟩

theorem event2Head_spec (md : Md 32) (vars : LoopVars) (mem : Bytes) (layout : Layout)
    (hlayout : 12 + layout.digestsSize = bodyOffset mem) (s : CbData) :
    wlp (event2Head (programContext md) vars mem layout)
      (fun vars' t => (vars'.foundHcrtm, t.registers) =
        applyEvent md (vars.foundHcrtm, s.registers) (eventAt mem))
      (fun r _ => r = 0) s := by
  have hdigests : totalSize (digestsAt (header2At mem).digestCount (mem.drop 12)) ≤
      layout.digestsSize := by
    unfold bodyOffset at hlayout
    omega
  apply wlp_bind
  rw [hlayout]
  apply wlp_mono (localityStep_spec md vars mem layout.eventSize s) _ fun _ _ h => h
  intro vars₁ t₁ h₁
  apply wlp_bind
  apply wlp_mono (initvalStep_spec md vars₁ _ t₁) _ fun _ _ h => h
  intro vars₂ t₂ h₂
  apply wlp_bind
  apply wlp_mono (event2HeaderCb_spec _ t₂) _ fun _ _ h => h
  intro _ t₃ h₃
  apply wlp_bind
  apply wlp_bind
  apply wlp_exitIf
  · intro _
    rfl
  intro _
  rw [digestLoop_eq _ _ _ _ hdigests]
  apply wlp_mono (digests_spec md _ t₃) _ fun _ _ h => h
  intro _ t₄ h₄
  apply wlp_bind
  apply wlp_exitIf
  · intro _
    rfl
  intro _
  apply wlp_pure
  rw [h₄, h₃.1, h₃.2, h₂.1, h₂.2, h₁.1, h₁.2, takeLocality_registers]
  rfl

/-! ## The memory behind an event -/

/-- What the data callback may leave behind an event. -/
def LeftBehind (mem mem' : Bytes) : Prop := mem' = mem ∨ mem' = spacesForTabs mem

theorem replaceTabs_ok {description left : Bytes} (h : replaceTabs description = .ok left) :
    left = spacesForTabs description := by
  by_cases hnul : 0 ∈ description
  · rw [replaceTabs_of_nul hnul] at h
    exact (Except.ok.inj h).symm
  · rw [replaceTabs_of_not_nul hnul] at h
    cases h

theorem spacesForTabs_drop_cases (mem : Bytes) (n : Nat) :
    LeftBehind (mem.drop n) ((spacesForTabs mem).drop n) := by
  induction mem generalizing n with
  | nil => exact Or.inl rfl
  | cons d rest ih =>
      cases n with
      | zero => exact Or.inr rfl
      | succ n =>
          by_cases hd : d = 0
          · left
            rw [spacesForTabs, if_pos hd]
          · rw [spacesForTabs, if_neg hd]
            exact ih n

/-- The ways through `event_data_cb`: nothing is printed, the data is turned down, or it is
printed as a description or as the text of an IPL event. -/
theorem wlp_eventDataCb {event : Bytes} {type : Nat} {s : CbData}
    {Q : Bool × Bytes → CbData → Prop} {E : Int → CbData → Prop}
    (hquiet : ofLE (slice event 0 4) = 0 ∨ type = evNoAction → Q (true, event) s)
    (hrefused : Q (false, event) s)
    (hvariable : ofLE (slice event 0 4) ≠ 0 → isVariableEvent type = true →
      wlp (addEvlogDescription (.ok (variableDescription (event.drop 4))))
        (fun _ => Q (true, event)) E s)
    (hipl : ofLE (slice event 0 4) ≠ 0 → type = evIpl →
      wlp (eventIpl (ofLE (slice event 0 4)) (event.drop 4))
        (fun left => Q (left.1, event.take 4 ++ left.2)) E s)
    (hgpt : ofLE (slice event 0 4) ≠ 0 → type = evEfiGptEvent →
      wlp (addEvlogDescription (.ok (gptDescription (event.drop 4))))
        (fun _ => Q (true, event)) E s)
    (hplain : ofLE (slice event 0 4) ≠ 0 → ¬isVariableEvent type = true → type ≠ evIpl →
      type ≠ evEfiGptEvent → type ≠ evNoAction →
        wlp (addEvlogDescription
          (plainDescription type (ofLE (slice event 0 4)) (event.drop 4)))
          (fun _ => Q (true, event)) E s) :
    wlp (eventDataCb event type) Q E s := by
  apply wlp_ite
  · intro hsize
    exact hquiet (Or.inl hsize)
  intro hsize
  apply wlp_ite
  · intro htype
    apply wlp_bind
    apply wlp_ite
    · intro _
      exact hrefused
    · intro _
      apply wlp_bind
      exact hvariable hsize htype
  intro hnotVariable
  apply wlp_ite
  · intro htype
    apply wlp_bind
    exact hipl hsize htype
  intro hnotIpl
  apply wlp_ite
  · intro htype
    apply wlp_bind
    apply wlp_ite
    · intro _
      exact hrefused
    · intro _
      apply wlp_bind
      exact hgpt hsize htype
  intro hnotGpt
  apply wlp_ite
  · intro htype
    exact hquiet (Or.inr htype)
  · intro htype
    apply wlp_bind
    exact hplain hsize hnotVariable hnotIpl hnotGpt htype

theorem eventIpl_spec (event : Bytes) (size : Nat) (s : CbData) :
    wlp (eventIpl size (event.drop 4))
      (fun left t => t.registers = s.registers ∧
        ∀ n, LeftBehind (event.drop (4 + n)) ((event.take 4 ++ left.2).drop (4 + n)))
      (fun r _ => r = 0) s := by
  apply wlp_bind
  apply wlp_getState
  apply wlp_bind
  apply wlp_mono (addEvlog_keeps _ s) _ fun _ _ h => h
  intro _ t ht
  apply wlp_bind
  apply wlp_lift
  intro description hdescription
  apply wlp_bind
  apply wlp_mono (printIpl_keeps _ _ t) _ fun _ _ h => h
  intro _ u hu
  refine ⟨(ht.trans hu).1, ?_⟩
  intro n
  rw [replaceTabs_ok hdescription]
  have hcases := spacesForTabs_drop_cases (event.drop 4) n
  rw [List.drop_drop] at hcases
  by_cases hshort : event.length < 4
  · have hempty : event.drop 4 = [] := List.drop_of_length_le (by omega)
    rw [hempty]
    left
    simp [spacesForTabs, List.take_of_length_le (Nat.le_of_lt hshort)]
  · have hlong : (event.take 4).length = 4 := by
      rw [List.length_take]
      omega
    have hdrop : (event.take 4 ++ spacesForTabs (event.drop 4)).drop (4 + n) =
        (spacesForTabs (event.drop 4)).drop n := by
      rw [List.drop_append, hlong, List.drop_of_length_le (by omega)]
      simp
    rw [hdrop]
    exact hcases

theorem eventDataCb_spec (event : Bytes) (type : Nat) (s : CbData) :
    wlp (eventDataCb event type)
      (fun left t => t.registers = s.registers ∧
        ∀ n, LeftBehind (event.drop (4 + n)) (left.2.drop (4 + n)))
      (fun r _ => r = 0) s := by
  have hsame : ∀ n, LeftBehind (event.drop (4 + n)) (event.drop (4 + n)) := fun _ => Or.inl rfl
  have hprinted : ∀ description : Except Stop Bytes, wlp (addEvlogDescription description)
      (fun _ t => t.registers = s.registers ∧
        ∀ n, LeftBehind (event.drop (4 + n)) (event.drop (4 + n)))
      (fun r _ => r = 0) s := by
    intro description
    apply wlp_mono (addEvlogDescription_keeps description s) _ fun _ _ h => h
    intro _ t ht
    exact ⟨ht.1, hsame⟩
  apply wlp_eventDataCb
  · intro _
    exact ⟨rfl, hsame⟩
  · exact ⟨rfl, hsame⟩
  · intro _ _
    exact hprinted _
  · intro _ _
    exact eventIpl_spec event _ s
  · intro _ _
    exact hprinted _
  · intro _ _ _ _ _
    exact hprinted _

theorem bodyOffset_le_eventSizeAt (mem : Bytes) : bodyOffset mem + 4 ≤ eventSizeAt mem :=
  Nat.le_add_right _ _

theorem event2Step_spec (md : Md 32) (vars : LoopVars) (mem : Bytes) (size : Nat) (s : CbData) :
    wlp (event2Step (programContext md) vars mem size)
      (fun next t => 12 ≤ size ∧ (eventAt mem).pcrIndex < 32 ∧ eventSizeAt mem ≤ size ∧
        (next.1.foundHcrtm, t.registers) =
          applyEvent md (vars.foundHcrtm, s.registers) (eventAt mem) ∧
        LeftBehind (mem.drop (eventSizeAt mem)) next.2.1 ∧ next.2.2 = size - eventSizeAt mem)
      (fun r _ => r = 0) s := by
  apply wlp_bind
  apply wlp_mono (parseEvent2_spec mem size s) _ fun _ _ h => h
  intro layout t hparse
  obtain ⟨hstate, hsize, hpcr, hlayout, hfits⟩ := hparse
  subst hstate
  have hbody : 12 ≤ bodyOffset mem := Nat.le_add_right _ _
  have hoff : 12 + layout.digestsSize = bodyOffset mem := by
    rw [hlayout]
    show 12 + (bodyOffset mem - 12) = bodyOffset mem
    omega
  apply wlp_bind
  apply wlp_mono (event2Head_spec md vars mem layout hoff t) _ fun _ _ h => h
  intro vars' u hregisters
  apply wlp_bind
  apply wlp_bind
  rw [hoff]
  apply wlp_mono (eventDataCb_spec _ _ u) _ fun _ _ h => h
  intro left v hleft
  apply wlp_bind
  apply wlp_exitIf
  · intro _
    rfl
  intro _
  apply wlp_pure
  apply wlp_pure
  rw [hlayout]
  refine ⟨hsize, hpcr, hfits, ?_, ?_, rfl⟩
  · rw [hleft.1]
    exact hregisters
  · have hrest := hleft.2 (eventSizeAt mem - bodyOffset mem - 4)
    have hbound := bodyOffset_le_eventSizeAt mem
    have hlen : 4 + (eventSizeAt mem - bodyOffset mem - 4) = eventSizeAt mem - bodyOffset mem := by
      omega
    have hwhole : bodyOffset mem + (eventSizeAt mem - bodyOffset mem) = eventSizeAt mem := by
      omega
    rw [hlen, List.drop_drop, hwhole] at hrest
    exact hrest

/-! ## Accepted logs -/

/-- Four bytes that make a number below 256 are its low byte and zeros. -/
theorem header_bytes {mem : Bytes} (h : 4 ≤ mem.length) (hpcr : (header2At mem).pcrIndex < 256) :
    ∃ b rest, mem = b :: 0 :: 0 :: 0 :: rest ∧ (header2At mem).pcrIndex = b.toNat := by
  match mem, h with
  | b₀ :: b₁ :: b₂ :: b₃ :: rest, _ =>
      have hnumber : (header2At (b₀ :: b₁ :: b₂ :: b₃ :: rest)).pcrIndex =
          b₀.toNat + 256 * (b₁.toNat + 256 * (b₂.toNat + 256 * (b₃.toNat + 256 * 0))) := rfl
      rw [hnumber] at hpcr
      have h₁ : b₁ = 0 := by
        apply UInt8.toNat_inj.mp
        show b₁.toNat = 0
        omega
      have h₂ : b₂ = 0 := by
        apply UInt8.toNat_inj.mp
        show b₂.toNat = 0
        omega
      have h₃ : b₃ = 0 := by
        apply UInt8.toNat_inj.mp
        show b₃.toNat = 0
        omega
      subst h₁ h₂ h₃
      exact ⟨b₀, rest, rfl, by simpa using hnumber⟩

theorem spacesForTabs_length (mem : Bytes) : (spacesForTabs mem).length = mem.length := by
  induction mem with
  | nil => rfl
  | cons d rest ih =>
      unfold spacesForTabs
      split
      · rfl
      · rw [List.length_cons, List.length_cons, ih]

/-- A header that has a PCR index after tabs were replaced in front of its first NUL is
untouched. -/
theorem spacesForTabs_accepted {mem : Bytes} (h : 4 ≤ mem.length)
    (hpcr : (header2At (spacesForTabs mem)).pcrIndex < 32) : spacesForTabs mem = mem := by
  have hlong : 4 ≤ (spacesForTabs mem).length := by
    rw [spacesForTabs_length]
    exact h
  obtain ⟨b, tail, hbytes, hindex⟩ := header_bytes hlong (Nat.lt_trans hpcr (by decide))
  rw [hindex] at hpcr
  match mem, h with
  | d :: e :: rest, _ =>
      by_cases hzero : d = 0
      · rw [spacesForTabs, if_pos hzero]
      by_cases htab : d = 9
      · rw [spacesForTabs, if_neg hzero, if_pos htab] at hbytes
        rw [← (List.cons.inj hbytes).1] at hpcr
        exact absurd hpcr (by decide)
      rw [spacesForTabs, if_neg hzero, if_neg htab] at hbytes ⊢
      by_cases hnext : e = 0
      · rw [spacesForTabs, if_pos hnext]
      · rw [spacesForTabs, if_neg hnext] at hbytes
        have hhead := (List.cons.inj (List.cons.inj hbytes).2).1
        by_cases htab' : e = 9
        · rw [if_pos htab'] at hhead
          exact absurd hhead (by decide)
        · rw [if_neg htab'] at hhead
          exact absurd hhead hnext

theorem LeftBehind.eq_of_accepted {mem mem' : Bytes} (hleft : LeftBehind mem mem')
    (h : 4 ≤ mem.length) (hpcr : (header2At mem').pcrIndex < 32) : mem' = mem := by
  rcases hleft with heq | hspaces
  · exact heq
  · rw [hspaces] at hpcr ⊢
    exact spacesForTabs_accepted h hpcr

/-- The loop applies the events of the original bytes, whatever a description without a
NUL did to the next header: such a log is not accepted. -/
theorem event2Loop_replay (md : Md 32) (fuel : Nat) (vars : LoopVars) (mem mem' : Bytes)
    (size : Nat) (s : CbData) (hmem : size ≤ mem.length) (hleft : LeftBehind mem mem') :
    wlp (event2Loop (programContext md) fuel vars mem' size)
      (fun _ t => t.registers =
        ((eventsFrom fuel mem size).foldl (applyEvent md) (vars.foundHcrtm, s.registers)).2)
      (fun r _ => r = 0) s := by
  induction fuel generalizing vars mem mem' size s with
  | zero => trivial
  | succ fuel ih =>
      unfold event2Loop eventsFrom
      by_cases hsize : size = 0
      · rw [if_pos hsize, if_pos hsize]
        rfl
      rw [if_neg hsize, if_neg hsize]
      apply wlp_bind
      apply wlp_mono (event2Step_spec md vars mem' size s) _ fun _ _ h => h
      intro next t hstep
      obtain ⟨h12, hpcr, hfits, hregisters, hbehind, hrest⟩ := hstep
      have hsame := hleft.eq_of_accepted (by omega) hpcr
      rw [hsame] at hregisters hbehind hrest hfits
      have hlong : size - eventSizeAt mem ≤ (mem.drop (eventSizeAt mem)).length := by
        rw [List.length_drop]
        omega
      rw [hrest]
      apply wlp_mono (ih next.1 (mem.drop (eventSizeAt mem)) next.2.1 (size - eventSizeAt mem) t
        hlong hbehind) _ fun _ _ h => h
      intro _ u hu
      rw [hu, hregisters]
      rfl

theorem EventBuf.log_le_memory (b : EventBuf) : b.log.length ≤ b.memory.length := by
  simp [EventBuf.memory]

/-- What the loop over the events leaves behind, an accepted crypto-agile log does. -/
theorem accepted_of_loop {md : Md 32} {b : EventBuf} {s s' : CbData} {Q : CbData → Prop}
    (hagile : b.CryptoAgile)
    (hloop : ∀ next, specidEvent b.memory b.log.length = some next →
      b.log.length - next ≤ (b.memory.drop next).length →
        wlp (foreachEvent2 (programContext md) (b.memory.drop next) (b.log.length - next))
          (fun _ => Q) (fun r _ => r = 0) s)
    (h : run (tpmParseEventlog md b) s = .ok (1, s')) : Q s' := by
  have htype : ofLE (slice b.memory 4 4) = evNoAction := by
    rw [EventBuf.memory, slice_append_left _ (Nat.le_trans (by decide) hagile.1)]
    exact hagile.2
  have hwlp : wlp (tpmParseEventlog md b) (fun r t => r = 1 → Q t) (fun r t => r = 1 → Q t) s := by
    apply wlp_bind
    apply wlp_exitIf
    · intro _ hr
      cases hr
    intro _
    rw [if_pos htype]
    cases hspec : specidEvent b.memory b.log.length with
    | none =>
        intro hr
        cases hr
    | some next =>
        apply wlp_bind
        apply wlp_when
        · intro hne
          exact absurd htype hne
        intro _
        apply wlp_bind
        have hlong : b.log.length - next ≤ (b.memory.drop next).length := by
          have := b.log_le_memory
          rw [List.length_drop]
          omega
        apply wlp_mono (hloop next hspec hlong)
        · intro _ t ht
          apply wlp_pure
          intro _
          exact ht
        · intro r _ hr hone
          rw [hr] at hone
          cases hone
  exact run_of_wlp hwlp h rfl

/-- An accepted crypto-agile log is the machine's run over its events. -/
theorem tpmParseEventlog_replay {md : Md 32} {b : EventBuf} {s s' : CbData}
    (hagile : b.CryptoAgile) (h : run (tpmParseEventlog md b) s = .ok (1, s')) :
    s'.registers = (b.events.foldl (applyEvent md) (false, s.registers)).2 := by
  apply accepted_of_loop hagile _ h
  intro next hspec hlong
  have hevents : b.events =
      eventsFrom (b.log.length - next + 1) (b.memory.drop next) (b.log.length - next) := by
    unfold EventBuf.events
    rw [hspec]
  rw [hevents]
  exact event2Loop_replay md _ LoopVars.start _ _ _ s hlong (Or.inl rfl)

end MeasuredBoot.SrtmLog
