import MeasuredBoot.SrtmLog.SkipFlag

/-! # What is written for a register

The text in the event log of a register as a function of the bytes of the log: one
entry for each event of the register, with the texts its callbacks write. An accepted
run leaves exactly these texts, each cut off by the formatting buffer.
-/

namespace MeasuredBoot.SrtmLog

open Binary Imperative Imperative.Proc

/-! ## Entries -/

/-- What `char s[4096]` keeps of a text. -/
def cut (text : Bytes) : Bytes := text.take 4095

/-- A text that was formatted. -/
def formatted : Except Stop Bytes → Bytes
  | .ok text => text
  | .error _ => []

/-- The texts of `event_data_cb`. -/
def dataTexts (format : Format) (type size : Nat) (data : Bytes) : List Bytes :=
  if size = 0 then []
  else if isVariableEvent type then [descriptionText format (variableDescription data)]
  else if type = evIpl then
    iplOpening format :: (iplLines size size (spacesForTabs data)).map
        (fun line => formatted (precisionText line.1 line.2)) ++
      if format = .json then [ascii "\"\n\x7d,\n"] else []
  else if type = evEfiGptEvent then [descriptionText format (gptDescription data)]
  else if type = evNoAction then []
  else [descriptionText format (formatted (plainDescription type size data))]

/-- The share of one event in the event log of its register: the locality of the initial
value in front of it, the type in its header, the digests and the texts of its data. -/
structure Entry where
  locality : Option UInt8
  type : Option Nat
  digests : List Digest2
  data : List Bytes

/-- The texts in front of the event data. -/
def Entry.headTexts (format : Format) (pcr : Nat) (x : Entry) : List Bytes :=
  x.locality.toList.map (fun locality => initvalText format locality.toNat pcr) ++
    (x.type.toList.map (fun type => headerText format type pcr) ++
      x.digests.map (digestText format))

def Entry.texts (format : Format) (pcr : Nat) (x : Entry) : List Bytes :=
  x.headTexts format pcr ++ x.data

/-- The entry of the event at `mem`, the first of its register or not. -/
def entryAt (format : Format) (first pending : Bool) (mem : Bytes) : Entry where
  locality :=
    if first then some (if (eventAt mem).pcrIndex ≠ 0 then 0
      else ((eventAt mem).locality false).getD 0)
    else none
  type := if (eventAt mem).isNoAction then none else some (eventAt mem).eventType
  digests := unskipped ((eventAt mem).flag pending) (eventAt mem).digests
  data := dataTexts format (eventAt mem).eventType (ofLE (slice mem (bodyOffset mem) 4))
    (dataAt mem)

/-- Where the events in the `size` bytes at a pointer start. -/
def sitesFrom : Nat → Bytes → Nat → List Bytes
  | 0, _, _ => []
  | fuel + 1, mem, size =>
      if size = 0 then []
      else mem :: sitesFrom fuel (mem.drop (eventSizeAt mem)) (size - eventSizeAt mem)

/-- The entries of a register, from an event on. -/
def entriesFrom (format : Format) (pcr : Nat) : Bool → Bool → List Bytes → List Entry
  | _, _, [] => []
  | seen, pending, mem :: sites =>
      if (eventAt mem).pcrIndex = pcr then
        entryAt format (!seen) pending mem ::
          entriesFrom format pcr true ((eventAt mem).flagAfter pending) sites
      else entriesFrom format pcr seen ((eventAt mem).flagAfter pending) sites

def EventBuf.sites (b : EventBuf) : List Bytes :=
  match specidEvent b.memory b.log.length with
  | none => []
  | some next =>
      sitesFrom (b.log.length - next + 1) (b.memory.drop next) (b.log.length - next)

/-- The entries of a register in the order they are written. -/
def EventBuf.written (b : EventBuf) (format : Format) (pcr : Nat) : List Entry :=
  entriesFrom format pcr false false b.sites

/-- The text of some entries, as the formatting buffer passes it on. -/
def entriesText (format : Format) (pcr : Nat) (xs : List Entry) : Bytes :=
  (xs.flatMap (Entry.texts format pcr)).flatMap cut

theorem entriesText_cons (format : Format) (pcr : Nat) (x : Entry) (xs : List Entry) :
    entriesText format pcr (x :: xs) =
      (x.texts format pcr).flatMap cut ++ entriesText format pcr xs := by
  simp [entriesText]

theorem eventsFrom_eq_map (fuel : Nat) (mem : Bytes) (size : Nat) :
    eventsFrom fuel mem size = (sitesFrom fuel mem size).map eventAt := by
  induction fuel generalizing mem size with
  | zero => rfl
  | succ fuel ih =>
      unfold eventsFrom sitesFrom
      by_cases hsize : size = 0
      · rw [if_pos hsize, if_pos hsize]
        rfl
      · rw [if_neg hsize, if_neg hsize, ih]
        rfl

theorem EventBuf.events_eq_map (b : EventBuf) : b.events = b.sites.map eventAt := by
  unfold EventBuf.events EventBuf.sites
  cases specidEvent b.memory b.log.length with
  | none => rfl
  | some next => exact eventsFrom_eq_map _ _ _

/-! ## Writing for a register -/

/-- The text in the event log of a register, empty where there is none. -/
def bufferText (pcr : Nat) (s : CbData) : Bytes := (s.eventlog pcr).getD []

/-- The texts are written for `pcr`, if it is asked for, and nothing for other registers. -/
structure Wrote (pcr : Nat) (texts : List Bytes) (s t : CbData) : Prop where
  format : t.format = s.format
  pcrNums : t.pcrNums = s.pcrNums
  buffer : ∀ p, bufferText p t =
    bufferText p s ++ if p = pcr ∧ p ∈ s.pcrNums then texts.flatMap cut else []

theorem Wrote.of_eq {s t : CbData} (pcr : Nat) (hlog : t.eventlog = s.eventlog)
    (hformat : t.format = s.format) (hnums : t.pcrNums = s.pcrNums) : Wrote pcr [] s t where
  format := hformat
  pcrNums := hnums
  buffer := by
    intro p
    unfold bufferText
    rw [hlog]
    simp

theorem Wrote.trans {pcr : Nat} {xs ys : List Bytes} {s t u : CbData} (h : Wrote pcr xs s t)
    (h' : Wrote pcr ys t u) : Wrote pcr (xs ++ ys) s u where
  format := h'.format.trans h.format
  pcrNums := h'.pcrNums.trans h.pcrNums
  buffer := by
    intro p
    rw [h'.buffer, h.buffer, h.pcrNums, List.append_assoc]
    by_cases hp : p = pcr ∧ p ∈ s.pcrNums
    · rw [if_pos hp, if_pos hp, if_pos hp, List.flatMap_append]
    · rw [if_neg hp, if_neg hp, if_neg hp, List.append_nil]

/-- The texts are written for the register of the event, which stays. -/
structure WroteActive (texts : List Bytes) (s t : CbData) : Prop where
  wrote : Wrote s.activePcr texts s t
  active : t.activePcr = s.activePcr

theorem WroteActive.of_eq {s t : CbData} (hlog : t.eventlog = s.eventlog)
    (hformat : t.format = s.format) (hnums : t.pcrNums = s.pcrNums)
    (hactive : t.activePcr = s.activePcr) : WroteActive [] s t :=
  ⟨Wrote.of_eq _ hlog hformat hnums, hactive⟩

theorem WroteActive.nothing (s : CbData) : WroteActive [] s s := WroteActive.of_eq rfl rfl rfl rfl

theorem WroteActive.trans {xs ys : List Bytes} {s t u : CbData} (h : WroteActive xs s t)
    (h' : WroteActive ys t u) : WroteActive (xs ++ ys) s u where
  wrote := by
    have hys := h'.wrote
    rw [h.active] at hys
    exact h.wrote.trans hys
  active := h'.active.trans h.active

theorem appendText_buffer (text : Bytes) (s : CbData) (p : Nat) :
    bufferText p (appendText text s) =
      bufferText p s ++ if p = s.activePcr then text else [] := by
  unfold appendText bufferText mystrcat
  by_cases hp : p = s.activePcr
  · subst hp
    simp
  · simp [hp]

theorem addEvlog_wrote {text : Except Stop Bytes} {raw : Bytes} (s : CbData)
    (h : ∀ x, text = .ok x → x = raw) :
    wlp (addEvlog text) (fun _ => WroteActive [raw] s) (fun r _ => r = 0) s := by
  apply wlp_bind
  apply wlp_getState
  apply wlp_when
  · intro hasked
    apply wlp_bind
    apply wlp_lift
    intro x hx
    apply wlp_bind
    apply wlp_lift
    intro printed hprinted
    have hcut : printed = cut raw := by
      unfold snprintf at hprinted
      split at hprinted
      · cases hprinted
        rw [h x hx]
        rfl
      · cases hprinted
    apply wlp_bind
    apply wlp_getState
    apply wlp_bind
    apply wlp_when
    · intro _
      trivial
    · intro _
      refine ⟨⟨rfl, rfl, fun p => ?_⟩, rfl⟩
      rw [appendText_buffer, hcut]
      by_cases hp : p = s.activePcr
      · subst hp
        rw [if_pos rfl, if_pos ⟨rfl, hasked⟩]
        simp
      · rw [if_neg hp, if_neg fun hand => hp hand.1]
  · intro hasked
    refine ⟨⟨rfl, rfl, fun p => ?_⟩, rfl⟩
    rw [if_neg, List.append_nil]
    rintro ⟨rfl, hp⟩
    exact hasked hp

theorem addEvlogDescription_wrote {description : Except Stop Bytes} {raw : Bytes} (s : CbData)
    (h : ∀ x, description = .ok x → x = raw) :
    wlp (addEvlogDescription description)
      (fun _ => WroteActive [descriptionText s.format raw] s) (fun r _ => r = 0) s := by
  apply wlp_bind
  apply wlp_getState
  refine addEvlog_wrote s fun x hx => ?_
  cases description with
  | error w => cases hx
  | ok d =>
      rw [← h d rfl]
      exact (Except.ok.inj hx).symm

/-! ## The callbacks -/

theorem eventInitvalCb_wrote (locality : UInt8) (pcr : Nat) (s : CbData) :
    wlp (eventInitvalCb locality pcr)
      (fun _ => Wrote pcr [initvalText s.format locality.toNat pcr] s) (fun r _ => r = 0) s := by
  apply wlp_bind
  apply wlp_update
  apply wlp_bind
  apply wlp_getState
  apply wlp_mono (addEvlog_wrote _ fun x hx => (Except.ok.inj hx).symm) _ fun _ _ h => h
  intro _ t ht
  exact ⟨ht.wrote.format, ht.wrote.pcrNums, ht.wrote.buffer⟩

theorem event2HeaderCb_wrote (hdr : Header2) (s : CbData) :
    wlp (event2HeaderCb hdr)
      (fun _ => Wrote hdr.pcrIndex
        (if hdr.eventType = evNoAction then []
          else [headerText s.format hdr.eventType hdr.pcrIndex]) s) (fun r _ => r = 0) s := by
  apply wlp_bind
  apply wlp_update
  apply wlp_ite
  · intro hno
    apply wlp_update
    rw [if_pos hno]
    exact Wrote.of_eq _ rfl rfl rfl
  · intro hno
    apply wlp_bind
    apply wlp_getState
    rw [if_neg hno]
    apply wlp_mono (addEvlog_wrote _ fun x hx => (Except.ok.inj hx).symm) _ fun _ _ h => h
    intro _ t ht
    exact ⟨ht.wrote.format, ht.wrote.pcrNums, ht.wrote.buffer⟩

theorem digestRound_wrote (md : Md 32) (d : Digest2) (s : CbData) :
    wlp (digestRound (eventDigestCb md) d)
      (fun _ => WroteActive
        (if s.noActionEventPending then [] else [digestText s.format d]) s)
      (fun r _ => r = 0) s := by
  apply wlp_digestRound
  · intro hpending
    rw [if_pos hpending]
    exact WroteActive.of_eq rfl rfl rfl rfl
  · intro hpending
    rw [hpending, if_neg Bool.false_ne_true]
    apply wlp_mono (addEvlog_wrote _ fun x hx => (Except.ok.inj hx).symm) _ fun _ _ h => h
    intro _ t ht
    have hprinted : WroteActive [] s (printMessage d.algorithmId s) :=
      WroteActive.of_eq rfl rfl rfl rfl
    have hwrote := hprinted.trans ht
    constructor
    · intro _
      exact hwrote.trans (WroteActive.of_eq rfl rfl rfl rfl)
    · intro _
      exact hwrote.trans (WroteActive.of_eq rfl rfl rfl rfl)

theorem digests_wrote (md : Md 32) (digests : List Digest2) (s : CbData) :
    wlp (forEach (digestRound (eventDigestCb md)) digests)
      (fun _ => WroteActive
        ((unskipped s.noActionEventPending digests).map (digestText s.format)) s)
      (fun r _ => r = 0) s := by
  induction digests generalizing s with
  | nil =>
      have hnone : unskipped s.noActionEventPending [] = [] := by
        cases s.noActionEventPending <;> rfl
      rw [hnone]
      exact WroteActive.nothing s
  | cons d digests ih =>
      apply wlp_bind
      apply wlp_mono (wlp_and (eventDigestCb_spec md d s) (digestRound_wrote md d s)) _
        fun _ _ h => h.1
      intro _ t ht
      obtain ⟨⟨hregisters, _⟩, hwrote⟩ := ht
      apply wlp_mono (ih t) _ fun _ _ h => h
      intro _ u hu
      have hflag : t.noActionEventPending = false := by
        have hpending := congrArg Registers.pending hregisters
        change t.noActionEventPending =
          (applyDigest md s.activePcr s.registers d).pending at hpending
        rw [hpending]
        unfold applyDigest
        cases hs : s.registers.pending with
        | true => rfl
        | false =>
            simp only [Bool.false_eq_true, if_false]
            split <;> rfl
      rw [hflag, hwrote.wrote.format] at hu
      have hboth := hwrote.trans hu
      cases hs : s.noActionEventPending with
      | true =>
          rw [hs] at hboth
          exact hboth
      | false =>
          rw [hs] at hboth
          exact hboth

theorem iplLines_wrote (lines : List (Nat × Bytes)) (s : CbData) :
    wlp (forEach (fun line => addEvlog (precisionText line.1 line.2)) lines)
      (fun _ => WroteActive
        (lines.map fun line => formatted (precisionText line.1 line.2)) s)
      (fun r _ => r = 0) s := by
  induction lines generalizing s with
  | nil => exact WroteActive.nothing s
  | cons line lines ih =>
      have hline : ∀ x, precisionText line.1 line.2 = .ok x →
          x = formatted (precisionText line.1 line.2) := by
        intro x hx
        rw [hx]
        rfl
      apply wlp_bind
      apply wlp_mono (addEvlog_wrote s hline) _ fun _ _ h => h
      intro _ t ht
      apply wlp_mono (ih t) _ fun _ _ h => h
      intro _ u hu
      exact ht.trans hu

theorem printIpl_wrote (size : Nat) (description : Bytes) (s : CbData) :
    wlp (printIpl size description)
      (fun _ => WroteActive
        ((iplLines size size description).map
            (fun line => formatted (precisionText line.1 line.2)) ++
          if s.format = .json then [ascii "\"\n\x7d,\n"] else []) s)
      (fun r _ => r = 0) s := by
  apply wlp_bind
  apply wlp_getState
  apply wlp_bind
  apply wlp_mono (iplLines_wrote _ s) _ fun _ _ h => h
  intro _ t ht
  apply wlp_when
  · intro hjson
    rw [if_pos hjson]
    apply wlp_mono (addEvlog_wrote t fun x hx => (Except.ok.inj hx).symm) _ fun _ _ h => h
    intro _ u hu
    exact ht.trans hu
  · intro hjson
    rw [if_neg hjson, List.append_nil]
    exact ht

theorem eventIpl_wrote (size : Nat) (data : Bytes) (s : CbData) :
    wlp (eventIpl size data)
      (fun _ => WroteActive
        (iplOpening s.format :: (iplLines size size (spacesForTabs data)).map
            (fun line => formatted (precisionText line.1 line.2)) ++
          if s.format = .json then [ascii "\"\n\x7d,\n"] else []) s)
      (fun r _ => r = 0) s := by
  apply wlp_bind
  apply wlp_getState
  apply wlp_bind
  apply wlp_mono (addEvlog_wrote s fun x hx => (Except.ok.inj hx).symm) _ fun _ _ h => h
  intro _ t ht
  apply wlp_bind
  apply wlp_lift
  intro description hdescription
  rw [← replaceTabs_ok hdescription]
  apply wlp_bind
  apply wlp_mono (printIpl_wrote _ _ t) _ fun _ _ h => h
  intro _ u hu
  rw [ht.wrote.format] at hu
  exact ht.trans hu

theorem dataTexts_noAction (format : Format) (size : Nat) (data : Bytes) :
    dataTexts format evNoAction size data = [] := by
  unfold dataTexts
  by_cases hsize : size = 0
  · rw [if_pos hsize]
  · rw [if_neg hsize]
    rfl

/-- Where the callback does not turn the event down. -/
theorem eventDataCb_wrote (event : Bytes) (type : Nat) (s : CbData) :
    wlp (eventDataCb event type)
      (fun left t => left.1 = true → WroteActive
        (dataTexts s.format type (ofLE (slice event 0 4)) (event.drop 4)) s t)
      (fun r _ => r = 0) s := by
  apply wlp_eventDataCb
  · rintro (hsize | rfl) _
    · rw [hsize, dataTexts, if_pos rfl]
      exact WroteActive.nothing s
    · rw [dataTexts_noAction]
      exact WroteActive.nothing s
  · intro hfalse
    cases hfalse
  · intro hsize hvariable
    rw [dataTexts, if_neg hsize, if_pos hvariable]
    apply wlp_mono (addEvlogDescription_wrote s fun x hx => (Except.ok.inj hx).symm) _
      fun _ _ h => h
    intro _ t ht _
    exact ht
  · rintro hsize rfl
    rw [dataTexts, if_neg hsize, if_neg (by decide), if_pos rfl]
    apply wlp_mono (eventIpl_wrote _ _ s) _ fun _ _ h => h
    intro _ t ht _
    exact ht
  · rintro hsize rfl
    rw [dataTexts, if_neg hsize, if_neg (by decide), if_neg (by decide), if_pos rfl]
    apply wlp_mono (addEvlogDescription_wrote s fun x hx => (Except.ok.inj hx).symm) _
      fun _ _ h => h
    intro _ t ht _
    exact ht
  · intro hsize hvariable hipl hgpt hno
    have hplain : ∀ x, plainDescription type (ofLE (slice event 0 4)) (event.drop 4) = .ok x →
        x = formatted (plainDescription type (ofLE (slice event 0 4)) (event.drop 4)) := by
      intro x hx
      rw [hx]
      rfl
    rw [dataTexts, if_neg hsize, if_neg hvariable, if_neg hipl, if_neg hgpt, if_neg hno]
    apply wlp_mono (addEvlogDescription_wrote s hplain) _ fun _ _ h => h
    intro _ t ht _
    exact ht

/-! ## One event -/

/-- The bit `foreach_event2` keeps for a register. -/
def pcrBit (pcr : Nat) : UInt32 := (1 : UInt32) <<< UInt32.ofNat pcr

theorem pcrBit_toBitVec {pcr : Nat} (h : pcr < 32) :
    (pcrBit pcr).toBitVec = BitVec.twoPow 32 pcr := by
  have hmod : pcr % 32 = pcr := Nat.mod_eq_of_lt h
  have hword : pcr % 4294967296 = pcr := Nat.mod_eq_of_lt (by omega)
  unfold pcrBit BitVec.twoPow
  simp [UInt32.toBitVec_shiftLeft, hword, hmod]

theorem and_pcrBit {v : UInt32} {pcr : Nat} (h : pcr < 32) :
    v &&& pcrBit pcr = 0 ↔ v.toBitVec.getLsbD pcr = false := by
  rw [← UInt32.toBitVec_inj, UInt32.toBitVec_and, pcrBit_toBitVec h, BitVec.and_twoPow]
  cases v.toBitVec.getLsbD pcr with
  | false => simp
  | true =>
      have hne : BitVec.twoPow 32 pcr ≠ 0#32 := by
        intro hzero
        have hbit := congrArg (·.getLsbD pcr) hzero
        simp [h] at hbit
      simpa using hne

theorem or_pcrBit {v : UInt32} {p q : Nat} (hp : p < 32) (hq : q < 32) :
    (v ||| pcrBit p) &&& pcrBit q = 0 ↔ v &&& pcrBit q = 0 ∧ q ≠ p := by
  rw [and_pcrBit hq, and_pcrBit hq, UInt32.toBitVec_or, pcrBit_toBitVec hp, BitVec.getLsbD_or,
    BitVec.getLsbD_twoPow]
  by_cases hqp : q = p
  · subst hqp
    simp [hq]
  · have hpq : ¬p = q := fun h => hqp h.symm
    simp [hqp, hpq]

/-- The locals know which registers occurred, and nothing of a locality before PCR 0 did. -/
structure LoopVars.Knows (vars : LoopVars) (seen : Nat → Bool) : Prop where
  bits : ∀ q < 32, vars.pcrOccurenceVector &&& pcrBit q = 0 ↔ seen q = false
  fresh : seen 0 = false → vars.locality = 0 ∧ vars.foundHcrtm = false

theorem LoopVars.start_knows : LoopVars.start.Knows fun _ => false where
  bits := by simp [LoopVars.start]
  fresh := fun _ => ⟨rfl, rfl⟩

/-- The registers seen behind an event of `pcr`. -/
def seenAfter (seen : Nat → Bool) (pcr : Nat) : Nat → Bool := fun q => seen q || q = pcr

/-- The first event of a register announces its initial value. -/
theorem initvalStep_wrote (md : Md 32) (vars : LoopVars) (pcr : Nat) (s : CbData) :
    wlp (initvalStep (programContext md) vars pcr)
      (fun vars' t =>
        (vars.pcrOccurenceVector &&& pcrBit pcr = 0 →
          vars' = { vars with
            pcrOccurenceVector := vars.pcrOccurenceVector ||| pcrBit pcr
            locality := if pcr ≠ 0 then 0 else vars.locality } ∧
          Wrote pcr [initvalText s.format (if pcr ≠ 0 then 0 else vars.locality).toNat pcr] s t) ∧
        (vars.pcrOccurenceVector &&& pcrBit pcr ≠ 0 → vars' = vars ∧ t = s))
      (fun r _ => r = 0) s := by
  apply wlp_ite
  · intro hfirst
    apply wlp_bind
    apply wlp_mono (eventInitvalCb_wrote _ _ s) _ fun _ _ h => h
    intro _ t ht
    apply wlp_pure
    exact ⟨fun _ => ⟨rfl, ht⟩, fun hseen => absurd hfirst hseen⟩
  · intro hseen
    apply wlp_pure
    exact ⟨fun hfirst => absurd hfirst hseen, fun _ => ⟨rfl, rfl⟩⟩

theorem isHcrtm_pcrIndex {e : Event} (h : e.isHcrtm = true) : e.pcrIndex = 0 :=
  ((Event.isHcrtm_iff e).mp h).2

theorem locality_pcrIndex {e : Event} {found : Bool} (h : (e.locality found).isSome = true) :
    e.pcrIndex = 0 := by
  unfold Event.locality Event.startupLocality at h
  by_cases hhcrtm : e.isHcrtm = true
  · exact isHcrtm_pcrIndex hhcrtm
  · rw [if_neg hhcrtm] at h
    split at h
    · cases h
    · split at h
      · exact ‹_ ∧ _ ∧ _›.2.1
      · cases h

theorem LoopVars.Knows.after {vars : LoopVars} {seen : Nat → Bool} (h : vars.Knows seen)
    {e : Event} (hpcr : e.pcrIndex < 32) : LoopVars.Knows
      { foundHcrtm := vars.foundHcrtm || e.isHcrtm
        pcrOccurenceVector := vars.pcrOccurenceVector ||| pcrBit e.pcrIndex
        locality := if e.pcrIndex ≠ 0 then 0
          else (e.locality vars.foundHcrtm).getD vars.locality }
      (seenAfter seen e.pcrIndex) where
  bits := by
    intro q hq
    change (vars.pcrOccurenceVector ||| pcrBit e.pcrIndex) &&& pcrBit q = 0 ↔ _
    rw [or_pcrBit hpcr hq, h.bits q hq]
    simp [seenAfter]
  fresh := by
    intro hseen
    simp only [seenAfter, Bool.or_eq_false_iff, decide_eq_false_iff_not] at hseen
    have hne : e.pcrIndex ≠ 0 := fun hzero => hseen.2 hzero.symm
    have hhcrtm : e.isHcrtm = false := Bool.eq_false_iff.mpr fun hh => hne (isHcrtm_pcrIndex hh)
    exact ⟨if_pos hne, by rw [(h.fresh hseen.1).2, hhcrtm]; rfl⟩

theorem LoopVars.Knows.again {vars : LoopVars} {seen : Nat → Bool} (h : vars.Knows seen)
    {e : Event} (hseen : seen e.pcrIndex = true) : LoopVars.Knows
      { vars with
        foundHcrtm := vars.foundHcrtm || e.isHcrtm
        locality := (e.locality vars.foundHcrtm).getD vars.locality }
      (seenAfter seen e.pcrIndex) where
  bits := by
    intro q hq
    change vars.pcrOccurenceVector &&& pcrBit q = 0 ↔ _
    rw [h.bits q hq]
    by_cases hqe : q = e.pcrIndex
    · subst hqe
      simp [seenAfter, hseen]
    · simp [seenAfter, hqe]
  fresh := by
    intro hfresh
    simp only [seenAfter, Bool.or_eq_false_iff, decide_eq_false_iff_not] at hfresh
    have hne : e.pcrIndex ≠ 0 := fun hzero => hfresh.2 hzero.symm
    have hhcrtm : e.isHcrtm = false := Bool.eq_false_iff.mpr fun hh => hne (isHcrtm_pcrIndex hh)
    have hnone : e.locality vars.foundHcrtm = none := by
      cases hl : e.locality vars.foundHcrtm with
      | none => rfl
      | some byte => exact absurd (locality_pcrIndex (by rw [hl]; rfl)) hne
    obtain ⟨hlocality, hfound⟩ := h.fresh hfresh.1
    exact ⟨by rw [hnone]; exact hlocality, by rw [hfound, hhcrtm]; rfl⟩

theorem takeLocality_text (locality : Option UInt8) (s : CbData) :
    (takeLocality locality s).eventlog = s.eventlog ∧
      (takeLocality locality s).format = s.format ∧
      (takeLocality locality s).pcrNums = s.pcrNums ∧
      (takeLocality locality s).noActionEventPending = s.noActionEventPending := by
  cases locality <;> exact ⟨rfl, rfl, rfl, rfl⟩

/-- What the first two steps do to the locals and the text. -/
theorem initvalStep_entry (md : Md 32) {vars : LoopVars} {seen : Nat → Bool} (mem : Bytes)
    (hknows : vars.Knows seen) (hpcr : (eventAt mem).pcrIndex < 32) (pending : Bool) (s : CbData) :
    wlp (initvalStep (programContext md)
        { vars with
          foundHcrtm := vars.foundHcrtm || (eventAt mem).isHcrtm
          locality := ((eventAt mem).locality vars.foundHcrtm).getD vars.locality }
        (header2At mem).pcrIndex)
      (fun vars' t => vars'.Knows (seenAfter seen (eventAt mem).pcrIndex) ∧
        Wrote (eventAt mem).pcrIndex
          ((entryAt s.format (!seen (eventAt mem).pcrIndex) pending mem).locality.toList.map
            fun locality => initvalText s.format locality.toNat (eventAt mem).pcrIndex) s t)
      (fun r _ => r = 0) s := by
  have hbits := hknows.bits _ hpcr
  apply wlp_mono (initvalStep_wrote md _ _ s) _ fun _ _ h => h
  intro vars' t ht
  cases hseen : seen (eventAt mem).pcrIndex with
  | false =>
      obtain ⟨hvars, hwrote⟩ := ht.1 (hbits.mpr hseen)
      have hlocality : (if (eventAt mem).pcrIndex ≠ 0 then 0
          else ((eventAt mem).locality vars.foundHcrtm).getD vars.locality) =
          if (eventAt mem).pcrIndex ≠ 0 then 0 else ((eventAt mem).locality false).getD 0 := by
        by_cases hzero : (eventAt mem).pcrIndex = 0
        · rw [hzero] at hseen
          obtain ⟨hstart, hfound⟩ := hknows.fresh hseen
          rw [hstart, hfound]
        · rw [if_pos hzero, if_pos hzero]
      refine ⟨hvars ▸ hknows.after hpcr, ?_⟩
      unfold entryAt
      rw [← hlocality]
      exact hwrote
  | true =>
      have hbit : vars.pcrOccurenceVector &&& pcrBit (eventAt mem).pcrIndex ≠ 0 := by
        intro hzero
        rw [hbits.mp hzero] at hseen
        cases hseen
      obtain ⟨hvars, ht⟩ := ht.2 hbit
      refine ⟨hvars ▸ hknows.again hseen, ?_⟩
      rw [ht]
      exact Wrote.of_eq _ rfl rfl rfl

/-- The header is in the log unless the event has no action. -/
theorem headerTexts_entry {format : Format} (mem : Bytes) (first pending : Bool) :
    (if (header2At mem).eventType = evNoAction then []
      else [headerText format (header2At mem).eventType (header2At mem).pcrIndex]) =
      (entryAt format first pending mem).type.toList.map fun type =>
        headerText format type (eventAt mem).pcrIndex := by
  unfold entryAt
  by_cases hno : (header2At mem).eventType = evNoAction
  · have hevent : (eventAt mem).isNoAction = true := decide_eq_true hno
    simp only [hno, hevent, if_true]
    rfl
  · have hevent : (eventAt mem).isNoAction = false := decide_eq_false hno
    simp only [hno, hevent, if_false, Bool.false_eq_true]
    rfl

theorem event2Head_wrote (md : Md 32) {vars : LoopVars} {seen : Nat → Bool} (mem : Bytes)
    (layout : Layout) (hlayout : 12 + layout.digestsSize = bodyOffset mem)
    (hknows : vars.Knows seen) (hpcr : (eventAt mem).pcrIndex < 32) (s : CbData) :
    wlp (event2Head (programContext md) vars mem layout)
      (fun vars' t => vars'.Knows (seenAfter seen (eventAt mem).pcrIndex) ∧
        Wrote (eventAt mem).pcrIndex
          ((entryAt s.format (!seen (eventAt mem).pcrIndex) s.noActionEventPending mem).headTexts
            s.format (eventAt mem).pcrIndex) s t ∧ t.activePcr = (eventAt mem).pcrIndex)
      (fun r _ => r = 0) s := by
  have hdigests : totalSize (digestsAt (header2At mem).digestCount (mem.drop 12)) ≤
      layout.digestsSize := by
    unfold bodyOffset at hlayout
    omega
  apply wlp_bind
  rw [hlayout]
  apply wlp_mono (localityStep_spec md vars mem layout.eventSize s) _ fun _ _ h => h
  intro vars₁ t₁ h₁
  obtain ⟨hvars, ht₁⟩ := h₁
  obtain ⟨hlog, hformat, hnums, hflag⟩ := takeLocality_text
    ((eventAt mem).locality vars.foundHcrtm) s
  rw [← ht₁] at hlog hformat hnums hflag
  have hw₁ : Wrote (eventAt mem).pcrIndex [] s t₁ := Wrote.of_eq _ hlog hformat hnums
  apply wlp_bind
  rw [hvars]
  apply wlp_mono (wlp_and (initvalStep_entry md mem hknows hpcr s.noActionEventPending t₁)
    (initvalStep_spec md _ _ t₁)) _ fun _ _ h => h.1
  intro vars₂ t₂ h₂
  obtain ⟨⟨hknows₂, hw₂⟩, _, hregisters⟩ := h₂
  apply wlp_bind
  apply wlp_mono (wlp_and (event2HeaderCb_wrote _ t₂) (event2HeaderCb_spec _ t₂)) _
    fun _ _ h => h.1
  intro _ t₃ h₃
  obtain ⟨hw₃, hregisters₃, hactive⟩ := h₃
  apply wlp_bind
  apply wlp_bind
  apply wlp_exitIf
  · intro _
    rfl
  intro _
  rw [digestLoop_eq _ _ _ _ hdigests]
  apply wlp_mono (digests_wrote md _ t₃) _ fun _ _ h => h
  intro _ t₄ h₄
  apply wlp_bind
  apply wlp_exitIf
  · intro _
    rfl
  intro _
  apply wlp_pure
  have hpending : t₃.noActionEventPending = (eventAt mem).flag s.noActionEventPending := by
    have h := congrArg Registers.pending hregisters₃
    have h' := congrArg Registers.pending hregisters
    change t₃.noActionEventPending = (decide (_ = _) || t₂.noActionEventPending) at h
    change t₂.noActionEventPending = t₁.noActionEventPending at h'
    rw [h, h', hflag]
    rfl
  have hw₄ := h₄.wrote
  rw [hactive, hpending] at hw₄
  rw [headerTexts_entry mem (!seen (eventAt mem).pcrIndex) s.noActionEventPending] at hw₃
  rw [hw₃.format, hw₂.format, hformat] at hw₄
  rw [hw₂.format, hformat] at hw₃
  rw [hformat] at hw₂
  exact ⟨hknows₂, hw₁.trans (hw₂.trans (hw₃.trans hw₄)), h₄.active.trans hactive⟩

theorem event2Step_wrote (md : Md 32) {vars : LoopVars} {seen : Nat → Bool} (mem : Bytes)
    (size : Nat) (hknows : vars.Knows seen) (s : CbData) :
    wlp (event2Step (programContext md) vars mem size)
      (fun next t => next.1.Knows (seenAfter seen (eventAt mem).pcrIndex) ∧
        Wrote (eventAt mem).pcrIndex
          ((entryAt s.format (!seen (eventAt mem).pcrIndex) s.noActionEventPending mem).texts
            s.format (eventAt mem).pcrIndex) s t)
      (fun r _ => r = 0) s := by
  apply wlp_bind
  apply wlp_mono (parseEvent2_spec mem size s) _ fun _ _ h => h
  intro layout t hparse
  obtain ⟨hstate, _, hpcr, hlayout, _⟩ := hparse
  subst hstate
  have hbody : 12 ≤ bodyOffset mem := Nat.le_add_right _ _
  have hoff : 12 + layout.digestsSize = bodyOffset mem := by
    rw [hlayout]
    show 12 + (bodyOffset mem - 12) = bodyOffset mem
    omega
  apply wlp_bind
  apply wlp_mono (event2Head_wrote md mem layout hoff hknows hpcr t) _ fun _ _ h => h
  intro vars' u hu
  obtain ⟨hknows', hhead, hactive⟩ := hu
  apply wlp_bind
  apply wlp_bind
  rw [hoff]
  apply wlp_mono (eventDataCb_wrote _ _ u) _ fun _ _ h => h
  intro left v hleft
  apply wlp_bind
  apply wlp_exitIf
  · intro _
    rfl
  intro hret
  apply wlp_pure
  apply wlp_pure
  have hdata := (hleft (Bool.eq_true_of_not_eq_false hret)).wrote
  have hsize : slice (mem.drop (bodyOffset mem)) 0 4 = slice mem (bodyOffset mem) 4 := by
    simp [slice]
  rw [hactive, hhead.format, hsize] at hdata
  exact ⟨hknows', hhead.trans hdata⟩

/-! ## Accepted logs -/

/-- The loop writes the entries of the events at the sites. -/
theorem event2Loop_written (md : Md 32) (fuel : Nat) {vars : LoopVars} {seen : Nat → Bool}
    (mem mem' : Bytes) (size : Nat) (s : CbData) (hmem : size ≤ mem.length)
    (hleft : LeftBehind mem mem') (hknows : vars.Knows seen) :
    wlp (event2Loop (programContext md) fuel vars mem' size)
      (fun _ t => t.format = s.format ∧ t.pcrNums = s.pcrNums ∧
        (∀ p ∈ s.pcrNums, bufferText p t = bufferText p s ++ entriesText s.format p
          (entriesFrom s.format p (seen p) s.noActionEventPending (sitesFrom fuel mem size))) ∧
        ∀ site ∈ sitesFrom fuel mem size, (eventAt site).pcrIndex < 32)
      (fun r _ => r = 0) s := by
  induction fuel generalizing vars seen mem mem' size s with
  | zero => trivial
  | succ fuel ih =>
      unfold event2Loop sitesFrom
      by_cases hsize : size = 0
      · rw [if_pos hsize, if_pos hsize]
        refine ⟨rfl, rfl, fun p _ => ?_, fun site hsite => ?_⟩
        · simp [entriesFrom, entriesText]
        · cases hsite
      rw [if_neg hsize, if_neg hsize]
      apply wlp_bind
      apply wlp_mono (wlp_and (event2Step_spec md vars mem' size s)
        (event2Step_wrote md mem' size hknows s)) _ fun _ _ h => h.1
      intro next t hstep
      obtain ⟨⟨h12, hpcr, hfits, hregisters, hbehind, hrest⟩, hknows', hwrote⟩ := hstep
      have hsame := hleft.eq_of_accepted (by omega) hpcr
      rw [hsame] at hregisters hbehind hrest hfits hknows' hwrote hpcr
      have hlong : size - eventSizeAt mem ≤ (mem.drop (eventSizeAt mem)).length := by
        rw [List.length_drop]
        omega
      rw [hrest]
      apply wlp_mono (ih (mem.drop (eventSizeAt mem)) next.2.1 (size - eventSizeAt mem) t hlong
        hbehind hknows') _ fun _ _ h => h
      intro _ u hu
      obtain ⟨hformat, hnums, hbuffer, hindices⟩ := hu
      refine ⟨hformat.trans hwrote.format, hnums.trans hwrote.pcrNums, fun p hp => ?_,
        List.forall_mem_cons.mpr ⟨hpcr, hindices⟩⟩
      have hflag : t.noActionEventPending = (eventAt mem).flagAfter s.noActionEventPending := by
        have happly := (applyEvent_registers md vars.foundHcrtm s.registers (eventAt mem)).1
        rw [← hregisters] at happly
        exact happly
      rw [hbuffer p (by rw [hwrote.pcrNums]; exact hp), hwrote.buffer, hflag, hwrote.format,
        List.append_assoc, entriesFrom]
      by_cases hpe : (eventAt mem).pcrIndex = p
      · have hasked : p = (eventAt mem).pcrIndex ∧ p ∈ s.pcrNums := ⟨hpe.symm, hp⟩
        have hseen : seenAfter seen (eventAt mem).pcrIndex p = true := by
          simp [seenAfter, hpe]
        rw [if_pos hasked, if_pos hpe, hseen, entriesText_cons, hpe]
      · have hother : ¬(p = (eventAt mem).pcrIndex ∧ p ∈ s.pcrNums) := fun h => hpe h.1.symm
        have hseen : seenAfter seen (eventAt mem).pcrIndex p = seen p := by
          simp [seenAfter, Ne.symm hpe]
        rw [if_neg hother, if_neg hpe, hseen, List.nil_append]

/-- What an accepted crypto-agile log wrote: in the event log of a register asked for, the
text of its entries. -/
structure EventBuf.Parsed (b : EventBuf) (format : Format) (pcrNums : List Nat) (t : CbData) :
    Prop where
  same : t.format = format
  buffer : ∀ p ∈ pcrNums, bufferText p t = entriesText format p (b.written format p)
  indices : ∀ site ∈ b.sites, (eventAt site).pcrIndex < 32

theorem tpmParseEventlog_written {md : Md 32} {b : EventBuf} {format : Format}
    {pcrNums : List Nat} {s' : CbData} (hagile : b.CryptoAgile)
    (h : run (tpmParseEventlog md b) (CbData.start format pcrNums) = .ok (1, s')) :
    b.Parsed format pcrNums s' := by
  apply accepted_of_loop hagile _ h
  intro next hspec hlong
  have hsites : b.sites =
      sitesFrom (b.log.length - next + 1) (b.memory.drop next) (b.log.length - next) := by
    unfold EventBuf.sites
    rw [hspec]
  apply wlp_mono (event2Loop_written md _ _ _ _ _ hlong (Or.inl rfl) LoopVars.start_knows) _
    fun _ _ h => h
  intro _ t ht
  rw [← hsites] at ht
  obtain ⟨hformat, _, hbuffer, hindices⟩ := ht
  exact ⟨hformat, fun p hp => hbuffer p hp, hindices⟩

end MeasuredBoot.SrtmLog
