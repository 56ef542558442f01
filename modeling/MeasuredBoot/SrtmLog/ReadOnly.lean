import MeasuredBoot.SrtmLog.Parser

/-! # The callbacks and the log still to be parsed

The program's pass over a log against a pass whose callbacks leave the log alone. Of
the callbacks only `event_ipl` writes to the log. What it writes stays in its event
exactly when the NUL it stops at comes before any tab behind the event.
-/

namespace MeasuredBoot.SrtmLog

open Binary Imperative Imperative.Proc

variable {σ α β : Type}

/-! ## Recording a pass -/

/-- What the callbacks get to see. -/
inductive Delivery where
  | header (pcrIndex eventType : Nat)
  | digest (d : Digest2)
  | data (eventType : Nat) (bytes : Bytes)
  deriving DecidableEq

/-- A call of the event data callback: the memory from the `TCG_EVENT2` on, before and
after it. -/
structure DataCall where
  eventType : Nat
  before : Bytes
  after : Bytes
  deriving DecidableEq

def DataCall.size (c : DataCall) : Nat := ofLE (slice c.before 0 4)

/-- The callbacks' data and what was recorded about the pass. -/
structure Pass (σ : Type) where
  data : σ
  delivered : List Delivery
  calls : List DataCall

def onData (m : Proc σ α) : Proc (Pass σ) α := fun p =>
  match m p.data with
  | .next a s => .next a { p with data := s }
  | .exit r s => .exit r { p with data := s }
  | .stop w => .stop w

def deliver (d : Delivery) : Proc (Pass σ) Unit :=
  update fun p => { p with delivered := p.delivered ++ [d] }

def recordCall (c : DataCall) (p : Pass σ) : Pass σ := { p with calls := p.calls ++ [c] }

/-- The same callbacks, with a record of what they get and do. -/
def recording (ctx : Context σ) : Context (Pass σ) where
  specidCb event := onData (ctx.specidCb event)
  initvalCb locality pcr := onData (ctx.initvalCb locality pcr)
  event2hdrCb hdr := do
    deliver (.header hdr.pcrIndex hdr.eventType)
    onData (ctx.event2hdrCb hdr)
  logEventhdrCb event := do
    deliver (.header (ofLE (slice event 0 4)) (ofLE (slice event 4 4)))
    deliver (.digest ⟨tpm2AlgSha1, slice event 8 20⟩)
    onData (ctx.logEventhdrCb event)
  digest2Cb digest := do
    deliver (.digest digest)
    onData (ctx.digest2Cb digest)
  event2Cb event type := do
    deliver (.data type (slice event 4 (ofLE (slice event 0 4))))
    let left ← onData (ctx.event2Cb event type)
    update (recordCall ⟨type, event, left.2⟩)
    return left
  startupLocality byte p := { p with data := ctx.startupLocality byte p.data }

/-! ## The read-only pass -/

/-- The bytes up to the first NUL with spaces for tabs. -/
def spacesForTabs : Bytes → Bytes
  | [] => []
  | d :: rest => if d = 0 then d :: rest else (if d = 9 then 32 else d) :: spacesForTabs rest

/-- `event_ipl` on a copy of the description. -/
def readOnlyIpl (size : Nat) (description : Bytes) : Proc CbData (Bool × Bytes) := do
  let s ← getState
  addEvlog (.ok (iplOpening s.format))
  printIpl size (spacesForTabs description)
  return (true, description)

/-- The program's callbacks without the writes to the log. -/
def readOnlyContext (md : Md 32) : Context CbData :=
  { programContext md with event2Cb := eventDataCbWith readOnlyIpl }

/-- A recorded pass over a log that was read, with empty output before. -/
def passOver (ctx : Context CbData) (b : EventBuf) (format : Format) (pcrNums : List Nat) :
    Except Stop (Int × Pass CbData) :=
  run (parseEventlog (recording ctx) b.memory b.log.length) ⟨CbData.start format pcrNums, [], []⟩

/-! ## Frames -/

/-- Nothing outside the `EventSize` bytes of the event is changed. -/
def DataCall.Framed (c : DataCall) : Prop :=
  c.after.take 4 = c.before.take 4 ∧ c.after.drop (4 + c.size) = c.before.drop (4 + c.size)

/-- Data of an `EV_IPL` event is followed by a NUL, with no tab between the end of the
event and that NUL. -/
def DataCall.CleanEnd (c : DataCall) : Prop :=
  c.eventType = evIpl → c.size ≠ 0 →
    0 ∈ c.before.drop 4 ∧ 9 ∉ (cString (c.before.drop 4)).drop c.size

theorem replaceTabs_of_nul {description : Bytes} (h : 0 ∈ description) :
    replaceTabs description = .ok (spacesForTabs description) := by
  induction description with
  | nil => cases h
  | cons d rest ih =>
      by_cases hd : d = 0
      · simp [replaceTabs, spacesForTabs, hd]
      · have hrest : 0 ∈ rest := by
          rcases List.mem_cons.mp h with h0 | h0
          · exact absurd h0.symm hd
          · exact h0
        simp only [replaceTabs, spacesForTabs, if_neg hd, ih hrest]
        rfl

theorem replaceTabs_of_not_nul {description : Bytes} (h : 0 ∉ description) :
    replaceTabs description = .error .fault := by
  induction description with
  | nil => rfl
  | cons d rest ih =>
      have hd : d ≠ 0 := fun h0 => h (by simp [h0])
      simp only [replaceTabs, if_neg hd, ih fun h0 => h (List.mem_cons_of_mem d h0)]
      rfl

/-- The bytes from `size` on stay as they are exactly when no tab among them comes before
the NUL. -/
theorem spacesForTabs_drop (description : Bytes) (size : Nat) :
    (spacesForTabs description).drop size = description.drop size ↔
      9 ∉ (cString description).drop size := by
  induction description generalizing size with
  | nil => simp [spacesForTabs, cString]
  | cons d rest ih =>
      by_cases hd : d = 0
      · simp [spacesForTabs, cString, hd]
      · have hstring : cString (d :: rest) = d :: cString rest := by simp [cString, hd]
        rw [spacesForTabs, if_neg hd, hstring]
        cases size with
        | succ size => simpa using ih size
        | zero =>
            have hall := ih 0
            simp only [List.drop_zero] at hall ⊢
            by_cases htab : d = 9
            · simp [htab]
            · rw [if_neg htab, List.cons.injEq, hall, List.mem_cons]
              simp [Ne.symm htab]

/-! ## The event data callbacks side by side -/

theorem addEvlog_no_exit (text : Except Stop Bytes) (s : CbData) :
    wlp (addEvlog text) (fun _ _ => True) (fun _ _ => False) s := by
  apply wlp_bind
  apply wlp_getState
  apply wlp_when
  · intro _
    apply wlp_bind
    apply wlp_lift
    intro formatted _
    apply wlp_bind
    apply wlp_lift
    intro printed _
    apply wlp_bind
    apply wlp_getState
    apply wlp_bind
    apply wlp_when
    · intro _
      trivial
    · intro _
      trivial
  · intro _
    trivial

/-- With a NUL in reach the two versions print the same, and only one writes. -/
theorem eventIpl_of_nul {description : Bytes} (h : 0 ∈ description) (size : Nat) :
    eventIpl size description = do
      let _ ← readOnlyIpl size description
      return (true, spacesForTabs description) := by
  unfold eventIpl readOnlyIpl
  rw [replaceTabs_of_nul h]
  simp only [bind_assoc, pure_bind]
  rfl

/-- Without one the loop leaves the buffer. -/
theorem eventIpl_of_not_nul {description : Bytes} (h : 0 ∉ description) (size : Nat)
    (s : CbData) : ∃ w, eventIpl size description s = .stop w := by
  unfold eventIpl
  rw [replaceTabs_of_not_nul h]
  rw [bind_apply, getState_apply, andThen_next, bind_apply]
  cases hrun : addEvlog (.ok (iplOpening s.format)) s with
  | next a t => exact ⟨_, rfl⟩
  | exit r t => exact (exit_of_wlp (addEvlog_no_exit _ s) hrun).elim
  | stop w => exact ⟨w, rfl⟩

theorem readOnlyIpl_wlp (size : Nat) (description : Bytes) (s : CbData) :
    wlp (readOnlyIpl size description) (fun left _ => left = (true, description))
      (fun _ _ => False) s := by
  have hlog : ∀ text t, wlp (addEvlog text) (fun _ (_ : CbData) => True) (fun _ _ => False) t :=
    addEvlog_no_exit
  apply wlp_bind
  apply wlp_getState
  apply wlp_bind
  apply wlp_mono (hlog _ _) _ fun _ _ h => h
  intro _ t _
  apply wlp_bind
  apply wlp_mono (Q := fun _ _ => True) (E := fun _ _ => False) _ _ fun _ _ h => h
  · apply wlp_bind
    apply wlp_getState
    apply wlp_bind
    apply wlp_mono (wlp_forEach (I := fun _ => True) (E := fun _ _ => False) _ trivial) _
      fun _ _ h => h
    · intro line _ u _
      exact hlog _ _
    · intro _ u _
      apply wlp_when
      · intro _
        exact hlog _ _
      · intro _
        trivial
  · intro _ _ _
    rfl

theorem readOnlyIpl_value {size : Nat} {description : Bytes} {s t : CbData} {left : Bool × Bytes}
    (h : readOnlyIpl size description s = .next left t) : left.1 = true ∧ left.2 = description := by
  rw [next_of_wlp (readOnlyIpl_wlp size description s) h]
  exact ⟨rfl, rfl⟩

theorem readOnlyIpl_no_exit {size : Nat} {description : Bytes} {s t : CbData} {r : Int}
    (h : readOnlyIpl size description s = .exit r t) : False :=
  exit_of_wlp (readOnlyIpl_wlp size description s) h

/-- The callback of an `EV_IPL` event with data. -/
theorem eventDataCbWith_ipl (ipl : Nat → Bytes → Proc CbData (Bool × Bytes)) {event : Bytes}
    (hsize : ofLE (slice event 0 4) ≠ 0) :
    eventDataCbWith ipl event evIpl = do
      let left ← ipl (ofLE (slice event 0 4)) (event.drop 4)
      return (left.1, event.take 4 ++ left.2) := by
  unfold eventDataCbWith
  rw [if_neg hsize, if_neg (show ¬(isVariableEvent evIpl = true) by decide), if_pos rfl]

/-- For all other events the two versions are one, and leave the memory as it is. -/
theorem eventDataCbWith_other {event : Bytes} {type : Nat}
    (h : ¬(type = evIpl ∧ ofLE (slice event 0 4) ≠ 0))
    (ipl : Nat → Bytes → Proc CbData (Bool × Bytes)) :
    ∃ m : Proc CbData Bool, eventDataCbWith ipl event type = (do
      let ret ← m
      return (ret, event)) ∧
      ∀ ipl', eventDataCbWith ipl' event type = eventDataCbWith ipl event type := by
  unfold eventDataCbWith
  by_cases hsize : ofLE (slice event 0 4) = 0
  · refine ⟨pure true, ?_, ?_⟩
    · rw [if_pos hsize]
      rfl
    · intro ipl'
      rw [if_pos hsize, if_pos hsize]
  have htype : type ≠ evIpl := fun hipl => h ⟨hipl, hsize⟩
  simp only [if_neg hsize, if_neg htype]
  by_cases hvar : isVariableEvent type = true
  · exact ⟨_, if_pos hvar, fun _ => trivial⟩
  by_cases hgpt : type = evEfiGptEvent
  · refine ⟨eventGpt (ofLE (slice event 0 4)) (event.drop 4), ?_, fun _ => trivial⟩
    rw [if_neg hvar, if_pos hgpt]
  by_cases hno : type = evNoAction
  · refine ⟨pure true, ?_, fun _ => trivial⟩
    rw [if_neg hvar, if_neg hgpt, if_pos hno]
    rfl
  · refine ⟨do
      addEvlogDescription (plainDescription type (ofLE (slice event 0 4)) (event.drop 4))
      return true, ?_, fun _ => trivial⟩
    rw [if_neg hvar, if_neg hgpt, if_neg hno]
    simp only [bind_assoc, pure_bind]

/-! ## Two passes side by side -/

/-- The two passes carry the same data and delivered the same. -/
def Same (p q : Pass CbData) : Prop := p.data = q.data ∧ p.delivered = q.delivered

/-- The callbacks' data is related, the same was delivered, and `cs` and `cs'` are the
calls so far. -/
def Tied {τ : Type} (S : σ → τ → Prop) (cs cs' : List DataCall) (p : Pass σ) (q : Pass τ) : Prop :=
  (S p.data q.data ∧ p.delivered = q.delivered) ∧ p.calls = cs ∧ q.calls = cs'

/-- The pass gets somewhere, and `K` holds of all its calls. -/
def Sound (K : DataCall → Prop) : Outcome (Pass σ) α → Prop
  | .next _ p => ∀ c ∈ p.calls, K c
  | .exit _ p => ∀ c ∈ p.calls, K c
  | .stop _ => False

/-- Either all is well on both sides and the passes agree, or neither side is well. -/
def Matched (o o' : Outcome (Pass CbData) α) : Prop :=
  (Sound DataCall.Framed o ∧ Sound DataCall.CleanEnd o' ∧ Agree Same o o') ∨
    (¬Sound DataCall.Framed o ∧ ¬Sound DataCall.CleanEnd o')

/-- No call is forgotten. -/
def Grows (m : Proc (Pass σ) α) : Prop :=
  ∀ (K : DataCall → Prop) (p : Pass σ), Sound K (m p) → ∀ c ∈ p.calls, K c

theorem sound_of_bind {m : Proc (Pass σ) α} {f : α → Proc (Pass σ) β} {K : DataCall → Prop}
    {p : Pass σ} (hf : ∀ a, Grows (f a)) (h : Sound K ((m >>= f) p)) : Sound K (m p) := by
  rw [bind_apply] at h
  cases hrun : m p with
  | next a p' =>
      rw [hrun] at h
      exact hf a K p' h
  | exit r p' =>
      rw [hrun] at h
      exact h
  | stop w =>
      rw [hrun] at h
      exact h

theorem Grows.bind {m : Proc (Pass σ) α} {f : α → Proc (Pass σ) β} (hm : Grows m)
    (hf : ∀ a, Grows (f a)) : Grows (m >>= f) := by
  intro K p h
  exact hm K p (sound_of_bind hf h)

/-- Matched statements followed by matched statements. -/
theorem Matched.bind {m n : Proc (Pass CbData) α} {f g : α → Proc (Pass CbData) β}
    {p q : Pass CbData} (h : Matched (m p) (n q)) (hf : ∀ a, Grows (f a)) (hg : ∀ a, Grows (g a))
    (hnext : ∀ a p' q', m p = .next a p' → n q = .next a q' → Same p' q' →
      (∀ c ∈ p'.calls, c.Framed) → (∀ c ∈ q'.calls, c.CleanEnd) → Matched (f a p') (g a q')) :
    Matched ((m >>= f) p) ((n >>= g) q) := by
  rcases h with ⟨hsound, hclean, hagree⟩ | ⟨hsound, hclean⟩
  · rw [bind_apply, bind_apply]
    rcases hagree.inv with ⟨a, p', q', hm, hn, hsame⟩ | ⟨r, p', q', hm, hn, hsame⟩ | ⟨w, hm, hn⟩
    · rw [hm] at hsound ⊢
      rw [hn] at hclean ⊢
      exact hnext a p' q' hm hn hsame hsound hclean
    · rw [hm] at hsound ⊢
      rw [hn] at hclean ⊢
      exact Or.inl ⟨hsound, hclean, rfl, hsame⟩
    · rw [hm] at hsound
      exact hsound.elim
  · right
    exact ⟨fun h => hsound (sound_of_bind hf h), fun h => hclean (sound_of_bind hg h)⟩

/-- Statements in lockstep that call no event data callback are matched. -/
theorem Matched.of_lockstep {m n : Proc (Pass CbData) α} {p q : Pass CbData}
    (h : Lockstep (Tied Eq p.calls q.calls) m n) (hsame : Same p q)
    (hp : ∀ c ∈ p.calls, c.Framed) (hq : ∀ c ∈ q.calls, c.CleanEnd) : Matched (m p) (n q) := by
  rcases (h p q ⟨hsame, rfl, rfl⟩).inv with
    ⟨a, p', q', hm, hn, hsame', hcalls, hcalls'⟩ | ⟨r, p', q', hm, hn, hsame', hcalls, hcalls'⟩ |
    ⟨w, hm, hn⟩
  · rw [hm, hn]
    left
    rw [← hcalls] at hp
    rw [← hcalls'] at hq
    exact ⟨hp, hq, rfl, hsame'⟩
  · rw [hm, hn]
    left
    rw [← hcalls] at hp
    rw [← hcalls'] at hq
    exact ⟨hp, hq, rfl, hsame'⟩
  · rw [hm, hn]
    exact Or.inr ⟨id, id⟩

/-! ## The parts of a pass -/

section Tied

variable {τ : Type} {S : σ → τ → Prop} {cs cs' : List DataCall}

theorem onData_lockstep {m : Proc σ α} {n : Proc τ α} (h : Lockstep S m n) :
    Lockstep (Tied S cs cs') (onData m) (onData n) := by
  intro p q hpq
  obtain ⟨⟨hdata, hdelivered⟩, hcalls⟩ := hpq
  unfold onData
  rcases (h p.data q.data hdata).inv with
    ⟨a, s, t, hm, hn, hst⟩ | ⟨r, s, t, hm, hn, hst⟩ | ⟨w, hm, hn⟩
  · rw [hm, hn]
    exact ⟨rfl, ⟨hst, hdelivered⟩, hcalls⟩
  · rw [hm, hn]
    exact ⟨rfl, ⟨hst, hdelivered⟩, hcalls⟩
  · rw [hm, hn]
    rfl

theorem deliver_lockstep (d : Delivery) :
    Lockstep (Tied S cs cs') (deliver d) (deliver d) := by
  apply Lockstep.update
  intro p q hpq
  obtain ⟨⟨hdata, hdelivered⟩, hcalls⟩ := hpq
  exact ⟨⟨hdata, congrArg (· ++ [d]) hdelivered⟩, hcalls⟩

theorem recording_headAgree {ctx : Context σ} {ctx' : Context τ} (h : ctx.HeadAgree S ctx') :
    (recording ctx).HeadAgree (Tied S cs cs') (recording ctx') where
  specid event := onData_lockstep (h.specid event)
  initval locality pcr := onData_lockstep (h.initval locality pcr)
  event2hdr hdr := Lockstep.bind (deliver_lockstep _) fun _ => onData_lockstep (h.event2hdr hdr)
  logEventhdr event := Lockstep.bind (deliver_lockstep _) fun _ =>
    Lockstep.bind (deliver_lockstep _) fun _ => onData_lockstep (h.logEventhdr event)
  digest2 digest := Lockstep.bind (deliver_lockstep _) fun _ => onData_lockstep (h.digest2 digest)
  locality byte p q hpq := by
    obtain ⟨⟨hdata, hdelivered⟩, hcalls⟩ := hpq
    exact ⟨⟨h.locality byte _ _ hdata, hdelivered⟩, hcalls⟩

end Tied

/-- Any two contexts that differ in the event data callback only. -/
theorem headAgree_event2Cb (ctx : Context σ) (cb : Bytes → Nat → Proc σ (Bool × Bytes)) :
    ctx.HeadAgree Eq { ctx with event2Cb := cb } where
  specid _ := Lockstep.refl _
  initval _ _ := Lockstep.refl _
  event2hdr _ := Lockstep.refl _
  logEventhdr _ := Lockstep.refl _
  digest2 _ := Lockstep.refl _
  locality _ _ _ h := congrArg _ h

/-- What the recorded event data callback comes down to. -/
theorem deliverData_recording (ctx : Context σ) (event : Bytes) (type len : Nat) (p : Pass σ) :
    deliverData (recording ctx) event type len p =
      match ctx.event2Cb event type p.data with
      | .next left s =>
          if left.1 = false then .exit 0 ⟨s, p.delivered ++ [.data type
            (slice event 4 (ofLE (slice event 0 4)))], p.calls ++ [⟨type, event, left.2⟩]⟩
          else .next (left.2.drop len) ⟨s, p.delivered ++ [.data type
            (slice event 4 (ofLE (slice event 0 4)))], p.calls ++ [⟨type, event, left.2⟩]⟩
      | .exit r s => .exit r ⟨s, p.delivered ++ [.data type
            (slice event 4 (ofLE (slice event 0 4)))], p.calls⟩
      | .stop w => .stop w := by
  unfold deliverData recording
  simp only [bind_apply, deliver, update_apply, andThen_next, onData]
  cases ctx.event2Cb event type p.data with
  | next left s =>
      obtain ⟨ret, mem⟩ := left
      cases ret <;> rfl
  | exit r s => rfl
  | stop w => rfl

theorem deliverData_grows (ctx : Context σ) (event : Bytes) (type len : Nat) :
    Grows (deliverData (recording ctx) event type len) := by
  intro K p h
  rw [deliverData_recording] at h
  cases hcb : ctx.event2Cb event type p.data with
  | next left s =>
      rw [hcb] at h
      intro c hc
      by_cases hret : left.1 = false
      · simp only [if_pos hret] at h
        exact h c (List.mem_append_left _ hc)
      · simp only [if_neg hret] at h
        exact h c (List.mem_append_left _ hc)
  | exit r s =>
      rw [hcb] at h
      exact h
  | stop w =>
      rw [hcb] at h
      exact h.elim

/-- Statements without an event data callback record no call. -/
theorem Grows.of_lockstep {m : Proc (Pass σ) α}
    (h : ∀ cs, Lockstep (Tied Eq cs cs) m m) : Grows m := by
  intro K p hsound
  have hagree := h p.calls p p ⟨⟨rfl, rfl⟩, rfl, rfl⟩
  rcases hagree.inv with ⟨a, p', q', hm, hn, _, hcalls, _⟩ | ⟨r, p', q', hm, hn, _, hcalls, _⟩ |
    ⟨w, hm, hn⟩
  · rw [hm] at hsound
    rw [← hcalls]
    exact hsound
  · rw [hm] at hsound
    rw [← hcalls]
    exact hsound
  · rw [hm] at hsound
    exact hsound.elim

theorem Grows.pure (a : α) : Grows (pure a : Proc (Pass σ) α) := by
  intro K p h
  exact h

theorem event2Loop_grows (ctx : Context σ) (fuel : Nat) (vars : LoopVars) (eventhdr : Bytes)
    (size : Nat) : Grows (event2Loop (recording ctx) fuel vars eventhdr size) := by
  induction fuel generalizing vars eventhdr size with
  | zero =>
      intro K p h
      exact h.elim
  | succ fuel ih =>
      unfold event2Loop
      split
      · exact Grows.pure ()
      apply Grows.bind
      · apply Grows.bind
        · apply Grows.of_lockstep
          intro cs
          exact parseEvent2_lockstep _ _
        intro layout
        apply Grows.bind
        · apply Grows.of_lockstep
          intro cs
          exact event2Head_lockstep
            ((recording_headAgree (headAgree_event2Cb ctx ctx.event2Cb)).event _) _ _
        intro vars
        apply Grows.bind (deliverData_grows _ _ _ _)
        intro next
        exact Grows.pure _
      intro next
      exact ih _ _ _

theorem sha1Loop_grows (ctx : Context σ) (fuel : Nat) (eventhdr : Bytes) (size : Nat) :
    Grows (sha1Loop (recording ctx) fuel eventhdr size) := by
  induction fuel generalizing eventhdr size with
  | zero =>
      intro K p h
      exact h.elim
  | succ fuel ih =>
      unfold sha1Loop
      split
      · exact Grows.pure ()
      apply Grows.bind
      · apply Grows.of_lockstep
        intro cs
        exact sha1Head_lockstep
          ((recording_headAgree (headAgree_event2Cb ctx ctx.event2Cb)).logEventhdr _) _
      intro eventSize
      apply Grows.bind (deliverData_grows _ _ _ _)
      intro next
      exact ih _ _

/-! ## The event data of both passes -/

theorem forall_mem_concat {K : DataCall → Prop} {cs : List DataCall} {c : DataCall}
    (hcs : ∀ d ∈ cs, K d) (hc : K c) : ∀ d ∈ cs ++ [c], K d := by
  intro d hd
  rcases List.mem_append.mp hd with h | h
  · exact hcs d h
  · rw [List.mem_singleton.mp h]
    exact hc

/-- A callback that gives the memory back as it got it is matched by itself. -/
theorem deliverData_matched_other (ctx ctx' : Context CbData) {event : Bytes} {type : Nat}
    {m : Proc CbData Bool} (hm : ctx.event2Cb event type = (do
      let ret ← m
      return (ret, event)))
    (hm' : ctx'.event2Cb event type = ctx.event2Cb event type)
    (hkind : ¬(type = evIpl ∧ ofLE (slice event 0 4) ≠ 0)) (len : Nat) {p q : Pass CbData}
    (hsame : Same p q) (hp : ∀ c ∈ p.calls, c.Framed) (hq : ∀ c ∈ q.calls, c.CleanEnd) :
    Matched (deliverData (recording ctx) event type len p)
      (deliverData (recording ctx') event type len q) := by
  have hframed : DataCall.Framed ⟨type, event, event⟩ := ⟨rfl, rfl⟩
  have hclean : DataCall.CleanEnd ⟨type, event, event⟩ := fun htype hsize =>
    absurd ⟨htype, hsize⟩ hkind
  rw [deliverData_recording, deliverData_recording, hm', hm, hsame.1, hsame.2, bind_apply]
  cases m q.data with
  | exit r s => exact Or.inl ⟨hp, hq, rfl, rfl, rfl⟩
  | stop w => exact Or.inr ⟨id, id⟩
  | next ret s =>
      left
      rw [andThen_next]
      cases ret with
      | false => exact ⟨forall_mem_concat hp hframed, forall_mem_concat hq hclean, rfl, rfl, rfl⟩
      | true => exact ⟨forall_mem_concat hp hframed, forall_mem_concat hq hclean, rfl, rfl, rfl⟩

/-- The call of an `EV_IPL` event with a NUL in reach is framed exactly when its end is
clean. -/
theorem iplCall_framed_iff {event after : Bytes} (h : 0 ∈ event.drop 4)
    (hsize : ofLE (slice event 0 4) ≠ 0) :
    DataCall.Framed ⟨evIpl, event, event.take 4 ++ spacesForTabs (event.drop 4)⟩ ↔
      DataCall.CleanEnd ⟨evIpl, event, after⟩ := by
  have hlong : (event.take 4).length = 4 := by
    have hpos : 0 < (event.drop 4).length := List.length_pos_of_mem h
    rw [List.length_drop] at hpos
    rw [List.length_take]
    omega
  unfold DataCall.Framed DataCall.CleanEnd DataCall.size
  dsimp only
  rw [List.take_append_of_le_length (Nat.le_of_eq hlong.symm), List.take_take, Nat.min_self,
    ← List.drop_drop, List.drop_append_of_le_length (Nat.le_of_eq hlong.symm),
    List.drop_of_length_le (Nat.le_of_eq hlong), List.nil_append, ← List.drop_drop,
    spacesForTabs_drop]
  constructor
  · intro hframed _ _
    exact ⟨h, hframed.2⟩
  · intro hclean
    exact ⟨rfl, (hclean rfl hsize).2⟩

theorem deliverData_matched_ipl (md : Md 32) {event : Bytes} {len : Nat}
    (hlen : len = 4 + ofLE (slice event 0 4)) (hsize : ofLE (slice event 0 4) ≠ 0)
    {p q : Pass CbData} (hsame : Same p q) (hp : ∀ c ∈ p.calls, c.Framed)
    (hq : ∀ c ∈ q.calls, c.CleanEnd) :
    Matched (deliverData (recording (programContext md)) event evIpl len p)
      (deliverData (recording (readOnlyContext md)) event evIpl len q) := by
  have hcb : (programContext md).event2Cb event evIpl = _ := eventDataCbWith_ipl eventIpl hsize
  have hcb' : (readOnlyContext md).event2Cb event evIpl = _ :=
    eventDataCbWith_ipl readOnlyIpl hsize
  rw [deliverData_recording, deliverData_recording, hcb, hcb', hsame.1, hsame.2, bind_apply,
    bind_apply]
  by_cases hnul : 0 ∈ event.drop 4
  · rw [eventIpl_of_nul hnul, bind_apply]
    cases hro : readOnlyIpl (ofLE (slice event 0 4)) (event.drop 4) q.data with
    | exit r s => exact Or.inl ⟨hp, hq, rfl, rfl, rfl⟩
    | stop w => exact Or.inr ⟨id, id⟩
    | next left s =>
        obtain ⟨hret, hback⟩ := readOnlyIpl_value hro
        simp only [andThen_next, pure_apply, hret, hback, List.take_append_drop]
        by_cases hclean : DataCall.CleanEnd ⟨evIpl, event, event⟩
        · left
          have hframed := (iplCall_framed_iff hnul hsize).mpr hclean
          have hrest := hframed.2
          rw [hlen]
          simp only [DataCall.size] at hrest
          exact ⟨forall_mem_concat hp hframed, forall_mem_concat hq hclean, hrest, rfl, rfl⟩
        · right
          constructor
          · intro hsound
            apply hclean
            exact (iplCall_framed_iff hnul hsize).mp (hsound _ (by simp))
          · intro hsound
            exact hclean (hsound _ (by simp))
  · obtain ⟨w, hstop⟩ := eventIpl_of_not_nul hnul (ofLE (slice event 0 4)) q.data
    rw [hstop]
    right
    refine ⟨id, ?_⟩
    intro hsound
    cases hro : readOnlyIpl (ofLE (slice event 0 4)) (event.drop 4) q.data with
    | exit r s => exact readOnlyIpl_no_exit hro
    | stop w =>
        rw [hro] at hsound
        exact hsound
    | next left s =>
        obtain ⟨hret, hback⟩ := readOnlyIpl_value hro
        simp only [hro, andThen_next, pure_apply, hret, hback, List.take_append_drop] at hsound
        exact hnul (hsound ⟨evIpl, event, event⟩ (by simp) rfl hsize).1

theorem deliverData_matched (md : Md 32) (event : Bytes) (type : Nat) {len : Nat}
    (hlen : len = 4 + ofLE (slice event 0 4)) {p q : Pass CbData} (hsame : Same p q)
    (hp : ∀ c ∈ p.calls, c.Framed) (hq : ∀ c ∈ q.calls, c.CleanEnd) :
    Matched (deliverData (recording (programContext md)) event type len p)
      (deliverData (recording (readOnlyContext md)) event type len q) := by
  by_cases hkind : type = evIpl ∧ ofLE (slice event 0 4) ≠ 0
  · obtain ⟨htype, hsize⟩ := hkind
    subst htype
    exact deliverData_matched_ipl md hlen hsize hsame hp hq
  · obtain ⟨m, hm, hany⟩ := eventDataCbWith_other hkind eventIpl
    exact deliverData_matched_other (programContext md) (readOnlyContext md) hm (hany readOnlyIpl)
      hkind len hsame hp hq

/-! ## Whole logs -/

theorem contexts_headAgree (md : Md 32) (cs cs' : List DataCall) :
    (recording (programContext md)).HeadAgree (Tied Eq cs cs') (recording (readOnlyContext md)) :=
  recording_headAgree (headAgree_event2Cb (programContext md) (eventDataCbWith readOnlyIpl))

theorem event2Loop_matched (md : Md 32) (fuel : Nat) (vars : LoopVars) (eventhdr : Bytes)
    (size : Nat) {p q : Pass CbData} (hsame : Same p q) (hp : ∀ c ∈ p.calls, c.Framed)
    (hq : ∀ c ∈ q.calls, c.CleanEnd) :
    Matched (event2Loop (recording (programContext md)) fuel vars eventhdr size p)
      (event2Loop (recording (readOnlyContext md)) fuel vars eventhdr size q) := by
  induction fuel generalizing vars eventhdr size p q with
  | zero => exact Or.inr ⟨id, id⟩
  | succ fuel ih =>
      unfold event2Loop
      split
      · exact Or.inl ⟨hp, hq, rfl, hsame⟩
      simp only [event2Step, bind_assoc, pure_bind]
      -- one round: parse, head, event data, and the rounds behind it
      have hdata : ∀ (ctx : Context CbData) (layout : Layout) (vars : LoopVars),
          Grows (deliverData (recording ctx) (eventhdr.drop (12 + layout.digestsSize))
            (header2At eventhdr).eventType (layout.eventSize - (12 + layout.digestsSize)) >>=
              fun next => event2Loop (recording ctx) fuel vars next (size - layout.eventSize)) :=
        fun ctx layout vars => Grows.bind (deliverData_grows _ _ _ _) fun _ =>
          event2Loop_grows ctx fuel _ _ _
      have hhead : ∀ (ctx : Context CbData) (layout : Layout),
          Grows (event2Head (recording ctx) vars eventhdr layout >>= fun vars =>
            deliverData (recording ctx) (eventhdr.drop (12 + layout.digestsSize))
              (header2At eventhdr).eventType (layout.eventSize - (12 + layout.digestsSize)) >>=
              fun next => event2Loop (recording ctx) fuel vars next (size - layout.eventSize)) := by
        intro ctx layout
        apply Grows.bind _ fun vars => hdata ctx layout vars
        apply Grows.of_lockstep
        intro cs
        exact event2Head_lockstep
          ((recording_headAgree (headAgree_event2Cb ctx ctx.event2Cb)).event _) _ _
      apply Matched.bind (Matched.of_lockstep (parseEvent2_lockstep _ _) hsame hp hq)
        (hhead _) (hhead _)
      intro layout p' q' hparse _ hsame hp hq
      have hlen : layout.eventSize - (12 + layout.digestsSize) =
          4 + ofLE (slice (eventhdr.drop (12 + layout.digestsSize)) 0 4) := by
        have hlayout := next_of_wlp (parseEvent2_layout eventhdr size p) hparse
        have hslice : slice (eventhdr.drop (12 + layout.digestsSize)) 0 4 =
            slice eventhdr (12 + layout.digestsSize) 4 := rfl
        rw [hslice]
        omega
      apply Matched.bind (Matched.of_lockstep
        (event2Head_lockstep ((contexts_headAgree md _ _).event _) _ _) hsame hp hq)
        (hdata _ _) (hdata _ _)
      intro vars p' q' _ _ hsame hp hq
      apply Matched.bind (deliverData_matched md _ _ hlen hsame hp hq)
        (fun _ => event2Loop_grows _ _ _ _ _) (fun _ => event2Loop_grows _ _ _ _ _)
      intro next p' q' _ _ hsame hp hq
      exact ih _ _ _ hsame hp hq

theorem sha1Loop_matched (md : Md 32) (fuel : Nat) (eventhdr : Bytes) (size : Nat)
    {p q : Pass CbData} (hsame : Same p q) (hp : ∀ c ∈ p.calls, c.Framed)
    (hq : ∀ c ∈ q.calls, c.CleanEnd) :
    Matched (sha1Loop (recording (programContext md)) fuel eventhdr size p)
      (sha1Loop (recording (readOnlyContext md)) fuel eventhdr size q) := by
  induction fuel generalizing eventhdr size p q with
  | zero => exact Or.inr ⟨id, id⟩
  | succ fuel ih =>
      unfold sha1Loop
      split
      · exact Or.inl ⟨hp, hq, rfl, hsame⟩
      have hdata : ∀ (ctx : Context CbData) (eventSize : Nat),
          Grows (deliverData (recording ctx) (eventhdr.drop 28) (ofLE (slice eventhdr 4 4))
            (eventSize - 28) >>= fun next =>
              sha1Loop (recording ctx) fuel next (size - eventSize)) :=
        fun ctx eventSize => Grows.bind (deliverData_grows _ _ _ _) fun _ =>
          sha1Loop_grows ctx fuel _ _
      apply Matched.bind (Matched.of_lockstep
        (sha1Head_lockstep ((contexts_headAgree md _ _).logEventhdr _) _) hsame hp hq)
        (hdata _) (hdata _)
      intro eventSize p' q' hhead _ hsame hp hq
      have hlen : eventSize - 28 = 4 + ofLE (slice (eventhdr.drop 28) 0 4) := by
        have hsize := sha1Head_size hhead
        have hslice : slice (eventhdr.drop 28) 0 4 = slice eventhdr 28 4 := rfl
        rw [hslice]
        omega
      apply Matched.bind (deliverData_matched md _ _ hlen hsame hp hq)
        (fun _ => sha1Loop_grows _ _ _ _) (fun _ => sha1Loop_grows _ _ _ _)
      intro next p' q' _ _ hsame hp hq
      exact ih _ _ hsame hp hq

theorem parseEventlog_matched (md : Md 32) (eventlog : Bytes) (size : Nat) (p : Pass CbData)
    (hcalls : p.calls = []) :
    Matched (parseEventlog (recording (programContext md)) eventlog size p)
      (parseEventlog (recording (readOnlyContext md)) eventlog size p) := by
  have hsame : Same p p := ⟨rfl, rfl⟩
  have hp : ∀ c ∈ p.calls, c.Framed := by simp [hcalls]
  have hq : ∀ c ∈ p.calls, c.CleanEnd := by simp [hcalls]
  have hone : ∀ q q' : Pass CbData, Same q q' → (∀ c ∈ q.calls, c.Framed) →
      (∀ c ∈ q'.calls, c.CleanEnd) →
      Matched ((pure 1 : Proc (Pass CbData) Int) q) ((pure 1 : Proc (Pass CbData) Int) q') :=
    fun q q' hs h h' => Or.inl ⟨h, h', rfl, hs⟩
  unfold parseEventlog
  by_cases hshort : size < 32
  · rw [exitIf_pos hshort]
    exact Or.inl ⟨hp, hq, rfl, hsame⟩
  rw [exitIf_neg hshort]
  simp only [pure_bind]
  by_cases hagile : ofLE (slice eventlog 4 4) = evNoAction
  · rw [if_pos hagile, if_pos hagile]
    cases specidEvent eventlog size with
    | none => exact Or.inl ⟨hp, hq, rfl, hsame⟩
    | some next =>
        have hloop : ∀ ctx : Context CbData, Grows (do
            foreachEvent2 (recording ctx) (eventlog.drop next) (size - next)
            return (1 : Int)) :=
          fun ctx => Grows.bind (event2Loop_grows ctx _ _ _ _) fun _ => Grows.pure _
        apply Matched.bind (Matched.of_lockstep ((contexts_headAgree md _ _).specid _) hsame hp hq)
          (fun _ => hloop _) (fun _ => hloop _)
        intro _ p' q' _ _ hsame hp hq
        apply Matched.bind (event2Loop_matched md _ _ _ _ hsame hp hq)
          (fun _ => Grows.pure _) (fun _ => Grows.pure _)
        intro _ p' q' _ _ hsame hp hq
        exact hone p' q' hsame hp hq
  · rw [if_neg hagile, if_neg hagile]
    apply Matched.bind (sha1Loop_matched md _ _ _ hsame hp hq)
      (fun _ => Grows.pure _) (fun _ => Grows.pure _)
    intro _ p' q' _ _ hsame hp hq
    exact hone p' q' hsame hp hq

/-! ## The frame of the callbacks -/

/-- The program's pass delivers what the read-only pass does, ends with the same verdict,
and no callback changes a byte outside its event's data. -/
def LogUndisturbed (md : Md 32) (b : EventBuf) (format : Format) (pcrNums : List Nat) : Prop :=
  ∃ verdict p q, passOver (programContext md) b format pcrNums = .ok (verdict, p) ∧
    passOver (readOnlyContext md) b format pcrNums = .ok (verdict, q) ∧
    p.delivered = q.delivered ∧ ∀ c ∈ p.calls, c.Framed

/-- Reading the original bytes reaches a verdict, and the data of every `EV_IPL` event on
the way is followed by a NUL with no tab before it. -/
def CleanlyTerminated (md : Md 32) (b : EventBuf) (format : Format) (pcrNums : List Nat) : Prop :=
  ∃ verdict q, passOver (readOnlyContext md) b format pcrNums = .ok (verdict, q) ∧
    ∀ c ∈ q.calls, c.CleanEnd

theorem logUndisturbed_iff (md : Md 32) (b : EventBuf) (format : Format) (pcrNums : List Nat) :
    LogUndisturbed md b format pcrNums ↔ CleanlyTerminated md b format pcrNums := by
  have hmatched := parseEventlog_matched md b.memory b.log.length
    ⟨CbData.start format pcrNums, [], []⟩ rfl
  unfold LogUndisturbed CleanlyTerminated passOver run
  rcases hmatched with ⟨hsound, hclean, hagree⟩ | ⟨hsound, hclean⟩
  · rcases hagree.inv with ⟨a, p, q, hm, hn, hsame⟩ | ⟨r, p, q, hm, hn, hsame⟩ | ⟨w, hm, hn⟩
    · rw [hm] at hsound ⊢
      rw [hn] at hclean ⊢
      constructor
      · intro _
        exact ⟨a, q, rfl, hclean⟩
      · intro _
        exact ⟨a, p, q, rfl, rfl, hsame.2, hsound⟩
    · rw [hm] at hsound ⊢
      rw [hn] at hclean ⊢
      constructor
      · intro _
        exact ⟨r, q, rfl, hclean⟩
      · intro _
        exact ⟨r, p, q, rfl, rfl, hsame.2, hsound⟩
    · rw [hm] at hsound
      exact hsound.elim
  · constructor
    · intro h
      obtain ⟨verdict, p, q, hp, _, _, hframed⟩ := h
      exfalso
      apply hsound
      split at hp
      · rename_i hm
        rw [hm]
        cases hp
        exact hframed
      · rename_i hm
        rw [hm]
        cases hp
        exact hframed
      · cases hp
    · intro h
      obtain ⟨verdict, q, hq, hends⟩ := h
      exfalso
      apply hclean
      split at hq
      · rename_i hn
        rw [hn]
        cases hq
        exact hends
      · rename_i hn
        rw [hn]
        cases hq
        exact hends
      · cases hq

/-- An `EV_IPL` event for PCR 8 whose data is `a` without a NUL, and an event without
digests and data for PCR 9. -/
def overrunBuf : EventBuf :=
  shortBuf (specidLog ++ (toLE 4 8 ++ toLE 4 evIpl ++ toLE 4 0 ++ toLE 4 1 ++ ascii "a")
    ++ (toLE 4 9 ++ toLE 4 4 ++ toLE 4 0 ++ toLE 4 0)) (by decide)

/-- The tab replaced behind the event turns PCR 9 into PCR 32, which is turned down. -/
theorem logDisturbed_unterminatedIpl :
    ¬∀ (md : Md 32) (b : EventBuf) (format : Format) (pcrNums : List Nat),
      b.CryptoAgile → LogUndisturbed md b format pcrNums := by
  intro h
  obtain ⟨verdict, p, q, hp, hq, _⟩ :=
    h (fun _ => zeroDigest 32) overrunBuf .text [7] ⟨by decide, by decide⟩
  have hprogram : (passOver (programContext fun _ => zeroDigest 32) overrunBuf .text [7]).map
      (·.1) = .ok 0 := by rfl
  have hreadOnly : (passOver (readOnlyContext fun _ => zeroDigest 32) overrunBuf .text [7]).map
      (·.1) = .ok 1 := by rfl
  rw [hp] at hprogram
  rw [hq] at hreadOnly
  cases hprogram
  cases hreadOnly

end MeasuredBoot.SrtmLog
