import Mathlib.Data.List.Forall2
import MeasuredBoot.Common.Sha2
import MeasuredBoot.SrtmLog.Replay

/-! # The calculated PCRs and the skip flag

What the calculated PCRs should be, and when they are: the flag that one callback sets
and another clears skips one digest for each `EV_NO_ACTION` event, whichever digest
comes next.
-/

namespace MeasuredBoot.SrtmLog

open Binary Imperative Imperative.Proc

/-! ## The values a log prescribes -/

def sha256Digests (digests : List Digest2) : List (Digest 32) :=
  (digests.filter (·.algorithmId = tpm2AlgSha256)).map (sha256Digest ·.digest)

/-- The digests a TPM extends for an event. -/
def Event.extended (e : Event) : List (Digest 32) :=
  if e.isNoAction then [] else sha256Digests e.digests

def extendedInto (events : List Event) (pcr : Nat) : List (Digest 32) :=
  events.flatMap fun e => if e.pcrIndex = pcr then e.extended else []

/-- The locality the log starts PCR 0 with: an H-CRTM event makes it 4. -/
def startupLocality (events : List Event) : UInt8 :=
  if events.any Event.isHcrtm then 4
  else ((events.filterMap Event.startupLocality).getLast?).getD 0

def initialValue (events : List Event) (pcr : Nat) : Digest 32 :=
  if pcr = 0 then withLastByte (zeroDigest 32) (startupLocality events) else zeroDigest 32

/-- Startup locality and H-CRTM events come before anything is extended into PCR 0. -/
def LocalityFirst (events : List Event) : Prop :=
  ∀ before e after, events = before ++ e :: after →
    (e.isHcrtm = true ∨ e.startupLocality.isSome = true) → extendedInto before 0 = []

/-- A digest of an `EV_NO_ACTION` event is not extended, and no other one is skipped. -/
def Handled (digest : Event × Digest2) (act : DigestAct) : Prop :=
  if digest.1.isNoAction then act ≠ .extend else act ≠ .skip

def Event.tagged (e : Event) : List (Event × Digest2) := e.digests.map fun d => (e, d)

/-- Every digest is handled as its event wants, and every PCR is the fold of its digests. -/
def ReplayCorrect (md : Md 32) (events : List Event) (s : CbData) : Prop :=
  List.Forall₂ Handled (events.flatMap Event.tagged) s.acts ∧
    ∀ pcr, s.calcPcrs pcr = replayFrom md (initialValue events pcr) (extendedInto events pcr)

/-- The next digest, if there is one, belongs to an `EV_NO_ACTION` event. -/
def NextIsNoAction (events : List Event) : Prop :=
  ∀ between e after, events = between ++ e :: after → (∀ m ∈ between, m.digests = []) →
    e.digests ≠ [] → e.isNoAction = true

/-- No `EV_NO_ACTION` event has a SHA-256 digest behind its first digest, and behind one
without digests the next digest belongs to another one. -/
def FlagClean (events : List Event) : Prop :=
  (∀ e ∈ events, e.isNoAction = true → sha256Digests e.digests.tail = []) ∧
    ∀ before e after, events = before ++ e :: after → e.isNoAction = true → e.digests = [] →
      NextIsNoAction after

/-! ## One event of the machine -/

def digestActs : Bool → List Digest2 → List DigestAct
  | _, [] => []
  | true, _ :: digests => .skip :: digestActs false digests
  | false, d :: digests =>
      (if d.algorithmId = tpm2AlgSha256 then .extend else .pass) :: digestActs false digests

/-- The digests the flag lets through. -/
def unskipped (pending : Bool) (digests : List Digest2) : List Digest2 :=
  if pending then digests.tail else digests

theorem foldl_applyDigest (md : Md 32) (pcr : Nat) (digests : List Digest2) (r : Registers) :
    digests.foldl (applyDigest md pcr) r =
      { pcrs := Function.update r.pcrs pcr
          (replayFrom md (r.pcrs pcr) (sha256Digests (unskipped r.pending digests)))
        pending := r.pending && digests.isEmpty
        acts := r.acts ++ digestActs r.pending digests
        messages := r.messages ++
          (unskipped r.pending digests).flatMap fun d => algoMessage d.algorithmId } := by
  induction digests generalizing r with
  | nil =>
      obtain ⟨pcrs, pending, acts, messages⟩ := r
      cases pending <;> simp [unskipped, sha256Digests, digestActs, replayFrom]
  | cons d digests ih =>
      obtain ⟨pcrs, pending, acts, messages⟩ := r
      rw [List.foldl_cons, ih]
      cases pending with
      | true => simp [applyDigest, unskipped, digestActs]
      | false =>
          by_cases halg : d.algorithmId = tpm2AlgSha256
          · simp [applyDigest, unskipped, digestActs, halg, sha256Digests, replayFrom, hashExtend,
              extendBlock]
          · simp [applyDigest, unskipped, digestActs, halg, sha256Digests]

/-- The flag when the first digest of an event is reached. -/
def Event.flag (e : Event) (pending : Bool) : Bool := e.isNoAction || pending

/-- The flag an event leaves behind. -/
def Event.flagAfter (e : Event) (pending : Bool) : Bool := e.flag pending && e.digests.isEmpty

def actsFrom : Bool → List Event → List DigestAct
  | _, [] => []
  | pending, e :: events =>
      digestActs (e.flag pending) e.digests ++ actsFrom (e.flagAfter pending) events

theorem applyEvent_registers (md : Md 32) (found : Bool) (r : Registers) (e : Event) :
    (applyEvent md (found, r) e).2.pending = e.flagAfter r.pending ∧
      (applyEvent md (found, r) e).2.acts = r.acts ++ digestActs (e.flag r.pending) e.digests := by
  unfold applyEvent
  rw [foldl_applyDigest]
  exact ⟨rfl, rfl⟩

theorem foldl_applyEvent_acts (md : Md 32) (events : List Event) (found : Bool) (r : Registers) :
    (events.foldl (applyEvent md) (found, r)).2.acts = r.acts ++ actsFrom r.pending events := by
  induction events generalizing found r with
  | nil => simp [actsFrom]
  | cons e events ih =>
      obtain ⟨hpending, hacts⟩ := applyEvent_registers md found r e
      rw [List.foldl_cons]
      cases hnext : applyEvent md (found, r) e with
      | mk found' r' =>
          rw [hnext] at hpending hacts
          simp only at hpending hacts
          rw [ih, hacts, hpending, actsFrom, List.append_assoc]

theorem applyEvent_messages (md : Md 32) (found : Bool) (r : Registers) {e : Event}
    (h : ∀ d ∈ e.digests, d.algorithmId ∈ supportedAlgorithms) :
    (applyEvent md (found, r) e).2.messages = r.messages := by
  have hnone : ∀ d ∈ unskipped (startEvent found e r).pending e.digests,
      algoMessage d.algorithmId = [] := by
    intro d hd
    apply if_pos
    apply h
    unfold unskipped at hd
    split at hd
    · exact List.mem_of_mem_tail hd
    · exact hd
  unfold applyEvent
  rw [foldl_applyDigest]
  dsimp only
  rw [List.flatMap_eq_nil_iff.mpr hnone, List.append_nil]
  rfl

/-- Nothing is printed about digests of the algorithms that have a name. -/
theorem foldl_applyEvent_messages (md : Md 32) {events : List Event}
    (h : ∀ e ∈ events, ∀ d ∈ e.digests, d.algorithmId ∈ supportedAlgorithms)
    (state : Bool × Registers) :
    (events.foldl (applyEvent md) state).2.messages = state.2.messages := by
  induction events generalizing state with
  | nil => rfl
  | cons e events ih =>
      obtain ⟨he, hevents⟩ := List.forall_mem_cons.mp h
      rw [List.foldl_cons, ih hevents]
      exact applyEvent_messages md state.1 state.2 he

/-! ## The flag is clean -/

/-- The condition at one event, with the flag it is reached with. -/
def Event.Clean (e : Event) (pending : Bool) : Prop :=
  if e.isNoAction then sha256Digests e.digests.tail = [] else pending = true → e.digests = []

def CleanFrom : Bool → List Event → Prop
  | _, [] => True
  | pending, e :: events => e.Clean pending ∧ CleanFrom (e.flagAfter pending) events

theorem forall₂_append_iff {α β : Type} {R : α → β → Prop} {as bs : List α} {cs ds : List β}
    (h : as.length = cs.length) :
    List.Forall₂ R (as ++ bs) (cs ++ ds) ↔ List.Forall₂ R as cs ∧ List.Forall₂ R bs ds := by
  induction as generalizing cs with
  | nil =>
      have hcs : cs = [] := List.eq_nil_of_length_eq_zero h.symm
      simp [hcs]
  | cons a as ih =>
      cases cs with
      | nil => cases h
      | cons c cs =>
          have hlen : as.length = cs.length := Nat.succ.inj h
          simp only [List.cons_append, List.forall₂_cons, ih hlen, and_assoc]

theorem digestActs_length (pending : Bool) (digests : List Digest2) :
    (digestActs pending digests).length = digests.length := by
  induction digests generalizing pending with
  | nil => cases pending <;> rfl
  | cons d digests ih => cases pending <;> simp [digestActs, ih]

/-- Without the flag the digests of an `EV_NO_ACTION` event must not be SHA-256 ones, and
those of other events are handled right. -/
theorem handled_unflagged (e : Event) (digests : List Digest2) :
    List.Forall₂ Handled (digests.map fun d => (e, d)) (digestActs false digests) ↔
      (e.isNoAction = true → sha256Digests digests = []) := by
  induction digests with
  | nil => simp [digestActs, sha256Digests]
  | cons d digests ih =>
      rw [List.map_cons, digestActs, List.forall₂_cons, ih]
      by_cases halg : d.algorithmId = tpm2AlgSha256 <;> cases hno : e.isNoAction <;>
        simp [Handled, hno, halg, sha256Digests]

theorem handled_event (e : Event) (pending : Bool) :
    List.Forall₂ Handled e.tagged (digestActs (e.flag pending) e.digests) ↔ e.Clean pending := by
  unfold Event.tagged Event.Clean Event.flag
  cases hno : e.isNoAction with
  | true =>
      cases hdigests : e.digests with
      | nil => simp [digestActs, sha256Digests]
      | cons d digests =>
          rw [List.map_cons, Bool.true_or, digestActs, List.forall₂_cons, handled_unflagged, hno]
          simp [Handled, hno]
  | false =>
      cases pending with
      | false =>
          rw [Bool.false_or, handled_unflagged, hno]
          simp
      | true =>
          cases hdigests : e.digests with
          | nil => simp [digestActs]
          | cons d digests =>
              rw [List.map_cons, Bool.false_or, digestActs, List.forall₂_cons]
              simp [Handled, hno]

theorem handled_iff_cleanFrom (events : List Event) (pending : Bool) :
    List.Forall₂ Handled (events.flatMap Event.tagged) (actsFrom pending events) ↔
      CleanFrom pending events := by
  induction events generalizing pending with
  | nil => simp [actsFrom, CleanFrom]
  | cons e events ih =>
      have hlen : e.tagged.length = (digestActs (e.flag pending) e.digests).length := by
        rw [digestActs_length, Event.tagged, List.length_map]
      rw [List.flatMap_cons, actsFrom, forall₂_append_iff hlen, handled_event, ih, CleanFrom]

theorem nextIsNoAction_cons (e : Event) (events : List Event) :
    NextIsNoAction (e :: events) ↔
      (e.digests ≠ [] → e.isNoAction = true) ∧ (e.digests = [] → NextIsNoAction events) := by
  constructor
  · intro h
    constructor
    · intro hdigests
      exact h [] e events rfl (by simp) hdigests
    · intro hdigests between e' after hsplit hbetween
      apply h (e :: between) e' after (by rw [hsplit]; rfl)
      intro m hm
      rcases List.mem_cons.mp hm with hhead | htail
      · rw [hhead, hdigests]
      · exact hbetween m htail
  · intro h between e' after hsplit hbetween
    cases between with
    | nil =>
        obtain ⟨he, _⟩ := List.cons.inj hsplit
        rw [← he]
        exact h.1
    | cons m between =>
        obtain ⟨he, hrest⟩ := List.cons.inj hsplit
        have hdigests : e.digests = [] := by
          rw [he]
          exact hbetween m List.mem_cons_self
        exact h.2 hdigests between e' after hrest fun x hx =>
          hbetween x (List.mem_cons_of_mem m hx)

theorem flagClean_cons (e : Event) (events : List Event) :
    FlagClean (e :: events) ↔
      (e.isNoAction = true → sha256Digests e.digests.tail = [] ∧
        (e.digests = [] → NextIsNoAction events)) ∧ FlagClean events := by
  constructor
  · intro h
    refine ⟨?_, ?_, ?_⟩
    · intro hno
      exact ⟨h.1 e List.mem_cons_self hno, h.2 [] e events rfl hno⟩
    · intro x hx
      exact h.1 x (List.mem_cons_of_mem e hx)
    · intro before x after hsplit
      exact h.2 (e :: before) x after (by rw [hsplit]; rfl)
  · intro h
    obtain ⟨hhead, htails, hnexts⟩ := h
    constructor
    · intro x hx hno
      rcases List.mem_cons.mp hx with hxe | hxs
      · rw [hxe] at hno ⊢
        exact (hhead hno).1
      · exact htails x hxs hno
    · intro before x after hsplit hno
      cases before with
      | nil =>
          obtain ⟨hex, hafter⟩ := List.cons.inj hsplit
          rw [← hex] at hno ⊢
          rw [← hafter]
          exact (hhead hno).2
      | cons y before =>
          obtain ⟨_, hrest⟩ := List.cons.inj hsplit
          exact hnexts before x after hrest hno

theorem cleanFrom_iff (events : List Event) (pending : Bool) :
    CleanFrom pending events ↔
      FlagClean events ∧ (pending = true → NextIsNoAction events) := by
  induction events generalizing pending with
  | nil =>
      constructor
      · intro _
        refine ⟨⟨by simp, ?_⟩, ?_⟩
        · intro before e after hsplit
          cases before <;> cases hsplit
        · intro _ between e after hsplit
          cases between <;> cases hsplit
      · intro _
        trivial
  | cons e events ih =>
      rw [CleanFrom, ih, flagClean_cons, nextIsNoAction_cons]
      unfold Event.Clean Event.flagAfter Event.flag
      cases e.isNoAction <;> cases pending <;> cases e.digests <;> simp <;> grind

/-! ## The registers of a clean log -/

/-- The machine where the flag does what it is for. -/
def idealEvent (md : Md 32) (state : Bool × (Nat → Digest 32)) (e : Event) :
    Bool × (Nat → Digest 32) :=
  let pcrs := setStart (e.locality state.1) state.2
  (state.1 || e.isHcrtm,
    Function.update pcrs e.pcrIndex (replayFrom md (pcrs e.pcrIndex) e.extended))

/-- At a clean event the digests let through are those to extend. -/
theorem unskipped_of_clean {e : Event} {pending : Bool} (h : e.Clean pending) :
    sha256Digests (unskipped (e.flag pending) e.digests) = e.extended := by
  unfold Event.Clean at h
  unfold Event.extended Event.flag unskipped
  cases hno : e.isNoAction with
  | true => simpa [hno] using h
  | false =>
      cases pending with
      | false => simp
      | true =>
          simp only [hno, Bool.false_eq_true, if_false, forall_const] at h
          simp [h]

theorem applyEvent_of_clean (md : Md 32) (found : Bool) {r : Registers} {e : Event}
    (h : e.Clean r.pending) :
    ((applyEvent md (found, r) e).1, (applyEvent md (found, r) e).2.pcrs) =
      idealEvent md (found, r.pcrs) e := by
  unfold applyEvent idealEvent
  have hflag : (startEvent found e r).pending = e.flag r.pending := rfl
  rw [foldl_applyDigest]
  dsimp only
  rw [hflag, unskipped_of_clean h]
  rfl

theorem foldl_applyEvent_of_clean (md : Md 32) (events : List Event) (found : Bool)
    (r : Registers) (h : CleanFrom r.pending events) :
    (events.foldl (applyEvent md) (found, r)).2.pcrs =
      (events.foldl (idealEvent md) (found, r.pcrs)).2 := by
  induction events generalizing found r with
  | nil => rfl
  | cons e events ih =>
      obtain ⟨hclean, hrest⟩ := h
      have hevent := applyEvent_of_clean md found hclean
      have hpending := (applyEvent_registers md found r e).1
      rw [List.foldl_cons, List.foldl_cons, ← hevent]
      rw [← hpending] at hrest
      exact ih _ _ hrest

theorem LocalityFirst.of_append {events : List Event} {e : Event}
    (h : LocalityFirst (events ++ [e])) : LocalityFirst events := by
  intro before x after hsplit
  apply h before x (after ++ [e])
  rw [hsplit]
  simp

/-- Only the first event says something about the locality. -/
theorem localityFirst_cons {e : Event} {events : List Event}
    (h : ∀ x ∈ events, x.isHcrtm = false ∧ x.startupLocality = none) :
    LocalityFirst (e :: events) := by
  intro before x after hsplit hlocality
  cases before with
  | nil => rfl
  | cons y before =>
      obtain ⟨-, rfl⟩ := List.cons.inj hsplit
      obtain ⟨hhcrtm, hnone⟩ := h x (List.mem_append_right before List.mem_cons_self)
      rw [hhcrtm, hnone] at hlocality
      rcases hlocality with hhcrtm | hsome
      · exact absurd hhcrtm Bool.false_ne_true
      · exact absurd hsome Bool.false_ne_true

/-- The locality after one more event. -/
theorem startupLocality_concat (events : List Event) (e : Event) :
    startupLocality (events ++ [e]) =
      (e.locality (events.any Event.isHcrtm)).getD (startupLocality events) := by
  unfold startupLocality Event.locality
  rw [List.any_append]
  cases hfound : events.any Event.isHcrtm <;> cases hhcrtm : e.isHcrtm <;>
    cases hstart : e.startupLocality <;> simp [hhcrtm, hstart]

theorem extendedInto_concat (events : List Event) (e : Event) (pcr : Nat) :
    extendedInto (events ++ [e]) pcr =
      extendedInto events pcr ++ if e.pcrIndex = pcr then e.extended else [] := by
  simp [extendedInto]

theorem withLastByte_withLastByte (value : Digest 32) (a b : UInt8) :
    withLastByte (withLastByte value a) b = withLastByte value b := by
  apply Subtype.ext
  have hlen := value.property
  show ((value.val.take 31 ++ [a]).take 31) ++ [b] = value.val.take 31 ++ [b]
  rw [List.take_append_of_le_length (by rw [List.length_take]; omega), List.take_take]
  rfl

/-- Setting the locality where nothing was extended yet. -/
theorem setStart_spec (md : Md 32) {events : List Event} {e : Event}
    (h : LocalityFirst (events ++ [e])) (pcr : Nat) :
    setStart (e.locality (events.any Event.isHcrtm))
        (fun p => replayFrom md (initialValue events p) (extendedInto events p)) pcr =
      replayFrom md (initialValue (events ++ [e]) pcr) (extendedInto events pcr) := by
  have hconcat := startupLocality_concat events e
  cases hlocality : e.locality (events.any Event.isHcrtm) with
  | none =>
      rw [hlocality] at hconcat
      unfold initialValue
      rw [hconcat]
      rfl
  | some byte =>
      rw [hlocality] at hconcat
      have hempty : extendedInto events 0 = [] := by
        apply h events e [] rfl
        unfold Event.locality at hlocality
        cases hhcrtm : e.isHcrtm with
        | true => exact Or.inl rfl
        | false =>
            rw [hhcrtm] at hlocality
            cases hfound : events.any Event.isHcrtm with
            | true => simp [hfound] at hlocality
            | false =>
                right
                simp only [hfound, Bool.false_eq_true, if_false] at hlocality
                rw [hlocality]
                rfl
      by_cases hpcr : pcr = 0
      · subst hpcr
        simp [setStart, hempty, initialValue, hconcat, replayFrom, withLastByte_withLastByte]
      · simp [setStart, hpcr, initialValue]

theorem foldl_idealEvent (md : Md 32) (events : List Event) (h : LocalityFirst events) :
    events.foldl (idealEvent md) (false, fun _ => zeroDigest 32) =
      (events.any Event.isHcrtm,
        fun pcr => replayFrom md (initialValue events pcr) (extendedInto events pcr)) := by
  induction events using List.reverseRecOn with
  | nil =>
      have hzero : withLastByte (zeroDigest 32) 0 = zeroDigest 32 := by decide
      simp [initialValue, startupLocality, hzero, extendedInto, replayFrom]
  | append_singleton events e ih =>
      rw [List.foldl_append, ih h.of_append, List.foldl_cons, List.foldl_nil]
      unfold idealEvent
      simp only [List.any_append, List.any_cons, List.any_nil, Bool.or_false, Prod.mk.injEq,
        true_and]
      funext pcr
      have hstart := setStart_spec md h
      by_cases hpcr : pcr = e.pcrIndex
      · subst hpcr
        rw [Function.update_self, hstart, extendedInto_concat, if_pos rfl, replayFrom_append]
      · rw [Function.update_of_ne hpcr, hstart, extendedInto_concat, if_neg (Ne.symm hpcr),
          List.append_nil]

/-! ## Replay of accepted logs -/

/-- The calculated PCRs of an accepted log are right exactly when its `EV_NO_ACTION` events
leave the flag clean. -/
theorem replayCorrect_iff (md : Md 32) (b : EventBuf) (format : Format) (pcrNums : List Nat)
    (s' : CbData) (hagile : b.CryptoAgile)
    (haccept : run (tpmParseEventlog md b) (CbData.start format pcrNums) = .ok (1, s'))
    (hlocality : LocalityFirst b.events) :
    ReplayCorrect md b.events s' ↔ FlagClean b.events := by
  have hregisters := tpmParseEventlog_replay hagile haccept
  have hclean : CleanFrom false b.events ↔ FlagClean b.events := by
    rw [cleanFrom_iff]
    simp
  have hacts : s'.acts = actsFrom false b.events := by
    show s'.registers.acts = _
    rw [hregisters, foldl_applyEvent_acts]
    rfl
  unfold ReplayCorrect
  rw [hacts, handled_iff_cleanFrom, hclean]
  constructor
  · intro h
    exact h.1
  · intro h
    refine ⟨h, ?_⟩
    intro pcr
    show s'.registers.pcrs pcr = _
    rw [hregisters, foldl_applyEvent_of_clean md _ _ _ (hclean.mpr h)]
    show (b.events.foldl (idealEvent md) (false, fun _ => zeroDigest 32)).2 pcr = _
    rw [foldl_idealEvent md _ hlocality]

theorem exists_accepted (md : Md 32) (b : EventBuf) (s : CbData) (acts : List DigestAct)
    (h : (run (tpmParseEventlog md b) s).toOption.map (fun r => (r.1, r.2.acts)) =
      some (1, acts)) :
    ∃ s', run (tpmParseEventlog md b) s = .ok (1, s') ∧ s'.acts = acts := by
  obtain ⟨⟨r, s'⟩, hrun, hobserved⟩ := exists_of_toOption_map h
  cases hobserved
  exact ⟨s', hrun, rfl⟩

/-- The start of a boot: startup locality 3, the version of the firmware in PCR 0 with a
SHA-1 and a SHA-256 digest, and the separator of PCR 7. -/
def bootBuf : EventBuf :=
  shortBuf (specidLog
    ++ (toLE 4 0 ++ toLE 4 evNoAction ++ toLE 4 1 ++ toLE 2 tpm2AlgSha256 ++ zeros 32
      ++ toLE 4 17 ++ startupLocalitySignature ++ [3])
    ++ (toLE 4 0 ++ toLE 4 8 ++ toLE 4 2 ++ toLE 2 tpm2AlgSha1 ++ List.replicate 20 1
      ++ toLE 2 tpm2AlgSha256 ++ List.replicate 32 2 ++ toLE 4 4 ++ ascii "1.0" ++ [0])
    ++ (toLE 4 7 ++ toLE 4 4 ++ toLE 4 1 ++ toLE 2 tpm2AlgSha256 ++ List.replicate 32 3
      ++ toLE 4 4 ++ zeros 4)) (by decide +kernel)

def bootEvents : List Event :=
  [ ⟨0, evNoAction, [⟨tpm2AlgSha256, zeros 32⟩], startupLocalitySignature ++ [3],
      startupLocalitySignature ++ [3]⟩,
    ⟨0, 8, [⟨tpm2AlgSha1, List.replicate 20 1⟩, ⟨tpm2AlgSha256, List.replicate 32 2⟩],
      ascii "1.0" ++ [0], ascii "1.0" ++ [0] ++ toLE 4 7 ++ toLE 4 4 ++ toLE 4 1 ++ [11]⟩,
    ⟨7, 4, [⟨tpm2AlgSha256, List.replicate 32 3⟩], zeros 4, zeros 17⟩ ]

theorem bootBuf_events : bootBuf.events = bootEvents := by decide +kernel

theorem bootBuf_cryptoAgile : bootBuf.CryptoAgile := ⟨by decide +kernel, by decide +kernel⟩

theorem bootEvents_flagClean : FlagClean bootEvents := by
  have hclean : CleanFrom false bootEvents := ⟨rfl, nofun, nofun, trivial⟩
  exact ((cleanFrom_iff _ _).mp hclean).1

theorem bootEvents_localityFirst : LocalityFirst bootEvents :=
  localityFirst_cons (by decide +kernel)

theorem replayCorrect_iff_boot :
    ∃ s', run (tpmParseEventlog Sha256.sha256 bootBuf) (CbData.start .text [0, 7]) = .ok (1, s') ∧
      (ReplayCorrect Sha256.sha256 bootBuf.events s' ↔ FlagClean bootBuf.events) ∧
      ReplayCorrect Sha256.sha256 bootBuf.events s' := by
  obtain ⟨s', haccept, _⟩ := exists_accepted Sha256.sha256 bootBuf (CbData.start .text [0, 7])
    [.skip, .pass, .extend, .extend] (by decide +kernel)
  have hcorrect := replayCorrect_iff Sha256.sha256 bootBuf .text [0, 7] s' bootBuf_cryptoAgile
    haccept (bootBuf_events ▸ bootEvents_localityFirst)
  exact ⟨s', haccept, hcorrect, hcorrect.mpr (bootBuf_events ▸ bootEvents_flagClean)⟩

/-- An `EV_NO_ACTION` event with a SHA-1 and a SHA-256 digest. -/
def twoDigestsBuf : EventBuf :=
  shortBuf (specidLog ++ (toLE 4 0 ++ toLE 4 evNoAction ++ toLE 4 2
    ++ toLE 2 tpm2AlgSha1 ++ zeros 20 ++ toLE 2 tpm2AlgSha256 ++ zeros 32
    ++ toLE 4 17 ++ ascii "SP800-155 Event" ++ zeros 2)) (by decide +kernel)

theorem twoDigestsBuf_events : twoDigestsBuf.events =
    [⟨0, evNoAction, [⟨tpm2AlgSha1, zeros 20⟩, ⟨tpm2AlgSha256, zeros 32⟩],
      ascii "SP800-155 Event" ++ zeros 2, ascii "SP800-155 Event" ++ zeros 2⟩] := by decide +kernel

/-- Only the first digest of an `EV_NO_ACTION` event is skipped, the second is extended. -/
theorem replayWrong_noActionDigest :
    ¬∀ (md : Md 32) (b : EventBuf) (format : Format) (pcrNums : List Nat) (s' : CbData),
      b.CryptoAgile → run (tpmParseEventlog md b) (CbData.start format pcrNums) = .ok (1, s') →
      (∀ e ∈ b.events, e.pcrIndex < 24) → LocalityFirst b.events →
      ReplayCorrect md b.events s' := by
  intro h
  obtain ⟨s', haccept, hacts⟩ := exists_accepted Sha256.sha256 twoDigestsBuf
    (CbData.start .text [7]) [.skip, .extend] (by decide +kernel)
  have hagile : twoDigestsBuf.CryptoAgile := ⟨by decide +kernel, by decide +kernel⟩
  have hcorrect := h Sha256.sha256 twoDigestsBuf .text [7] s' hagile haccept ?_ ?_
  · have hhandled := hcorrect.1
    rw [hacts, twoDigestsBuf_events] at hhandled
    simp [Event.tagged, Handled, Event.isNoAction] at hhandled
  · rw [twoDigestsBuf_events]
    simp
  · rw [twoDigestsBuf_events]
    exact localityFirst_cons fun x hx => absurd hx List.not_mem_nil

end MeasuredBoot.SrtmLog
