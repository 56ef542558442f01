import MeasuredBoot.Common.Sha2
import MeasuredBoot.SrtmLog.Written

/-! # Event log and summary

The calculated PCR replayed from what the event log of the register says: from the
value of its initial record, by the SHA-256 digests of its records. The parser writes
the initial record once, at the first event of the register, and sets the last byte of
PCR 0 at each startup locality.
-/

namespace MeasuredBoot.SrtmLog

open Binary Imperative Imperative.Proc

/-! ## What the event log says -/

/-- The 32 bytes a text writes in hexadecimal. -/
def readDigest (text : Bytes) : Option (Digest 32) :=
  match readHex text with
  | none => none
  | some bytes => if h : bytes.length = 32 then some ⟨bytes, h⟩ else none

/-- The value of the `sha256` field of a `TPM_PCR_INIT_VALUE` record. -/
def initvalWritten (locality : UInt8) : Option (Digest 32) :=
  readDigest (List.replicate 63 48 ++ decText locality.toNat)

/-- The value the first initial record gives. -/
def loggedStart (xs : List Entry) : Option (Digest 32) :=
  (xs.findSome? Entry.locality).bind initvalWritten

/-- The SHA-256 digests of the records, in order. -/
def loggedDigests (xs : List Entry) : List (Digest 32) :=
  xs.flatMap fun x => sha256Digests x.digests

/-- The event log of a register replays to its calculated value. -/
def LogReplays (md : Md 32) (xs : List Entry) (value : Digest 32) : Prop :=
  ∃ start, loggedStart xs = some start ∧ replayFrom md start (loggedDigests xs) = value

theorem initvalWritten_of_lt {locality : UInt8} (h : locality < 10) :
    initvalWritten locality = some (withLastByte (zeroDigest 32) locality) := by
  have hall : ∀ n < 10, initvalWritten (UInt8.ofNat n) =
      some (withLastByte (zeroDigest 32) (UInt8.ofNat n)) := by decide +kernel
  have hn := hall locality.toNat h
  rwa [UInt8.ofNat_toNat] at hn

/-- A locality of more than one decimal digit makes more than 64 digits. -/
theorem initvalWritten_of_ge {locality : UInt8} (h : ¬locality < 10) :
    initvalWritten locality = none := by
  have hall : ∀ n < 256, 10 ≤ n → (decText n).length ≠ 1 := by decide +kernel
  have hlength := hall locality.toNat locality.toNat_lt (Nat.le_of_not_lt h)
  unfold initvalWritten readDigest
  cases hhex : readHex (List.replicate 63 48 ++ decText locality.toNat) with
  | none => rfl
  | some bytes =>
      have hbytes := readHex_length hhex
      rw [List.length_append, List.length_replicate] at hbytes
      have hne : ¬bytes.length = 32 := by omega
      exact dif_neg hne

/-! ## One register -/

/-- The digests of an event that the digest callback extends. -/
def Event.passed (e : Event) (pending : Bool) : List (Digest 32) :=
  sha256Digests (unskipped (e.flag pending) e.digests)

/-- The digests extended into a register from an event on. -/
def passedFrom (pcr : Nat) : Bool → List Event → List (Digest 32)
  | _, [] => []
  | pending, e :: events =>
      (if e.pcrIndex = pcr then e.passed pending else []) ++
        passedFrom pcr (e.flagAfter pending) events

/-- A register with the last byte an event gives. -/
def patched (locality : Option UInt8) (value : Digest 32) : Digest 32 :=
  match locality with
  | some byte => withLastByte value byte
  | none => value

/-- The calculated value of a register from an event on, after an H-CRTM event or not. -/
def registerFrom (md : Md 32) (pcr : Nat) : Bool → Bool → Digest 32 → List Event → Digest 32
  | _, _, value, [] => value
  | found, pending, value, e :: events =>
      registerFrom md pcr (found || e.isHcrtm) (e.flagAfter pending)
        (if e.pcrIndex = pcr then
          replayFrom md (patched (e.locality found) value) (e.passed pending)
        else value) events

theorem locality_none {e : Event} (found : Bool) (h : e.pcrIndex ≠ 0) :
    e.locality found = none := by
  cases hlocality : e.locality found with
  | none => rfl
  | some byte =>
      have hsome : (e.locality found).isSome = true := by
        rw [hlocality]
        rfl
      exact absurd (locality_pcrIndex hsome) h

theorem setStart_apply {e : Event} {found : Bool} (pcrs : Nat → Digest 32) :
    setStart (e.locality found) pcrs e.pcrIndex = patched (e.locality found) (pcrs e.pcrIndex) := by
  by_cases hzero : e.pcrIndex = 0
  · rw [hzero]
    cases e.locality found with
    | none => rfl
    | some byte => exact Function.update_self 0 _ pcrs
  · rw [locality_none found hzero]
    rfl

theorem setStart_other {e : Event} {found : Bool} {pcr : Nat} (h : e.pcrIndex ≠ pcr)
    (pcrs : Nat → Digest 32) : setStart (e.locality found) pcrs pcr = pcrs pcr := by
  cases hlocality : e.locality found with
  | none => rfl
  | some byte =>
      have hzero : e.pcrIndex = 0 := locality_pcrIndex (by rw [hlocality]; rfl)
      rw [hzero] at h
      exact Function.update_of_ne (Ne.symm h) _ _

/-- The machine seen from one register. -/
theorem foldl_applyEvent_pcr (md : Md 32) (pcr : Nat) (events : List Event) (found : Bool)
    (r : Registers) : (events.foldl (applyEvent md) (found, r)).2.pcrs pcr =
      registerFrom md pcr found r.pending (r.pcrs pcr) events := by
  induction events generalizing found r with
  | nil => rfl
  | cons e events ih =>
      have hpcr : (applyEvent md (found, r) e).2.pcrs pcr =
          if e.pcrIndex = pcr then
            replayFrom md (patched (e.locality found) (r.pcrs pcr)) (e.passed r.pending)
          else r.pcrs pcr := by
        unfold applyEvent
        rw [foldl_applyDigest]
        by_cases he : e.pcrIndex = pcr
        · subst he
          rw [if_pos rfl, ← setStart_apply]
          exact Function.update_self ..
        · rw [if_neg he, ← setStart_other he r.pcrs]
          exact Function.update_of_ne (Ne.symm he) _ _
      rw [List.foldl_cons]
      cases hnext : applyEvent md (found, r) e with
      | mk found' r' =>
          have hpending := (applyEvent_registers md found r e).1
          have hfound : found' = (found || e.isHcrtm) := (congrArg Prod.fst hnext).symm
          rw [hnext] at hpcr hpending
          rw [ih, hpcr, hpending, hfound]
          rfl

theorem loggedDigests_entriesFrom (format : Format) (pcr : Nat) (seen pending : Bool)
    (sites : List Bytes) : loggedDigests (entriesFrom format pcr seen pending sites) =
      passedFrom pcr pending (sites.map eventAt) := by
  induction sites generalizing seen pending with
  | nil => rfl
  | cons mem sites ih =>
      rw [entriesFrom, List.map_cons, passedFrom]
      by_cases hpcr : (eventAt mem).pcrIndex = pcr
      · rw [if_pos hpcr, if_pos hpcr, ← ih]
        rfl
      · rw [if_neg hpcr, if_neg hpcr, ih]
        rfl

/-! ## The other registers -/

/-- Nothing but digests goes into a register other than PCR 0. -/
theorem registerFrom_other (md : Md 32) {pcr : Nat} (h : pcr ≠ 0) (events : List Event)
    (found pending : Bool) (value : Digest 32) :
    registerFrom md pcr found pending value events =
      replayFrom md value (passedFrom pcr pending events) := by
  induction events generalizing found pending value with
  | nil => rfl
  | cons e events ih =>
      rw [registerFrom, passedFrom, ih, replayFrom_append]
      by_cases hpcr : e.pcrIndex = pcr
      · have hnone : e.locality found = none := locality_none found (hpcr ▸ h)
        rw [if_pos hpcr, if_pos hpcr, hnone]
        rfl
      · rw [if_neg hpcr, if_neg hpcr]
        rfl

/-! ## PCR 0 -/

/-- The last byte a locality gives is the one the value has. -/
def Settled (value : Digest 32) (locality : Option UInt8) : Prop :=
  ∀ byte ∈ locality, withLastByte value byte = value

instance (value : Digest 32) (locality : Option UInt8) : Decidable (Settled value locality) :=
  inferInstanceAs (Decidable (∀ byte ∈ locality, withLastByte value byte = value))

/-- Behind the first event of PCR 0: whenever digests are extended into it, and at the
end, the last locality taken since the digests before, `locality`, is the last byte of
the value replayed so far, `value`. -/
def KeptFrom (md : Md 32) : Bool → Bool → Digest 32 → Option UInt8 → List Event → Prop
  | _, _, value, locality, [] => Settled value locality
  | found, pending, value, locality, e :: events =>
      if e.pcrIndex = 0 then
        if e.passed pending = [] then
          KeptFrom md (found || e.isHcrtm) (e.flagAfter pending) value
            ((e.locality found).or locality) events
        else Settled value ((e.locality found).or locality) ∧
          KeptFrom md (found || e.isHcrtm) (e.flagAfter pending)
            (replayFrom md value (e.passed pending)) none events
      else KeptFrom md (found || e.isHcrtm) (e.flagAfter pending) value locality events

instance KeptFrom.decidable (md : Md 32) : (found pending : Bool) → (value : Digest 32) →
    (locality : Option UInt8) → (events : List Event) →
    Decidable (KeptFrom md found pending value locality events)
  | _, _, value, locality, [] => inferInstanceAs (Decidable (Settled value locality))
  | found, pending, value, locality, e :: events =>
      have := KeptFrom.decidable md (found || e.isHcrtm) (e.flagAfter pending) value
        ((e.locality found).or locality) events
      have := KeptFrom.decidable md (found || e.isHcrtm) (e.flagAfter pending)
        (replayFrom md value (e.passed pending)) none events
      have := KeptFrom.decidable md (found || e.isHcrtm) (e.flagAfter pending) value locality events
      inferInstanceAs (Decidable (if e.pcrIndex = 0 then _ else _))

/-- The first event of PCR 0 gives it the locality that is in its initial record, a
single digit, and no later one makes a difference. -/
def LocalityKept (md : Md 32) : Bool → List Event → Prop
  | _, [] => True
  | pending, e :: events =>
      if e.pcrIndex = 0 then
        (e.locality false).getD 0 < 10 ∧
          KeptFrom md e.isHcrtm (e.flagAfter pending)
            (replayFrom md (withLastByte (zeroDigest 32) ((e.locality false).getD 0))
              (e.passed pending)) none events
      else LocalityKept md (e.flagAfter pending) events

instance LocalityKept.decidable (md : Md 32) : (pending : Bool) → (events : List Event) →
    Decidable (LocalityKept md pending events)
  | _, [] => instDecidableTrue
  | pending, e :: events =>
      have := LocalityKept.decidable md (e.flagAfter pending) events
      inferInstanceAs (Decidable (if e.pcrIndex = 0 then _ else _))

/-- The strings hashed for a register, as `registerFrom` does. -/
def registerStrings (md : Md 32) (pcr : Nat) : Bool → Bool → Digest 32 → List Event → List Bytes
  | _, _, _, [] => []
  | found, pending, value, e :: events =>
      if e.pcrIndex = pcr then
        HashChain.hashed md extendBlock (patched (e.locality found) value) (e.passed pending) ++
          registerStrings md pcr (found || e.isHcrtm) (e.flagAfter pending)
            (replayFrom md (patched (e.locality found) value) (e.passed pending)) events
      else registerStrings md pcr (found || e.isHcrtm) (e.flagAfter pending) value events

/-- All but the last byte of a value. -/
def front (value : Digest 32) : Bytes := value.val.take 31

/-- A string hashed here and another one hashed there have digests that differ in the last
byte at most. -/
def NearlyCollide (md : Md 32) (xs ys : List Bytes) : Prop :=
  HashChain.Collides (fun text => front (md text)) xs ys

theorem withLastByte_front (value : Digest 32) (byte : UInt8) :
    front (withLastByte value byte) = front value := by
  have hlength : (value.val.take 31).length = 31 := by
    rw [List.length_take, value.property]
    rfl
  change (value.val.take 31 ++ [byte]).take 31 = value.val.take 31
  rw [List.take_append_of_le_length (by omega), List.take_take]
  rfl

theorem patched_front (locality : Option UInt8) (value : Digest 32) :
    front (patched locality value) = front value := by
  cases locality with
  | none => rfl
  | some byte => exact withLastByte_front value byte

/-- A later locality hides an earlier one. -/
theorem patched_patched (first second : Option UInt8) (value : Digest 32) :
    patched second (patched first value) = patched (second.or first) value := by
  cases second with
  | none => rfl
  | some byte =>
      cases first with
      | none => rfl
      | some byte' => exact withLastByte_withLastByte value byte' byte

theorem settled_iff (value : Digest 32) (locality : Option UInt8) :
    Settled value locality ↔ patched locality value = value := by
  cases locality with
  | none => simp [Settled, patched]
  | some byte => simp [Settled, patched]

/-- Where the locality is kept, the calculated value is the replayed one. -/
theorem registerFrom_of_kept (md : Md 32) (events : List Event) {found pending : Bool}
    {value : Digest 32} {locality : Option UInt8}
    (h : KeptFrom md found pending value locality events) :
    registerFrom md 0 found pending (patched locality value) events =
      replayFrom md value (passedFrom 0 pending events) := by
  induction events generalizing found pending value locality with
  | nil => exact (settled_iff value locality).mp h
  | cons e events ih =>
      rw [registerFrom, passedFrom, replayFrom_append]
      unfold KeptFrom at h
      by_cases hpcr : e.pcrIndex = 0
      · rw [if_pos hpcr] at h ⊢
        rw [if_pos hpcr, patched_patched]
        by_cases hnil : e.passed pending = []
        · rw [if_pos hnil] at h
          rw [hnil]
          exact ih h
        · rw [if_neg hnil] at h
          obtain ⟨hsettled, hrest⟩ := h
          rw [(settled_iff _ _).mp hsettled]
          exact ih hrest
      · rw [if_neg hpcr] at h ⊢
        rw [if_neg hpcr]
        exact ih h

/-- Values that differ in front still do after the same digests, or two strings nearly
collide. -/
theorem replayFrom_differ (md : Md 32) {a b : Digest 32} (xs : List (Digest 32))
    (h : front a ≠ front b) :
    NearlyCollide md (HashChain.hashed md extendBlock a xs)
        (HashChain.hashed md extendBlock b xs) ∨
      front (replayFrom md a xs) ≠ front (replayFrom md b xs) := by
  induction xs generalizing a b with
  | nil => exact Or.inr h
  | cons x xs ih =>
      by_cases hnext : front (md (extendBlock a x)) = front (md (extendBlock b x))
      · left
        refine ⟨extendBlock a x, List.mem_cons_self, extendBlock b x, List.mem_cons_self, ?_, hnext⟩
        intro hblock
        exact h (congrArg front (extendBlock_inj hblock).1)
      · rcases ih hnext with hcollide | hdiffer
        · left
          exact hcollide.mono (fun y hy => List.mem_cons_of_mem _ hy)
            fun y hy => List.mem_cons_of_mem _ hy
        · exact Or.inr hdiffer

/-- Different values extended by a digest differ in front, or two strings nearly collide. -/
theorem replayFrom_cons_differ (md : Md 32) {a b : Digest 32} {xs : List (Digest 32)}
    (hne : a ≠ b) (hxs : xs ≠ []) :
    NearlyCollide md (HashChain.hashed md extendBlock a xs)
        (HashChain.hashed md extendBlock b xs) ∨
      front (replayFrom md a xs) ≠ front (replayFrom md b xs) := by
  obtain ⟨x, xs, rfl⟩ := List.exists_cons_of_ne_nil hxs
  by_cases hnext : front (md (extendBlock a x)) = front (md (extendBlock b x))
  · left
    refine ⟨extendBlock a x, List.mem_cons_self, extendBlock b x, List.mem_cons_self, ?_, hnext⟩
    intro hblock
    exact hne (extendBlock_inj hblock).1
  · rcases replayFrom_differ md xs hnext with hcollide | hdiffer
    · left
      exact hcollide.mono (fun y hy => List.mem_cons_of_mem _ hy)
        fun y hy => List.mem_cons_of_mem _ hy
    · exact Or.inr hdiffer

/-- No locality makes up for a difference in front. -/
theorem registerFrom_differ (md : Md 32) (events : List Event) {found pending : Bool}
    {a b : Digest 32} (h : front a ≠ front b) :
    NearlyCollide md (registerStrings md 0 found pending a events)
        (HashChain.hashed md extendBlock b (passedFrom 0 pending events)) ∨
      registerFrom md 0 found pending a events ≠
        replayFrom md b (passedFrom 0 pending events) := by
  induction events generalizing found pending a b with
  | nil => exact Or.inr fun heq => h (congrArg front heq)
  | cons e events ih =>
      rw [registerFrom, registerStrings, passedFrom, replayFrom_append, HashChain.hashed_append]
      by_cases hpcr : e.pcrIndex = 0
      · rw [if_pos hpcr, if_pos hpcr, if_pos hpcr]
        have hpatched : front (patched (e.locality found) a) ≠ front b := by
          rw [patched_front]
          exact h
        rcases replayFrom_differ md (e.passed pending) hpatched with hcollide | hdiffer
        · left
          exact hcollide.mono (fun y hy => List.mem_append_left _ hy)
            fun y hy => List.mem_append_left _ hy
        · rcases ih hdiffer with hcollide | hne
          · left
            exact hcollide.mono (fun y hy => List.mem_append_right _ hy)
              fun y hy => List.mem_append_right _ hy
          · exact Or.inr hne
      · rw [if_neg hpcr, if_neg hpcr, if_neg hpcr]
        exact ih h

/-- Where the calculated value is the replayed one, the locality is kept, or two strings
nearly collide. -/
theorem kept_of_registerFrom (md : Md 32) (events : List Event) {found pending : Bool}
    {value : Digest 32} {locality : Option UInt8}
    (h : registerFrom md 0 found pending (patched locality value) events =
      replayFrom md value (passedFrom 0 pending events)) :
    KeptFrom md found pending value locality events ∨
      NearlyCollide md (registerStrings md 0 found pending (patched locality value) events)
        (HashChain.hashed md extendBlock value (passedFrom 0 pending events)) := by
  induction events generalizing found pending value locality with
  | nil => exact Or.inl ((settled_iff value locality).mpr h)
  | cons e events ih =>
      rw [registerFrom, passedFrom, replayFrom_append] at h
      rw [registerStrings, passedFrom, HashChain.hashed_append]
      unfold KeptFrom
      by_cases hpcr : e.pcrIndex = 0
      · rw [if_pos hpcr] at h ⊢
        rw [if_pos hpcr, patched_patched] at h
        rw [if_pos hpcr, if_pos hpcr, patched_patched]
        by_cases hnil : e.passed pending = []
        · rw [if_pos hnil]
          rw [hnil] at h ⊢
          exact ih h
        rw [if_neg hnil]
        by_cases hsettled : Settled value ((e.locality found).or locality)
        · have hsame := (settled_iff _ _).mp hsettled
          rw [hsame] at h ⊢
          rcases @ih _ _ _ none h with hkept | hcollide
          · exact Or.inl ⟨hsettled, hkept⟩
          · right
            exact hcollide.mono (fun y hy => List.mem_append_right _ hy)
              fun y hy => List.mem_append_right _ hy
        · right
          have hne : patched ((e.locality found).or locality) value ≠ value :=
            fun heq => hsettled ((settled_iff _ _).mpr heq)
          rcases replayFrom_cons_differ md hne hnil with hcollide | hdiffer
          · exact hcollide.mono (fun y hy => List.mem_append_left _ hy)
              fun y hy => List.mem_append_left _ hy
          · rcases registerFrom_differ md events hdiffer with hcollide | hunequal
            · exact hcollide.mono (fun y hy => List.mem_append_right _ hy)
                fun y hy => List.mem_append_right _ hy
            · exact absurd h hunequal
      · rw [if_neg hpcr] at h ⊢
        rw [if_neg hpcr] at h
        rw [if_neg hpcr, if_neg hpcr]
        exact ih h

/-! ## Whole logs -/

/-- The locality in the initial record of a register. -/
def announced (pcr : Nat) (events : List Event) : UInt8 :=
  match events.find? (·.pcrIndex = pcr) with
  | some e => if pcr ≠ 0 then 0 else (e.locality false).getD 0
  | none => 0

theorem announced_cons_self {e : Event} {pcr : Nat} (h : e.pcrIndex = pcr) (events : List Event) :
    announced pcr (e :: events) = if pcr ≠ 0 then 0 else (e.locality false).getD 0 := by
  unfold announced
  rw [List.find?_cons_of_pos (by simpa using h)]

theorem announced_cons_other {e : Event} {pcr : Nat} (h : e.pcrIndex ≠ pcr)
    (events : List Event) : announced pcr (e :: events) = announced pcr events := by
  unfold announced
  rw [List.find?_cons_of_neg (by simpa using h)]

theorem announced_other {pcr : Nat} (h : pcr ≠ 0) (events : List Event) :
    announced pcr events = 0 := by
  unfold announced
  cases events.find? (·.pcrIndex = pcr) with
  | none => rfl
  | some e => exact if_pos h

theorem exists_tail {e : Event} {events : List Event} {pcr : Nat}
    (h : ∃ x ∈ e :: events, x.pcrIndex = pcr) (hpcr : e.pcrIndex ≠ pcr) :
    ∃ x ∈ events, x.pcrIndex = pcr := by
  obtain ⟨x, hx, hxpcr⟩ := h
  rcases List.mem_cons.mp hx with rfl | hx
  · exact absurd hxpcr hpcr
  · exact ⟨x, hx, hxpcr⟩

theorem loggedStart_entriesFrom (format : Format) (pcr : Nat) (pending : Bool)
    (sites : List Bytes) (h : ∃ e ∈ sites.map eventAt, e.pcrIndex = pcr) :
    loggedStart (entriesFrom format pcr false pending sites) =
      initvalWritten (announced pcr (sites.map eventAt)) := by
  induction sites generalizing pending with
  | nil =>
      obtain ⟨e, he, _⟩ := h
      cases he
  | cons mem sites ih =>
      rw [entriesFrom, List.map_cons]
      by_cases hpcr : (eventAt mem).pcrIndex = pcr
      · rw [if_pos hpcr, announced_cons_self hpcr]
        subst hpcr
        rfl
      · rw [if_neg hpcr, announced_cons_other hpcr]
        exact ih _ (exists_tail h hpcr)

theorem withLastByte_zeroDigest : withLastByte (zeroDigest 32) 0 = zeroDigest 32 := by decide

theorem initvalWritten_zero : initvalWritten 0 = some (zeroDigest 32) := by
  rw [initvalWritten_of_lt (by decide), withLastByte_zeroDigest]

theorem patched_zeroDigest (locality : Option UInt8) :
    patched locality (zeroDigest 32) = withLastByte (zeroDigest 32) (locality.getD 0) := by
  cases locality with
  | none => exact withLastByte_zeroDigest.symm
  | some byte => rfl

theorem isHcrtm_false {e : Event} (h : e.pcrIndex ≠ 0) : e.isHcrtm = false :=
  Bool.eq_false_iff.mpr fun hhcrtm => h (isHcrtm_pcrIndex hhcrtm)

theorem replays_of_localityKept (md : Md 32) (events : List Event) (pending : Bool)
    (hoccurs : ∃ e ∈ events, e.pcrIndex = 0) (h : LocalityKept md pending events) :
    ∃ start, initvalWritten (announced 0 events) = some start ∧
      replayFrom md start (passedFrom 0 pending events) =
        registerFrom md 0 false pending (zeroDigest 32) events := by
  induction events generalizing pending with
  | nil =>
      obtain ⟨e, he, _⟩ := hoccurs
      cases he
  | cons e events ih =>
      unfold LocalityKept at h
      rw [registerFrom, passedFrom]
      by_cases hpcr : e.pcrIndex = 0
      · rw [if_pos hpcr] at h ⊢
        rw [if_pos hpcr, announced_cons_self hpcr, patched_zeroDigest]
        obtain ⟨hdigit, hkept⟩ := h
        refine ⟨_, initvalWritten_of_lt hdigit, ?_⟩
        rw [replayFrom_append]
        exact (registerFrom_of_kept md events hkept).symm
      · rw [if_neg hpcr] at h ⊢
        rw [if_neg hpcr, announced_cons_other hpcr, isHcrtm_false hpcr]
        exact ih _ (exists_tail hoccurs hpcr) h

theorem localityKept_of_replays (md : Md 32) (events : List Event) (pending : Bool)
    {start : Digest 32} (hoccurs : ∃ e ∈ events, e.pcrIndex = 0)
    (hstart : initvalWritten (announced 0 events) = some start)
    (h : replayFrom md start (passedFrom 0 pending events) =
      registerFrom md 0 false pending (zeroDigest 32) events) :
    LocalityKept md pending events ∨
      NearlyCollide md (registerStrings md 0 false pending (zeroDigest 32) events)
        (HashChain.hashed md extendBlock start (passedFrom 0 pending events)) := by
  induction events generalizing pending with
  | nil => exact Or.inl trivial
  | cons e events ih =>
      rw [registerFrom, passedFrom] at h
      unfold LocalityKept
      rw [registerStrings, passedFrom]
      by_cases hpcr : e.pcrIndex = 0
      · rw [announced_cons_self hpcr] at hstart
        rw [if_pos hpcr] at h ⊢
        rw [if_pos hpcr, patched_zeroDigest, replayFrom_append] at h
        rw [if_pos hpcr, if_pos hpcr, HashChain.hashed_append, patched_zeroDigest]
        by_cases hdigit : (e.locality false).getD 0 < 10
        · change initvalWritten ((e.locality false).getD 0) = some start at hstart
          rw [initvalWritten_of_lt hdigit] at hstart
          obtain rfl := Option.some.inj hstart
          rcases @kept_of_registerFrom md events _ _ _ none h.symm with hkept | hcollide
          · exact Or.inl ⟨hdigit, hkept⟩
          · right
            exact hcollide.mono (fun y hy => List.mem_append_right _ hy)
              fun y hy => List.mem_append_right _ hy
        · change initvalWritten ((e.locality false).getD 0) = some start at hstart
          rw [initvalWritten_of_ge hdigit] at hstart
          cases hstart
      · rw [announced_cons_other hpcr] at hstart
        rw [if_neg hpcr, isHcrtm_false hpcr] at h
        rw [if_neg hpcr] at h ⊢
        rw [if_neg hpcr, if_neg hpcr, isHcrtm_false hpcr]
        exact ih _ (exists_tail hoccurs hpcr) hstart h

/-- The strings hashed when the event log of a register is replayed. -/
def loggedStrings (md : Md 32) (xs : List Entry) : List Bytes :=
  match loggedStart xs with
  | some start => HashChain.hashed md extendBlock start (loggedDigests xs)
  | none => []

/-- The event log of a register is the text of its entries, and these replay to the value
in the summary. -/
def SummaryAgrees (md : Md 32) (b : EventBuf) (s : CbData) (pcr : Nat) : Prop :=
  bufferText pcr s = entriesText s.format pcr (b.written s.format pcr) ∧
    LogReplays md (b.written s.format pcr) (s.calcPcrs pcr)

/-- Event log and summary agree for every register but PCR 0, and for PCR 0 if the locality
is kept; otherwise they do not, or two strings nearly collide. -/
theorem summaryAgrees_iff (md : Md 32) (b : EventBuf) (format : Format) (pcrNums : List Nat)
    (s' : CbData) (pcr : Nat) (hagile : b.CryptoAgile)
    (haccept : run (tpmParseEventlog md b) (CbData.start format pcrNums) = .ok (1, s'))
    (hasked : pcr ∈ pcrNums) (hoccurs : ∃ e ∈ b.events, e.pcrIndex = pcr) :
    (pcr ≠ 0 ∨ LocalityKept md false b.events → SummaryAgrees md b s' pcr) ∧
      (SummaryAgrees md b s' pcr → (pcr ≠ 0 ∨ LocalityKept md false b.events) ∨
        NearlyCollide md (registerStrings md pcr false false (zeroDigest 32) b.events)
          (loggedStrings md (b.written format pcr))) := by
  have hregisters := tpmParseEventlog_replay hagile haccept
  obtain ⟨hformat, hbuffer, _⟩ := tpmParseEventlog_written hagile haccept
  have hvalue : s'.calcPcrs pcr =
      registerFrom md pcr false false (zeroDigest 32) b.events := by
    change s'.registers.pcrs pcr = _
    rw [hregisters, foldl_applyEvent_pcr]
    rfl
  have hstart : loggedStart (b.written format pcr) = initvalWritten (announced pcr b.events) := by
    rw [b.events_eq_map] at hoccurs ⊢
    exact loggedStart_entriesFrom format pcr false b.sites hoccurs
  have hdigests : loggedDigests (b.written format pcr) = passedFrom pcr false b.events := by
    rw [b.events_eq_map]
    exact loggedDigests_entriesFrom format pcr false false b.sites
  unfold SummaryAgrees LogReplays
  rw [hformat, hvalue, hstart, hdigests]
  constructor
  · intro hkept
    refine ⟨hbuffer pcr hasked, ?_⟩
    by_cases hzero : pcr = 0
    · subst hzero
      exact replays_of_localityKept md b.events false hoccurs (hkept.resolve_left fun h => h rfl)
    · refine ⟨zeroDigest 32, ?_, (registerFrom_other md hzero _ _ _ _).symm⟩
      rw [announced_other hzero]
      exact initvalWritten_zero
  · rintro ⟨_, start, hsome, hreplay⟩
    by_cases hzero : pcr = 0
    · subst hzero
      have hstrings : loggedStrings md (b.written format 0) =
          HashChain.hashed md extendBlock start (passedFrom 0 false b.events) := by
        unfold loggedStrings
        rw [hstart, hsome, hdigests]
      rw [hstrings]
      exact (localityKept_of_replays md b.events false hoccurs hsome hreplay).imp_left Or.inr
    · exact Or.inl (Or.inl hzero)

theorem bootBuf_localityKept :
    decide (0 ≠ 0 ∨ LocalityKept Sha256.sha256 false bootBuf.events) = true := by decide +kernel

theorem summaryAgrees_iff_boot :
    ∃ s', run (tpmParseEventlog Sha256.sha256 bootBuf) (CbData.start .text [0, 7]) = .ok (1, s') ∧
      (0 ≠ 0 ∨ LocalityKept Sha256.sha256 false bootBuf.events →
        SummaryAgrees Sha256.sha256 bootBuf s' 0) ∧
      (SummaryAgrees Sha256.sha256 bootBuf s' 0 →
        (0 ≠ 0 ∨ LocalityKept Sha256.sha256 false bootBuf.events) ∨
        NearlyCollide Sha256.sha256
          (registerStrings Sha256.sha256 0 false false (zeroDigest 32) bootBuf.events)
          (loggedStrings Sha256.sha256 (bootBuf.written .text 0))) ∧
      SummaryAgrees Sha256.sha256 bootBuf s' 0 := by
  obtain ⟨s', haccept, _⟩ := exists_accepted Sha256.sha256 bootBuf (CbData.start .text [0, 7])
    [.skip, .pass, .extend, .extend] (by decide +kernel)
  have hoccurs : ∃ e ∈ bootBuf.events, e.pcrIndex = 0 := by
    rw [bootBuf_events]
    exact ⟨_, List.mem_cons_self, rfl⟩
  have hagrees := summaryAgrees_iff Sha256.sha256 bootBuf .text [0, 7] s' 0 bootBuf_cryptoAgile
    haccept List.mem_cons_self hoccurs
  exact ⟨s', haccept, hagrees.1, hagrees.2, hagrees.1 (of_decide_eq_true bootBuf_localityKept)⟩

/-- An `EV_NO_ACTION` event of PCR 0 in front of the one with the startup locality, 3. -/
def lateLocalityBuf : EventBuf :=
  shortBuf (specidLog ++ (toLE 4 0 ++ toLE 4 evNoAction ++ toLE 4 1
    ++ toLE 2 tpm2AlgSha256 ++ zeros 32 ++ toLE 4 17 ++ ascii "SP800-155 Event" ++ zeros 2)
    ++ (toLE 4 0 ++ toLE 4 evNoAction ++ toLE 4 1 ++ toLE 2 tpm2AlgSha256 ++ zeros 32
    ++ toLE 4 17 ++ startupLocalitySignature ++ [3])) (by decide +kernel)

/-- The initial record says 0, and PCR 0 starts with 3. -/
theorem summaryDisagrees_lateLocality :
    ∃ s', run (tpmParseEventlog Sha256.sha256 lateLocalityBuf) (CbData.start .text [0]) =
        .ok (1, s') ∧
      lateLocalityBuf.CryptoAgile ∧ ¬SummaryAgrees Sha256.sha256 lateLocalityBuf s' 0 := by
  have hvalue : (run (tpmParseEventlog Sha256.sha256 lateLocalityBuf)
      (CbData.start .text [0])).toOption.map
        (fun r => (r.1, r.2.format, (r.2.calcPcrs 0).val)) =
      some (1, .text, zeros 31 ++ [3]) := by decide +kernel
  have hstart : loggedStart (lateLocalityBuf.written .text 0) = some (zeroDigest 32) := by
    decide +kernel
  have hdigests : loggedDigests (lateLocalityBuf.written .text 0) = [] := by decide +kernel
  obtain ⟨⟨r, s'⟩, hrun, hparts⟩ := exists_of_toOption_map hvalue
  simp only [Prod.mk.injEq] at hparts
  obtain ⟨rfl, hformat, hpcr⟩ := hparts
  refine ⟨s', hrun, ⟨by decide +kernel, by decide +kernel⟩, ?_⟩
  intro ⟨_, start, hsome, hreplay⟩
  rw [hformat, hstart] at hsome
  obtain rfl := Option.some.inj hsome
  rw [hformat, hdigests] at hreplay
  rw [← hreplay] at hpcr
  exact absurd hpcr (by decide)

end MeasuredBoot.SrtmLog
