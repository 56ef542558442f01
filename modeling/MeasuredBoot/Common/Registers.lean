import Mathlib.Logic.Function.Basic
import MeasuredBoot.Common.EventLog

/-! # Registers that share an event log

A program calls its calculators one after the other, each for a register of its own, with
one event log for all of them. What was calculated and logged for a register is still
there at the end.
-/

namespace MeasuredBoot

open Binary Imperative Imperative.Proc

variable {n : Nat}

/-! ## Records of other registers -/

/-- Only records of `index` were added. -/
def SameOthers (index : Nat) (before : List (LogEntry n)) (s : Measurement n) : Prop :=
  s.evlog.filter (·.index ≠ index) = before.filter (·.index ≠ index)

theorem digestsOf_of_others {index i : Nat} {xs ys : List (LogEntry n)} (hi : i ≠ index)
    (h : xs.filter (·.index ≠ index) = ys.filter (·.index ≠ index)) :
    digestsOf i xs = digestsOf i ys := by
  have hfilter : ∀ evlog : List (LogEntry n),
      evlog.filter (·.index = i) = (evlog.filter (·.index ≠ index)).filter (·.index = i) := by
    intro evlog
    rw [List.filter_filter]
    refine List.filter_congr fun e _ => ?_
    by_cases he : e.index = i
    · simp [he, hi]
    · simp [he]
  rw [digestsOf, digestsOf, hfilter xs, hfilter ys, h]

theorem digestsOf_ne_nil {evlog : List (LogEntry n)} {e : LogEntry n} (h : e ∈ evlog) :
    digestsOf e.index evlog ≠ [] := by
  refine List.ne_nil_of_mem (a := e.hash) (List.mem_map_of_mem (List.mem_filter.mpr ⟨h, ?_⟩))
  exact decide_eq_true rfl

theorem SameOthers.log {index : Nat} {before : List (LogEntry n)} {s : Measurement n}
    (h : SameOthers index before s) (name : Bytes) (hash : Digest n) (desc : Bytes) :
    SameOthers index before (s.log index name hash desc) := by
  unfold SameOthers
  rw [Measurement.log_evlog, List.filter_append, h]
  simp

theorem evlogAdd_sameOthers {index : Nat} {before : List (LogEntry n)} {name : Bytes}
    {hash : Digest n} {desc : Bytes} :
    Preserves (SameOthers index before) (evlogAdd index name hash desc) :=
  .update fun _ hs => hs.log name hash desc

theorem extendMr_sameOthers {md : Md n} {index : Nat} {before : List (LogEntry n)}
    {hash : Digest n} : Preserves (SameOthers index before) (extendMr md hash) :=
  .update fun _ hs => hs

/-! ## Between two calls -/

/-- What may be said of the value of a register and the log. -/
abbrev ValueSpec (n : Nat) : Type := Nat → Digest n → List (LogEntry n) → Prop

/-- Only the digests of the register itself matter. -/
def ValueSpec.Own (Value : ValueSpec n) : Prop :=
  ∀ ⦃i : Nat⦄ ⦃mr : Digest n⦄ ⦃xs ys : List (LogEntry n)⦄, digestsOf i ys = digestsOf i xs →
    Value i mr xs → Value i mr ys

/-- The registers calculated so far have their values, and nothing is logged for the
others. -/
structure Between (Value : ValueSpec n) (done : Nat → Prop) (mrs : Nat → Digest n)
    (evlog : List (LogEntry n)) : Prop where
  value : ∀ i, done i → Value i (mrs i) evlog
  silent : ∀ i, ¬done i → digestsOf i evlog = []

namespace Between

variable {Value : ValueSpec n} {done : Nat → Prop} {mrs : Nat → Digest n}
  {evlog : List (LogEntry n)}

theorem start (Value : ValueSpec n) (mrs : Nat → Digest n) :
    Between Value (fun _ => False) mrs [] := ⟨fun _ h => h.elim, fun _ _ => rfl⟩

/-- A call that only logs for a new register. -/
theorem next (hown : Value.Own) (h : Between Value done mrs evlog) {index : Nat}
    (hnew : ¬done index) {value : Digest n} {records : List (LogEntry n)}
    (hothers : records.filter (·.index ≠ index) = []) (hvalue : Value index value records) :
    Between Value (fun i => done i ∨ i = index) (Function.update mrs index value)
      (evlog ++ records) := by
  have hother : ∀ i, i ≠ index → digestsOf i (evlog ++ records) = digestsOf i evlog := by
    intro i hi
    have hnone : digestsOf i records = digestsOf i [] := digestsOf_of_others hi hothers
    rw [digestsOf_append, hnone, digestsOf_nil, List.append_nil]
  constructor
  · intro i hi
    by_cases hindex : i = index
    · subst hindex
      rw [Function.update_self]
      refine hown ?_ hvalue
      rw [digestsOf_append, h.silent i hnew, List.nil_append]
    · rw [Function.update_of_ne hindex]
      exact hown (hother i hindex) (h.value i (hi.resolve_right hindex))
  · intro i hi
    rw [not_or] at hi
    rw [hother i hi.2]
    exact h.silent i hi.1

/-- What is logged is logged for a register that was calculated. -/
theorem logged (h : Between Value done mrs evlog) {e : LogEntry n} (he : e ∈ evlog) :
    done e.index := by
  by_contra hnot
  exact digestsOf_ne_nil he (h.silent e.index hnot)

end Between

section Asked

variable {done asked : Nat → Prop} {index : Nat}

theorem done_of_asked (h : asked index) :
    (fun i => done i ∨ i = index ∧ asked i) = fun i => done i ∨ i = index := by
  funext i
  refine propext (or_congr_right (and_iff_left_of_imp ?_))
  rintro rfl
  exact h

theorem done_of_not_asked (h : ¬asked index) :
    (fun i => done i ∨ i = index ∧ asked i) = done := by
  funext i
  refine propext ⟨fun hi => hi.resolve_right ?_, Or.inl⟩
  rintro ⟨rfl, hasked⟩
  exact h hasked

/-- The keys of all calls are the registers there are. -/
theorem done_of_keys {keys : List Nat} {count : Nat}
    (h : ∀ i, asked i → (i ∈ keys ↔ i < count)) :
    (fun i => False ∨ i ∈ keys ∧ asked i) = fun i => i < count ∧ asked i := by
  funext i
  rw [false_or]
  exact propext (and_congr_left (h i))

end Asked

/-- Calls with keys of their own, each made only where its key is asked for: a call finds
its key new. -/
theorem forEach_once {σ γ : Type} {body : γ → Proc σ Unit} {key : γ → Nat} {asked : Nat → Prop}
    {I : (Nat → Prop) → σ → Prop} {E : Int → σ → Prop} {calls : List γ}
    (hstep : ∀ c ∈ calls, ∀ done s, ¬done (key c) → I done s →
      wlp (body c) (fun _ => I fun i => done i ∨ i = key c ∧ asked i) E s)
    (hnodup : (calls.map key).Nodup) {done : Nat → Prop} (hnew : ∀ c ∈ calls, ¬done (key c))
    {s : σ} (hs : I done s) :
    wlp (forEach body calls) (fun _ => I fun i => done i ∨ i ∈ calls.map key ∧ asked i) E s := by
  induction calls generalizing done s with
  | nil =>
      refine wlp_pure ?_
      simpa using hs
  | cons c calls ih =>
      obtain ⟨hfirst, hrest⟩ := List.nodup_cons.mp hnodup
      obtain ⟨hstepHere, hstepRest⟩ := List.forall_mem_cons.mp hstep
      obtain ⟨hnewHere, hnewRest⟩ := List.forall_mem_cons.mp hnew
      refine wlp_bind (wlp_mono (hstepHere done s hnewHere hs) ?_ fun _ _ h => h)
      intro _ t ht
      have hnext : ∀ c' ∈ calls, ¬(done (key c') ∨ key c' = key c ∧ asked (key c')) := by
        intro c' hc' hdone
        rcases hdone with hdone | ⟨hkey, -⟩
        · exact hnewRest c' hc' hdone
        · exact hfirst (hkey ▸ List.mem_map_of_mem hc')
      refine wlp_mono (ih hstepRest hrest hnext ht) ?_ fun _ _ h => h
      intro _ u hu
      have hsame : (fun i => (done i ∨ i = key c ∧ asked i) ∨ i ∈ calls.map key ∧ asked i) =
          fun i => done i ∨ i ∈ (c :: calls).map key ∧ asked i := by
        funext i
        rw [List.map_cons, List.mem_cons, or_assoc, ← or_and_right]
      rw [hsame] at hu
      exact hu

end MeasuredBoot
