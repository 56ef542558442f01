import MeasuredBoot.Lib.Proc

/-! # Loops that a round can leave

A loop whose rounds work on some items and may leave the body: it works on the items of
the rounds up to the first that leaves it, in order.
-/

namespace Imperative

namespace Proc

variable {σ α ι γ : Type}

/-- A statement that goes on with a value, or leaves the body with `-1` where it fails. -/
def outcome (fails : Bool) (a : α) (t : σ) : Outcome σ α :=
  if fails then .exit (-1) t else .next a t

@[simp] theorem outcome_true (a : α) (t : σ) : outcome true a t = .exit (-1) t := rfl

@[simp] theorem outcome_false (a : α) (t : σ) : outcome false a t = .next a t := rfl

/-- A call of a function turns its failure into its status. -/
theorem call_of_outcome {m : Proc σ Int} {fails : Bool} {s t : σ}
    (h : m s = outcome fails 0 t) : call m s = .next (if fails then -1 else 0) t := by
  unfold call
  rw [h]
  cases fails <;> rfl

theorem run_of_outcome {m : Proc σ Int} {fails : Bool} {s t : σ}
    (h : m s = outcome fails 0 t) : run m s = .ok (if fails then -1 else 0, t) := by
  unfold run
  rw [h]
  cases fails <;> rfl

/-! ## Items -/

variable {work : ι → σ → σ}

/-- The work on each item, in order. -/
def workAll (work : ι → σ → σ) (items : List ι) (s : σ) : σ :=
  items.foldl (fun s item => work item s) s

@[simp] theorem workAll_nil (s : σ) : workAll work [] s = s := rfl

@[simp] theorem workAll_cons (item : ι) (items : List ι) (s : σ) :
    workAll work (item :: items) s = workAll work items (work item s) := rfl

theorem workAll_append (xs ys : List ι) (s : σ) :
    workAll work (xs ++ ys) s = workAll work ys (workAll work xs s) := List.foldl_append

theorem workAll_keeps {I : σ → Prop} (h : ∀ item s, I s → I (work item s)) (items : List ι)
    {s : σ} (hs : I s) : I (workAll work items s) := by
  induction items generalizing s with
  | nil => exact hs
  | cons item items ih => exact ih (h item s hs)

/-! ## Rounds -/

/-- The rounds of a loop, up to the first that leaves it. -/
def upToFailure (fails : γ → Bool) : List γ → List γ
  | [] => []
  | x :: xs => if fails x then [x] else x :: upToFailure fails xs

theorem upToFailure_of_none {fails : γ → Bool} {xs : List γ} (h : xs.any fails = false) :
    upToFailure fails xs = xs := by
  induction xs with
  | nil => rfl
  | cons x xs ih =>
      rw [List.any_cons, Bool.or_eq_false_iff] at h
      rw [upToFailure, h.1, if_neg Bool.false_ne_true, ih h.2]

/-- Each round does its work, and one that fails is the last. -/
theorem forEach_outcome {body : γ → Proc σ Unit} {fails : γ → Bool} {items : γ → List ι}
    {I : σ → Prop} (hwork : ∀ item s, I s → I (work item s)) {xs : List γ}
    (h : ∀ x ∈ xs, ∀ s, I s → body x s = outcome (fails x) () (workAll work (items x) s)) {s : σ}
    (hs : I s) : forEach body xs s =
      outcome (xs.any fails) () (workAll work ((upToFailure fails xs).flatMap items) s) := by
  induction xs generalizing s with
  | nil => rfl
  | cons x xs ih =>
      obtain ⟨hx, hxs⟩ := List.forall_mem_cons.mp h
      rw [forEach, bind_apply, hx s hs, List.any_cons, upToFailure]
      cases fails x with
      | true =>
          rw [Bool.true_or, if_pos rfl, List.flatMap_singleton]
          rfl
      | false =>
          rw [Bool.false_or, if_neg Bool.false_ne_true, List.flatMap_cons, workAll_append,
            outcome_false, andThen_next]
          exact ih hxs (workAll_keeps hwork (items x) hs)

end Proc

end Imperative
