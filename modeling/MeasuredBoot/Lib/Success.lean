import MeasuredBoot.Lib.Proc

/-! # Statements that succeed

Total correctness for procedures: a statement that goes on from every state of an
invariant, back into it, with a value that is known.
-/

namespace Imperative

namespace Proc

variable {σ α β : Type}

/-- From any state in `I`, `m` goes on with a value in `Q` and ends in `I`. -/
def Succeeds (I : σ → Prop) (Q : α → Prop) (m : Proc σ α) : Prop :=
  ∀ s, I s → ∃ a t, m s = .next a t ∧ Q a ∧ I t

namespace Succeeds

variable {I : σ → Prop} {Q : α → Prop}

theorem pure {a : α} (h : Q a) : Succeeds I Q (Pure.pure a : Proc σ α) :=
  fun s hs => ⟨a, s, rfl, h, hs⟩

theorem update {f : σ → σ} (h : ∀ s, I s → I (f s)) :
    Succeeds I (fun _ => True) (Proc.update f) :=
  fun s hs => ⟨(), f s, rfl, trivial, h s hs⟩

theorem getState : Succeeds I I (Proc.getState : Proc σ σ) :=
  fun s hs => ⟨s, s, rfl, hs, hs⟩

theorem bind {P : α → Prop} {Q : β → Prop} {m : Proc σ α} {f : α → Proc σ β}
    (h : Succeeds I P m) (h' : ∀ a, P a → Succeeds I Q (f a)) : Succeeds I Q (m >>= f) := by
  intro s hs
  obtain ⟨a, t, hm, ha, ht⟩ := h s hs
  obtain ⟨b, u, hf, hb, hu⟩ := h' a ha t ht
  refine ⟨b, u, ?_, hb, hu⟩
  rw [bind_apply, hm]
  exact hf

theorem lift_bind {Q : β → Prop} {x : Except Stop α} {f : α → Proc σ β} {a : α} (hx : x = .ok a)
    (h : Succeeds I Q (f a)) : Succeeds I Q (Proc.lift x >>= f) := by
  rw [hx]
  exact h

theorem ite {c : Prop} [Decidable c] {m m' : Proc σ α} (h : c → Succeeds I Q m)
    (h' : ¬c → Succeeds I Q m') : Succeeds I Q (if c then m else m') := by
  split
  · exact h ‹_›
  · exact h' ‹_›

theorem when {c : Prop} [Decidable c] {m : Proc σ Unit}
    (h : c → Succeeds I (fun _ => True) m) : Succeeds I (fun _ => True) (Proc.when c m) :=
  ite h fun _ => pure trivial

theorem exitIf {c : Prop} [Decidable c] {r : Int} (h : ¬c) :
    Succeeds I (fun _ => True) (Proc.exitIf c r : Proc σ Unit) := by
  rw [exitIf_neg h]
  exact pure trivial

theorem forEach {γ : Type} {body : γ → Proc σ Unit} (xs : List γ)
    (h : ∀ x ∈ xs, Succeeds I (fun _ => True) (body x)) :
    Succeeds I (fun _ => True) (Proc.forEach body xs) := by
  induction xs with
  | nil => exact pure trivial
  | cons x xs ih =>
      exact bind (h x List.mem_cons_self) fun _ _ =>
        ih fun y hy => h y (List.mem_cons_of_mem x hy)

/-- A body that succeeds returns. -/
theorem run {m : Proc σ Int} {Q : Int → Prop} (h : Succeeds I Q m) {s : σ} (hs : I s) :
    ∃ r t, Proc.run m s = .ok (r, t) ∧ Q r ∧ I t := by
  obtain ⟨r, t, hm, hr, ht⟩ := h s hs
  refine ⟨r, t, ?_, hr, ht⟩
  unfold Proc.run
  rw [hm]

end Succeeds

/-- From any state in `I`, `m` leaves the function with status `r`. -/
def Fails (I : σ → Prop) (r : Int) (m : Proc σ α) : Prop :=
  ∀ s, I s → ∃ t, m s = .exit r t

namespace Fails

variable {I : σ → Prop} {r : Int}

theorem bind {m : Proc σ α} (h : Fails I r m) (f : α → Proc σ β) : Fails I r (m >>= f) := by
  intro s hs
  obtain ⟨t, hm⟩ := h s hs
  exact ⟨t, by rw [bind_apply, hm]; rfl⟩

theorem bind_of_succeeds {P : α → Prop} {m : Proc σ α} {f : α → Proc σ β}
    (h : Succeeds I P m) (h' : ∀ a, P a → Fails I r (f a)) : Fails I r (m >>= f) := by
  intro s hs
  obtain ⟨a, t, hm, ha, ht⟩ := h s hs
  obtain ⟨u, hf⟩ := h' a ha t ht
  exact ⟨u, by rw [bind_apply, hm]; exact hf⟩

theorem run {m : Proc σ Int} (h : Fails I r m) {s : σ} (hs : I s) :
    ∃ t, Proc.run m s = .ok (r, t) := by
  obtain ⟨t, hm⟩ := h s hs
  refine ⟨t, ?_⟩
  unfold Proc.run
  rw [hm]

end Fails

/-- `m` goes on or leaves the function, and neither faults nor runs on forever. -/
def Settles (m : Proc σ α) : Prop := ∀ s w, m s ≠ .stop w

namespace Settles

theorem pure (a : α) : Settles (Pure.pure a : Proc σ α) := fun _ _ h => nomatch h

theorem exit (r : Int) : Settles (Proc.exit r : Proc σ α) := fun _ _ h => nomatch h

theorem update (f : σ → σ) : Settles (Proc.update f) := fun _ _ h => nomatch h

theorem bind {m : Proc σ α} {f : α → Proc σ β} (h : Settles m) (h' : ∀ a, Settles (f a)) :
    Settles (m >>= f) := by
  intro s w hstop
  rw [bind_apply] at hstop
  cases hm : m s with
  | next a t =>
      rw [hm] at hstop
      exact h' a t w hstop
  | exit r t =>
      rw [hm] at hstop
      exact nomatch hstop
  | stop v => exact h s v hm

theorem exitIf (c : Prop) [Decidable c] (r : Int) : Settles (Proc.exitIf c r : Proc σ Unit) := by
  unfold Proc.exitIf Proc.when
  split
  · exact exit r
  · exact pure ()

/-- A body that settles returns. -/
theorem run {m : Proc σ Int} (h : Settles m) (s : σ) : ∃ r t, Proc.run m s = .ok (r, t) := by
  unfold Proc.run
  cases hm : m s with
  | next r t => exact ⟨r, t, rfl⟩
  | exit r t => exact ⟨r, t, rfl⟩
  | stop w => exact absurd hm (h s w)

theorem inner {τ : Type} {m : Proc τ Int} (h : Settles m) (t : τ) :
    Settles (Proc.inner m t : Proc σ (Int × τ)) := by
  obtain ⟨r, u, hrun⟩ := h.run t
  rw [inner_of_run hrun]
  exact pure (r, u)

/-- A statement that settles and never goes on fails. -/
theorem fails {m : Proc σ α} {I : σ → Prop} {r : Int} (h : Settles m)
    (hwlp : ∀ s, wlp m (fun _ _ => False) (fun q _ => q = r) s) : Fails I r m := by
  intro s _
  cases hm : m s with
  | next a t => exact (next_of_wlp (hwlp s) hm).elim
  | exit q t => exact ⟨t, by rw [exit_of_wlp (hwlp s) hm]⟩
  | stop w => exact absurd hm (h s w)

end Settles

end Proc

end Imperative
