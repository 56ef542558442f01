import MeasuredBoot.Lib.Proc

/-! # Procedures in lockstep

Two procedures over different states that end the same way, with the same value or
status, in related states. The rules follow the statements, so two bodies with the
same text are in lockstep as soon as the functions they call are.
-/

namespace Imperative.Proc

variable {σ τ α β : Type}

/-- Two outcomes end the same way and leave related states. -/
def Agree (R : σ → τ → Prop) : Outcome σ α → Outcome τ α → Prop
  | .next a s, .next b t => a = b ∧ R s t
  | .exit r s, .exit r' t => r = r' ∧ R s t
  | .stop w, .stop w' => w = w'
  | _, _ => False

/-- From related states the two procedures agree. -/
def Lockstep (R : σ → τ → Prop) (m : Proc σ α) (n : Proc τ α) : Prop :=
  ∀ s t, R s t → Agree R (m s) (n t)

/-- The three ways in which two outcomes can agree. -/
theorem Agree.inv {R : σ → τ → Prop} {o : Outcome σ α} {o' : Outcome τ α} (h : Agree R o o') :
    (∃ a s t, o = .next a s ∧ o' = .next a t ∧ R s t) ∨
      (∃ r s t, o = .exit r s ∧ o' = .exit r t ∧ R s t) ∨
      (∃ w, o = .stop w ∧ o' = .stop w) := by
  cases o with
  | next a s =>
      cases o' with
      | next b t =>
          obtain ⟨hab, hst⟩ := h
          subst hab
          exact Or.inl ⟨a, s, t, rfl, rfl, hst⟩
      | exit r t => exact h.elim
      | stop w => exact h.elim
  | exit r s =>
      cases o' with
      | next b t => exact h.elim
      | exit r' t =>
          obtain ⟨hr, hst⟩ := h
          subst hr
          exact Or.inr (Or.inl ⟨r, s, t, rfl, rfl, hst⟩)
      | stop w => exact h.elim
  | stop w =>
      cases o' with
      | next b t => exact h.elim
      | exit r t => exact h.elim
      | stop w' =>
          cases h
          exact Or.inr (Or.inr ⟨w, rfl, rfl⟩)

/-- A procedure is in lockstep with itself. -/
theorem Lockstep.refl (m : Proc σ α) : Lockstep Eq m m := by
  intro s t h
  subst h
  cases m s with
  | next a s' => exact ⟨rfl, rfl⟩
  | exit r s' => exact ⟨rfl, rfl⟩
  | stop w => rfl

variable {R : σ → τ → Prop}

theorem Lockstep.pure (a : α) : Lockstep R (pure a : Proc σ α) (pure a : Proc τ α) := by
  intro s t h
  exact ⟨rfl, h⟩

theorem Lockstep.exit (r : Int) : Lockstep R (exit r : Proc σ α) (exit r : Proc τ α) := by
  intro s t h
  exact ⟨rfl, h⟩

theorem Lockstep.lift (x : Except Stop α) : Lockstep R (lift x) (lift x) := by
  intro s t h
  cases x with
  | ok a => exact ⟨rfl, h⟩
  | error w => rfl

theorem Lockstep.update {f : σ → σ} {g : τ → τ} (h : ∀ s t, R s t → R (f s) (g t)) :
    Lockstep R (update f) (update g) := by
  intro s t hst
  exact ⟨rfl, h s t hst⟩

theorem Lockstep.bind {m : Proc σ α} {n : Proc τ α} {f : α → Proc σ β} {g : α → Proc τ β}
    (h : Lockstep R m n) (hf : ∀ a, Lockstep R (f a) (g a)) :
    Lockstep R (m >>= f) (n >>= g) := by
  intro s t hst
  rw [bind_apply, bind_apply]
  rcases (h s t hst).inv with ⟨a, s', t', hm, hn, hst'⟩ | ⟨r, s', t', hm, hn, hst'⟩ | ⟨w, hm, hn⟩
  · rw [hm, hn]
    exact hf a s' t' hst'
  · rw [hm, hn]
    exact ⟨rfl, hst'⟩
  · rw [hm, hn]
    rfl

theorem Lockstep.ite {c : Prop} [Decidable c] {m m' : Proc σ α} {n n' : Proc τ α}
    (h : c → Lockstep R m n) (h' : ¬c → Lockstep R m' n') :
    Lockstep R (if c then m else m') (if c then n else n') := by
  split
  · exact h ‹_›
  · exact h' ‹_›

theorem Lockstep.when {c : Prop} [Decidable c] {m : Proc σ Unit} {n : Proc τ Unit}
    (h : Lockstep R m n) : Lockstep R (when c m) (when c n) :=
  Lockstep.ite (fun _ => h) fun _ => Lockstep.pure ()

theorem Lockstep.exitIf (c : Prop) [Decidable c] (r : Int) :
    Lockstep R (exitIf c r : Proc σ Unit) (exitIf c r) := Lockstep.when (Lockstep.exit r)

theorem Lockstep.inner {υ : Type} (m : Proc υ Int) (u : υ) :
    Lockstep R (inner m u : Proc σ (Int × υ)) (inner m u) := Lockstep.lift _

/-- Two loops are in lockstep when their bodies are. -/
theorem Lockstep.forEach {γ : Type} {body : γ → Proc σ Unit} {body' : γ → Proc τ Unit}
    (h : ∀ x, Lockstep R (body x) (body' x)) (xs : List γ) :
    Lockstep R (forEach body xs) (forEach body' xs) := by
  induction xs with
  | nil => exact Lockstep.pure ()
  | cons x xs ih => exact Lockstep.bind (h x) fun _ => ih

/-! ## The same from one state -/

/-- Two bodies do the same if they do in their first statement and, should that go on,
behind it. -/
theorem bind_eq_bind {m m' : Proc σ α} {f g : α → Proc σ β} {s : σ} (h : m s = m' s)
    (hnext : ∀ a t, m' s = .next a t → f a t = g a t) : (m >>= f) s = (m' >>= g) s := by
  rw [bind_apply, bind_apply, h]
  cases hm : m' s with
  | next a t => exact hnext a t hm
  | exit r t => rfl
  | stop w => rfl

/-! ## The same from some states -/

/-- From states of `I` the two procedures do the same, and stay in `I`. -/
abbrev SameOn (I : σ → Prop) (m n : Proc σ α) : Prop := Lockstep (fun s t => s = t ∧ I s) m n

section SameOn

variable {I : σ → Prop} {m n : Proc σ α}

theorem SameOn.eq (h : SameOn I m n) {s : σ} (hs : I s) : m s = n s := by
  rcases (h s s ⟨rfl, hs⟩).inv with
    ⟨a, t, u, hm, hn, htu, -⟩ | ⟨r, t, u, hm, hn, htu, -⟩ | ⟨w, hm, hn⟩
  · rw [hm, hn, htu]
  · rw [hm, hn, htu]
  · rw [hm, hn]

theorem SameOn.next (h : SameOn I m n) {s t : σ} {a : α} (hs : I s) (hn : n s = .next a t) :
    I t := by
  have hagree := h s s ⟨rfl, hs⟩
  rw [h.eq hs, hn] at hagree
  exact hagree.2.2

theorem SameOn.getState : SameOn I (getState : Proc σ σ) getState := by
  rintro s _ ⟨rfl, hs⟩
  exact ⟨rfl, rfl, hs⟩

theorem SameOn.update {f : σ → σ} (h : ∀ s, I s → I (f s)) :
    SameOn I (Proc.update f) (Proc.update f) := by
  rintro s _ ⟨rfl, hs⟩
  exact ⟨rfl, rfl, h s hs⟩

end SameOn

end Imperative.Proc
