import Mathlib.Data.List.Basic

/-! # Procedures with an early exit

A shallow embedding of C function bodies over an explicit state. A statement
either goes on with a value, leaves the body with a status (`return`, or a
`goto` to the cleanup label), or never gets there: it touches memory outside its
object, or it loops for ever. Function calls turn the callee's exit into a
value. Weakest liberal preconditions and their rules make the invariants of a
body provable statement by statement.
-/

namespace Imperative

/-- Why a run does not reach its return. -/
inductive Stop where
  | fault
  | diverge
  deriving DecidableEq, Repr

theorem bind_eq_ok {ε α β : Type} {x : Except ε α} {f : α → Except ε β} {b : β} :
    x >>= f = .ok b ↔ ∃ a, x = .ok a ∧ f a = .ok b := by
  cases x with
  | error w => simp [bind, Except.bind]
  | ok a => simp [bind, Except.bind]

/-- A result that is known by what is observed of it. -/
theorem exists_of_toOption_map {ε α β : Type} {x : Except ε α} {f : α → β} {b : β}
    (h : x.toOption.map f = some b) : ∃ a, x = .ok a ∧ f a = b := by
  cases x with
  | error w => cases h
  | ok a => exact ⟨a, rfl, Option.some.inj h⟩

/-- A computation stops in its first step or behind it. -/
theorem bind_eq_error {ε α β : Type} {x : Except ε α} {f : α → Except ε β} {w : ε} :
    x >>= f = .error w ↔ x = .error w ∨ ∃ a, x = .ok a ∧ f a = .error w := by
  cases x with
  | error w => simp [bind, Except.bind]
  | ok a => simp [bind, Except.bind]

/-- What one statement does to a run. -/
inductive Outcome (σ α : Type) where
  | next (value : α) (state : σ)
  | exit (status : Int) (state : σ)
  | stop (why : Stop)

/-- A statement over the state `σ` with value `α`. -/
def Proc (σ α : Type) := σ → Outcome σ α

namespace Proc

variable {σ τ α β : Type}

def Outcome.andThen : Outcome σ α → (α → Proc σ β) → Outcome σ β
  | .next a s, f => f a s
  | .exit r s, _ => .exit r s
  | .stop w, _ => .stop w

instance : Monad (Proc σ) where
  pure a := fun s => .next a s
  bind m f := fun s => Outcome.andThen (m s) f

@[simp] theorem pure_apply (a : α) (s : σ) : (pure a : Proc σ α) s = .next a s := rfl

@[simp] theorem bind_apply (m : Proc σ α) (f : α → Proc σ β) (s : σ) :
    (m >>= f) s = Outcome.andThen (m s) f := rfl

@[simp] theorem andThen_next (a : α) (s : σ) (f : α → Proc σ β) :
    Outcome.andThen (.next a s) f = f a s := rfl

@[simp] theorem andThen_exit (r : Int) (s : σ) (f : α → Proc σ β) :
    Outcome.andThen (.exit r s) f = .exit r s := rfl

@[simp] theorem andThen_stop (w : Stop) (f : α → Proc σ β) :
    Outcome.andThen (.stop w : Outcome σ α) f = .stop w := rfl

theorem id_map_proc (m : Proc σ α) : id <$> m = m := by
  funext s
  change Outcome.andThen (m s) (fun a => pure a) = m s
  cases m s <;> rfl

theorem bind_assoc_proc {γ : Type} (m : Proc σ α) (f : α → Proc σ β) (g : β → Proc σ γ) :
    m >>= f >>= g = m >>= fun a => f a >>= g := by
  funext s
  change Outcome.andThen (Outcome.andThen (m s) f) g =
    Outcome.andThen (m s) (fun a => f a >>= g)
  cases m s <;> rfl

instance : LawfulMonad (Proc σ) :=
  LawfulMonad.mk' (Proc σ) id_map_proc (fun _ _ => rfl) bind_assoc_proc

/-! ## Statements -/

/-- `return status`, or a jump to the cleanup label with that status. -/
def exit (status : Int) : Proc σ α := fun s => .exit status s

/-- A statement under an `if` without `else`. -/
def when (c : Prop) [Decidable c] (m : Proc σ Unit) : Proc σ Unit := if c then m else pure ()

/-- `if (c) return status`. -/
def exitIf (c : Prop) [Decidable c] (status : Int) : Proc σ Unit := when c (exit status)

/-- An access outside its object, an invalid `free` or a failed assertion. -/
def fault : Proc σ α := fun _ => .stop .fault

def getState : Proc σ σ := fun s => .next s s

def update (f : σ → σ) : Proc σ Unit := fun s => .next () (f s)

/-- A computation on values that may never return. -/
def lift : Except Stop α → Proc σ α
  | .ok a => pure a
  | .error w => fun _ => .stop w

/-- A loop whose body runs once for each element, in order. -/
def forEach {γ : Type} (body : γ → Proc σ Unit) : List γ → Proc σ Unit
  | [] => pure ()
  | x :: xs => do body x; forEach body xs

@[simp] theorem exit_apply (r : Int) (s : σ) : (exit r : Proc σ α) s = .exit r s := rfl
@[simp] theorem fault_apply (s : σ) : (fault : Proc σ α) s = .stop .fault := rfl
@[simp] theorem getState_apply (s : σ) : (getState : Proc σ σ) s = .next s s := rfl
@[simp] theorem update_apply (f : σ → σ) (s : σ) : update f s = .next () (f s) := rfl
@[simp] theorem exitIf_pos {c : Prop} [Decidable c] (h : c) (r : Int) :
    (exitIf c r : Proc σ Unit) = exit r := if_pos h
@[simp] theorem exitIf_neg {c : Prop} [Decidable c] (h : ¬c) (r : Int) :
    (exitIf c r : Proc σ Unit) = pure () := if_neg h
@[simp] theorem lift_ok_apply (a : α) (s : σ) :
    (lift (.ok a) : Proc σ α) s = .next a s := rfl
@[simp] theorem lift_error_apply (w : Stop) (s : σ) :
    (lift (.error w) : Proc σ α) s = .stop w := rfl

theorem lift_ok_bind (a : α) (f : α → Proc σ β) : (lift (.ok a) >>= f) = f a := rfl

theorem forEach_append {γ : Type} (body : γ → Proc σ Unit) (xs ys : List γ) :
    forEach body (xs ++ ys) = (do forEach body xs; forEach body ys) := by
  induction xs with
  | nil => rfl
  | cons x xs ih =>
      change (do body x; forEach body (xs ++ ys)) = _
      rw [ih]
      exact (bind_assoc (body x) _ _).symm

theorem forEach_map {γ δ : Type} (body : δ → Proc σ Unit) (f : γ → δ) (xs : List γ) :
    forEach body (xs.map f) = forEach (fun x => body (f x)) xs := by
  induction xs with
  | nil => rfl
  | cons x xs ih =>
      change (do body (f x); forEach body (xs.map f)) = _
      rw [ih]
      rfl

/-! ## Functions -/

/-- Calling a function whose body is `m`: its status is the value. -/
def call (m : Proc σ Int) : Proc σ Int := fun s =>
  match m s with
  | .next r s' => .next r s'
  | .exit r s' => .next r s'
  | .stop w => .stop w

/-- The status and the state a function body ends with. -/
def run (m : Proc σ Int) (s : σ) : Except Stop (Int × σ) :=
  match m s with
  | .next r s' => .ok (r, s')
  | .exit r s' => .ok (r, s')
  | .stop w => .error w

/-- A run may be taken up from another state at which its first statement does the same. -/
theorem run_bind_of_eq {m m' : Proc σ α} {s t : σ} (h : m s = m' t) (f : α → Proc σ Int) :
    run (m >>= f) s = run (m' >>= f) t := by
  unfold run
  rw [bind_apply, bind_apply, h]

/-- A run that returns got its first value. -/
theorem run_lift_bind {x : Except Stop α} {f : α → Proc σ Int} {s : σ} {result : Int × σ}
    (h : run (lift x >>= f) s = .ok result) : ∃ a, x = .ok a ∧ run (f a) s = .ok result := by
  cases x with
  | error w => cases h
  | ok a => exact ⟨a, rfl, h⟩

/-- Running a body over a state of its own, started at `t`. -/
def inner (m : Proc τ Int) (t : τ) : Proc σ (Int × τ) := lift (run m t)

theorem inner_of_run {m : Proc τ Int} {t t' : τ} {r : Int} (h : run m t = .ok (r, t')) :
    (inner m t : Proc σ (Int × τ)) = pure (r, t') := by
  unfold inner
  rw [h]
  rfl

theorem call_of_run {m : Proc σ Int} {s s' : σ} {r : Int} (h : run m s = .ok (r, s')) :
    call m s = .next r s' := by
  unfold run at h
  unfold call
  cases hm : m s <;> simp_all

/-! ## Weakest liberal preconditions -/

/-- `m` started in `s` goes on only into `Q` and exits only into `E`. -/
def wlp (m : Proc σ α) (Q : α → σ → Prop) (E : Int → σ → Prop) (s : σ) : Prop :=
  match m s with
  | .next a s' => Q a s'
  | .exit r s' => E r s'
  | .stop _ => True

theorem next_of_wlp {m : Proc σ α} {Q : α → σ → Prop} {E : Int → σ → Prop} {s t : σ} {a : α}
    (h : wlp m Q E s) (hm : m s = .next a t) : Q a t := by
  unfold wlp at h
  rwa [hm] at h

theorem exit_of_wlp {m : Proc σ α} {Q : α → σ → Prop} {E : Int → σ → Prop} {s t : σ} {r : Int}
    (h : wlp m Q E s) (hm : m s = .exit r t) : E r t := by
  unfold wlp at h
  rwa [hm] at h

theorem wlp_true (m : Proc σ α) (s : σ) : wlp m (fun _ _ => True) (fun _ _ => True) s := by
  unfold wlp
  cases m s <;> trivial

theorem wlp_pure {a : α} {Q : α → σ → Prop} {E : Int → σ → Prop} {s : σ} (h : Q a s) :
    wlp (pure a) Q E s := h

theorem wlp_exit {r : Int} {Q : α → σ → Prop} {E : Int → σ → Prop} {s : σ} (h : E r s) :
    wlp (exit r : Proc σ α) Q E s := h

theorem wlp_ite {c : Prop} [Decidable c] {m n : Proc σ α} {Q : α → σ → Prop}
    {E : Int → σ → Prop} {s : σ} (h : c → wlp m Q E s) (h' : ¬c → wlp n Q E s) :
    wlp (if c then m else n) Q E s := by
  split
  · exact h ‹_›
  · exact h' ‹_›

theorem wlp_when {c : Prop} [Decidable c] {m : Proc σ Unit} {Q : Unit → σ → Prop}
    {E : Int → σ → Prop} {s : σ} (h : c → wlp m Q E s) (h' : ¬c → Q () s) :
    wlp (when c m) Q E s := by
  unfold when
  split
  · exact h ‹_›
  · exact h' ‹_›

theorem wlp_exitIf {c : Prop} [Decidable c] {r : Int} {Q : Unit → σ → Prop}
    {E : Int → σ → Prop} {s : σ} (h : c → E r s) (h' : ¬c → Q () s) :
    wlp (exitIf c r) Q E s := wlp_when h h'

theorem wlp_getState {Q : σ → σ → Prop} {E : Int → σ → Prop} {s : σ} (h : Q s s) :
    wlp getState Q E s := h

theorem wlp_update {f : σ → σ} {Q : Unit → σ → Prop} {E : Int → σ → Prop} {s : σ}
    (h : Q () (f s)) : wlp (update f) Q E s := h

theorem wlp_lift {x : Except Stop α} {Q : α → σ → Prop} {E : Int → σ → Prop} {s : σ}
    (h : ∀ a, x = .ok a → Q a s) : wlp (lift x) Q E s := by
  cases x with
  | ok a => exact h a rfl
  | error w => trivial

theorem wlp_mono {m : Proc σ α} {Q Q' : α → σ → Prop} {E E' : Int → σ → Prop} {s : σ}
    (h : wlp m Q E s) (hQ : ∀ a t, Q a t → Q' a t) (hE : ∀ r t, E r t → E' r t) :
    wlp m Q' E' s := by
  unfold wlp at h ⊢
  cases hm : m s with
  | next a t => rw [hm] at h; exact hQ a t h
  | exit r t => rw [hm] at h; exact hE r t h
  | stop w => trivial

theorem wlp_and {m : Proc σ α} {Q Q' : α → σ → Prop} {E E' : Int → σ → Prop} {s : σ}
    (h : wlp m Q E s) (h' : wlp m Q' E' s) :
    wlp m (fun a t => Q a t ∧ Q' a t) (fun r t => E r t ∧ E' r t) s := by
  unfold wlp at *
  cases hm : m s with
  | next a t => rw [hm] at h h'; exact ⟨h, h'⟩
  | exit r t => rw [hm] at h h'; exact ⟨h, h'⟩
  | stop w => trivial

theorem wlp_bind {m : Proc σ α} {f : α → Proc σ β} {Q : β → σ → Prop} {E : Int → σ → Prop}
    {s : σ} (h : wlp m (fun a t => wlp (f a) Q E t) E s) : wlp (m >>= f) Q E s := by
  unfold wlp at h ⊢
  rw [bind_apply]
  cases hm : m s with
  | next a t => rw [hm] at h; exact h
  | exit r t => rw [hm] at h; exact h
  | stop w => trivial

theorem wlp_call {m : Proc σ Int} {Q : Int → σ → Prop} {E : Int → σ → Prop} {s : σ}
    (h : wlp m Q Q s) : wlp (call m) Q E s := by
  unfold wlp call at *
  cases hm : m s <;> simp_all

/-- A loop over a list keeps what each round keeps. -/
theorem wlp_forEach {γ : Type} {xs : List γ} {body : γ → Proc σ Unit} {I : σ → Prop}
    {E : Int → σ → Prop} (h : ∀ x ∈ xs, ∀ t, I t → wlp (body x) (fun _ => I) E t) {s : σ}
    (hs : I s) : wlp (forEach body xs) (fun _ => I) E s := by
  induction xs generalizing s with
  | nil => exact hs
  | cons x xs ih =>
      refine wlp_bind (wlp_mono (h x List.mem_cons_self s hs) ?_ fun _ _ he => he)
      intro _ t ht
      exact ih (fun y hy => h y (List.mem_cons_of_mem x hy)) ht

/-- What every completed run of a body ends in. -/
theorem run_of_wlp {m : Proc σ Int} {Q : Int → σ → Prop} {s s' : σ} {r : Int}
    (h : wlp m Q Q s) (hr : run m s = .ok (r, s')) : Q r s' := by
  unfold wlp at h
  unfold run at hr
  cases hm : m s <;> simp_all

/-- What every run that returns 0 ends in. -/
theorem run_zero_of_wlp {m : Proc σ Int} {P : σ → Prop} {s s' : σ}
    (h : wlp m (fun _ => P) (fun r _ => r ≠ 0) s) (hr : run m s = .ok (0, s')) : P s' := by
  have hzero : wlp m (fun r t => r = 0 → P t) (fun r t => r = 0 → P t) s :=
    wlp_mono h (fun _ _ ht _ => ht) fun _ _ hne heq => absurd heq hne
  exact run_of_wlp hzero hr rfl

/-! ## Invariants -/

/-- `m` keeps `I`, whether it goes on or leaves the body. -/
def Preserves (I : σ → Prop) (m : Proc σ α) : Prop :=
  ∀ s, I s → wlp m (fun _ => I) (fun _ => I) s

namespace Preserves

variable {I : σ → Prop}

theorem pure (a : α) : Preserves I (Pure.pure a : Proc σ α) := fun _ hs => hs

theorem exit (r : Int) : Preserves I (Proc.exit r : Proc σ α) := fun _ hs => hs

theorem fault : Preserves I (Proc.fault : Proc σ α) := fun _ _ => trivial

theorem update {f : σ → σ} (h : ∀ s, I s → I (f s)) : Preserves I (Proc.update f) := h

theorem lift (x : Except Stop α) : Preserves I (Proc.lift x : Proc σ α) :=
  fun _ hs => wlp_lift fun _ _ => hs

theorem bind {m : Proc σ α} {f : α → Proc σ β} (h : Preserves I m)
    (h' : ∀ a, Preserves I (f a)) : Preserves I (m >>= f) :=
  fun s hs => wlp_bind (wlp_mono (h s hs) (fun a t ht => h' a t ht) fun _ _ ht => ht)

theorem when {c : Prop} [Decidable c] {m : Proc σ Unit} (h : c → Preserves I m) :
    Preserves I (Proc.when c m) :=
  fun s hs => wlp_when (fun hc => h hc s hs) fun _ => hs

theorem exitIf (c : Prop) [Decidable c] (r : Int) : Preserves I (Proc.exitIf c r) :=
  when fun _ => exit r

theorem ite {c : Prop} [Decidable c] {m m' : Proc σ α} (h : c → Preserves I m)
    (h' : ¬c → Preserves I m') : Preserves I (if c then m else m') :=
  fun s hs => wlp_ite (fun hc => h hc s hs) fun hc => h' hc s hs

theorem call {m : Proc σ Int} (h : Preserves I m) : Preserves I (Proc.call m) :=
  fun s hs => wlp_call (h s hs)

theorem forEach {γ : Type} {body : γ → Proc σ Unit} (xs : List γ)
    (h : ∀ x ∈ xs, Preserves I (body x)) : Preserves I (Proc.forEach body xs) :=
  fun _ hs => wlp_forEach (fun x hx t ht => h x hx t ht) hs

/-- The state a preserving function body returns in. -/
theorem run {m : Proc σ Int} (h : Preserves I m) {s s' : σ} {r : Int} (hs : I s)
    (hr : Proc.run m s = .ok (r, s')) : I s' :=
  run_of_wlp (Q := fun _ => I) (h s hs) hr

end Preserves

/-! ## Values and statuses -/

/-- From any state, `m` goes on only with values in `Q` and leaves the body only with
statuses in `E`. -/
def Yields (Q : α → Prop) (E : Int → Prop) (m : Proc σ α) : Prop :=
  ∀ s, wlp m (fun a _ => Q a) (fun r _ => E r) s

namespace Yields

variable {E : Int → Prop}

theorem any (m : Proc σ α) : Yields (fun _ => True) (fun _ => True) m := wlp_true m

theorem pure {Q : α → Prop} {a : α} (h : Q a) : Yields Q E (Pure.pure a : Proc σ α) :=
  fun _ => h

theorem exit {Q : α → Prop} {r : Int} (h : E r) : Yields Q E (Proc.exit r : Proc σ α) :=
  fun _ => h

theorem fault {Q : α → Prop} : Yields Q E (Proc.fault : Proc σ α) := fun _ => trivial

theorem update (f : σ → σ) : Yields (fun _ => True) E (Proc.update f) := fun _ => trivial

theorem lift {Q : α → Prop} {x : Except Stop α} (h : ∀ a, x = .ok a → Q a) :
    Yields Q E (Proc.lift x : Proc σ α) := fun _ => wlp_lift h

theorem bind {P : α → Prop} {Q : β → Prop} {m : Proc σ α} {f : α → Proc σ β}
    (h : Yields P E m) (h' : ∀ a, P a → Yields Q E (f a)) : Yields Q E (m >>= f) :=
  fun s => wlp_bind (wlp_mono (h s) (fun a t ha => h' a ha t) fun _ _ he => he)

theorem ite {Q : α → Prop} {c : Prop} [Decidable c] {m m' : Proc σ α}
    (h : c → Yields Q E m) (h' : ¬c → Yields Q E m') : Yields Q E (if c then m else m') :=
  fun s => wlp_ite (fun hc => h hc s) fun hc => h' hc s

theorem when {Q : Unit → Prop} {c : Prop} [Decidable c] {m : Proc σ Unit}
    (h : c → Yields Q E m) (h' : ¬c → Q ()) : Yields Q E (Proc.when c m) :=
  fun s => wlp_when (fun hc => h hc s) h'

theorem exitIf {Q : Unit → Prop} {c : Prop} [Decidable c] {r : Int} (h : c → E r)
    (h' : ¬c → Q ()) : Yields Q E (Proc.exitIf c r : Proc σ Unit) :=
  when (fun hc => exit (h hc)) h'

theorem call {Q : Int → Prop} {m : Proc σ Int} (h : Yields Q Q m) :
    Yields Q E (Proc.call m) := fun s => wlp_call (h s)

/-- A loop that passes every element, or stops at the first one that does not pass. -/
theorem forEach {γ : Type} {body : γ → Proc σ Unit} {Pass : γ → Prop} (xs : List γ)
    (h : ∀ pre x post, xs = pre ++ x :: post → (∀ y ∈ pre, Pass y) →
      Yields (fun _ => Pass x) E (body x)) :
    Yields (fun _ => ∀ x ∈ xs, Pass x) E (Proc.forEach body xs) := by
  suffices hsuffix : ∀ pre rest, xs = pre ++ rest → (∀ y ∈ pre, Pass y) →
      Yields (fun _ => ∀ x ∈ rest, Pass x) E (Proc.forEach body rest) from
    hsuffix [] xs rfl (by simp)
  intro pre rest hxs hpre
  induction rest generalizing pre with
  | nil => exact pure (by simp)
  | cons x rest ih =>
      refine bind (h pre x rest hxs hpre) fun _ hx => ?_
      have hpre' : ∀ y ∈ pre ++ [x], Pass y := by
        intro y hy
        rcases List.mem_append.mp hy with hy | hy
        · exact hpre y hy
        · rw [List.mem_singleton] at hy
          exact hy ▸ hx
      intro s
      refine wlp_mono (ih (pre ++ [x]) (by simp [hxs]) hpre' s) (fun _ _ hrest => ?_)
        fun _ _ he => he
      intro y hy
      rcases List.mem_cons.mp hy with rfl | hy
      · exact hx
      · exact hrest y hy

end Yields

/-- `m` never loops for ever. -/
def Ends (m : Proc σ α) : Prop := ∀ s, m s ≠ .stop .diverge

namespace Ends

theorem pure (a : α) : Ends (Pure.pure a : Proc σ α) := fun _ h => by cases h

theorem exit (r : Int) : Ends (Proc.exit r : Proc σ α) := fun _ h => by cases h

theorem update (f : σ → σ) : Ends (Proc.update f) := fun _ h => by cases h

theorem lift {x : Except Stop α} (h : x ≠ .error .diverge) : Ends (Proc.lift x : Proc σ α) := by
  intro s hs
  cases x with
  | ok a => cases hs
  | error w =>
      cases hs
      exact h rfl

theorem bind {m : Proc σ α} {f : α → Proc σ β} (h : Ends m) (h' : ∀ a, Ends (f a)) :
    Ends (m >>= f) := by
  intro s hs
  rw [bind_apply] at hs
  cases hm : m s with
  | next a t =>
      rw [hm] at hs
      exact h' a t hs
  | exit r t =>
      rw [hm] at hs
      cases hs
  | stop w =>
      rw [hm] at hs
      cases hs
      exact h s hm

theorem ite {c : Prop} [Decidable c] {m m' : Proc σ α} (h : Ends m) (h' : Ends m') :
    Ends (if c then m else m') := by
  split
  · exact h
  · exact h'

theorem when {c : Prop} [Decidable c] {m : Proc σ Unit} (h : Ends m) : Ends (Proc.when c m) :=
  ite h (pure ())

theorem exitIf (c : Prop) [Decidable c] (r : Int) : Ends (Proc.exitIf c r : Proc σ Unit) :=
  when (exit r)

theorem forEach {γ : Type} {body : γ → Proc σ Unit} (h : ∀ x, Ends (body x)) (xs : List γ) :
    Ends (Proc.forEach body xs) := by
  induction xs with
  | nil => exact pure ()
  | cons x xs ih => exact bind (h x) fun _ => ih

theorem run {m : Proc σ Int} (h : Ends m) (s : σ) : Proc.run m s ≠ .error .diverge := by
  intro hs
  unfold Proc.run at hs
  cases hm : m s with
  | next r t =>
      rw [hm] at hs
      cases hs
  | exit r t =>
      rw [hm] at hs
      cases hs
  | stop w =>
      rw [hm] at hs
      cases hs
      exact h s hm

end Ends

/-- From any state, `m` goes on with the value `a`. -/
def Completes (m : Proc σ α) (a : α) : Prop := ∀ s, ∃ t, m s = .next a t

/-- From any state, `m` leaves the body with status `r`. -/
def Aborts (m : Proc σ α) (r : Int) : Prop := ∀ s, ∃ t, m s = .exit r t

theorem Completes.update (f : σ → σ) : Completes (Proc.update f) () := fun s => ⟨f s, rfl⟩

theorem Aborts.exit (r : Int) : Aborts (Proc.exit r : Proc σ α) r := fun s => ⟨s, rfl⟩

theorem Aborts.bind {m : Proc σ α} {f : α → Proc σ β} {r : Int} (h : Aborts m r) :
    Aborts (m >>= f) r := by
  intro s
  obtain ⟨t, hm⟩ := h s
  refine ⟨t, ?_⟩
  rw [bind_apply, hm]
  rfl

theorem Completes.aborts_bind {m : Proc σ α} {f : α → Proc σ β} {a : α} {r : Int}
    (h : Completes m a) (h' : Aborts (f a) r) : Aborts (m >>= f) r := by
  intro s
  obtain ⟨t, hm⟩ := h s
  obtain ⟨u, hf⟩ := h' t
  refine ⟨u, ?_⟩
  rw [bind_apply, hm]
  exact hf

theorem Aborts.call {m : Proc σ Int} {r : Int} (h : Aborts m r) :
    Completes (Proc.call m) r := by
  intro s
  obtain ⟨t, hm⟩ := h s
  refine ⟨t, ?_⟩
  unfold Proc.call
  rw [hm]

theorem Aborts.run {m : Proc σ Int} {r : Int} (h : Aborts m r) (s : σ) :
    ∃ t, Proc.run m s = .ok (r, t) := by
  obtain ⟨t, hm⟩ := h s
  refine ⟨t, ?_⟩
  unfold Proc.run
  rw [hm]

/-- A loop ends at the first element whose round leaves the body. -/
theorem Aborts.forEach {γ : Type} {body : γ → Proc σ Unit} {pre post : List γ} {x : γ} {r : Int}
    (hpre : ∀ y ∈ pre, Completes (body y) ()) (hx : Aborts (body x) r) :
    Aborts (Proc.forEach body (pre ++ x :: post)) r := by
  induction pre with
  | nil => exact hx.bind
  | cons y pre ih =>
      have hy := hpre y List.mem_cons_self
      exact hy.aborts_bind (ih fun z hz => hpre z (List.mem_cons_of_mem y hz))

end Proc

/-- Some element fails, and every element in front of it passes. -/
def FirstFails {γ : Type} (Pass Fail : γ → Prop) (xs : List γ) : Prop :=
  ∃ pre x post, xs = pre ++ x :: post ∧ (∀ y ∈ pre, Pass y) ∧ Fail x

end Imperative
