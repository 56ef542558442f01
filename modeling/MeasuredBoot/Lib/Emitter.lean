import MeasuredBoot.Lib.Proc
import Mathlib.Data.List.Flatten

/-! # Procedures that append to an output

`Emits` is the contract of a statement whose only effect is to append to an
append-only part of the state: under its condition it goes on after appending
exactly its output, otherwise it leaves the body with a fixed status. Contracts
compose along the statements and the loops of a body.
-/

namespace Imperative

variable {σ β γ : Type}

/-- An append-only part of a state. -/
structure Sink (σ β : Type) where
  emit : List β → σ → σ
  emit_nil : ∀ s, emit [] s = s
  emit_append : ∀ xs ys s, emit (xs ++ ys) s = emit ys (emit xs s)

/-- `m` appends `out` when `good` holds; otherwise it leaves the body with
status `r` after a prefix of `out`. -/
structure Emits (k : Sink σ β) (r : Int) (m : Proc σ Unit) (good : Prop)
    (out : List β) : Prop where
  completes : good → ∀ s, m s = .next () (k.emit out s)
  aborts : ¬good → ∀ s, ∃ pre, pre <+: out ∧ m s = .exit r (k.emit pre s)

namespace Emits

variable {k : Sink σ β} {r : Int} {m m' : Proc σ Unit} {good good' : Prop}
  {out out' : List β}

theorem skip : Emits k r (pure () : Proc σ Unit) True [] where
  completes _ s := by rw [k.emit_nil]; rfl
  aborts h := absurd trivial h

theorem append (out : List β) : Emits k r (Proc.update (k.emit out)) True out where
  completes _ _ := rfl
  aborts h := absurd trivial h

theorem leave (out : List β) : Emits k r (Proc.exit r : Proc σ Unit) False out where
  completes h := h.elim
  aborts _ s := ⟨[], List.nil_prefix, by rw [k.emit_nil]; rfl⟩

theorem congr (h : Emits k r m good out) (hgood : good ↔ good') (hout : out = out') :
    Emits k r m good' out' := by
  rw [← hout]
  exact ⟨fun hg => h.completes (hgood.mpr hg), fun hg => h.aborts fun hg' => hg (hgood.mp hg')⟩

/-- The second statement may rely on the condition of the first. -/
theorem seq (h : Emits k r m good out) (h' : good → Emits k r m' good' out') :
    Emits k r (do m; m') (good ∧ good') (out ++ out') where
  completes hg s := by
    change Proc.Outcome.andThen (m s) (fun _ => m') = _
    rw [h.completes hg.1 s, k.emit_append]
    exact (h' hg.1).completes hg.2 _
  aborts hg s := by
    change ∃ pre, _ ∧ Proc.Outcome.andThen (m s) (fun _ => m') = _
    by_cases h1 : good
    · obtain ⟨pre, hpre', hpre⟩ :=
        (h' h1).aborts (fun h2 => hg ⟨h1, h2⟩) (k.emit out s)
      refine ⟨out ++ pre, (List.prefix_append_right_inj out).mpr hpre', ?_⟩
      rw [h.completes h1 s, k.emit_append]
      exact hpre
    · obtain ⟨pre, hpre', hpre⟩ := h.aborts h1 s
      exact ⟨pre, hpre'.trans (List.prefix_append out out'), by rw [hpre]; rfl⟩

theorem branch {c : Prop} [Decidable c] (h : c → Emits k r m good out)
    (h' : ¬c → Emits k r m' good' out') :
    Emits k r (if c then m else m') (if c then good else good')
      (if c then out else out') := by
  by_cases hc : c
  · simpa only [if_pos hc] using h hc
  · simpa only [if_neg hc] using h' hc

theorem guarded {c : Prop} [Decidable c] (h : c → Emits k r m good out) :
    Emits k r (Proc.when c m) (if c then good else True) (if c then out else []) :=
  branch h fun _ => skip

/-- A check in front of the rest of a body. -/
theorem check {c : Prop} [Decidable c] :
    Emits k r (Proc.exitIf c r) (¬c) [] := by
  refine (guarded (c := c) fun _ => leave []).congr ?_ ?_
  · by_cases hc : c <;> simp [hc]
  · split <;> rfl

/-- A counting loop: each round may rely on the conditions of the rounds before. -/
theorem forRange {body : Nat → Proc σ Unit} {good : Nat → Prop} {out : Nat → List β} (n : Nat)
    (h : ∀ i < n, (∀ j < i, good j) → Emits k r (body i) (good i) (out i)) :
    Emits k r (Proc.forEach body (List.range n)) (∀ i < n, good i)
      ((List.range n).flatMap out) := by
  induction n with
  | zero => exact skip.congr (by simp) rfl
  | succ n ih =>
      have hpre := ih fun i hi => h i (by omega)
      have hlast : (∀ i < n, good i) →
          Emits k r (Proc.forEach body [n]) (good n) (out n) := by
        intro hprev
        have hround := (h n (by omega) hprev).seq fun _ => skip
        exact hround.congr (by simp) (List.append_nil _)
      rw [List.range_succ, Proc.forEach_append]
      refine (hpre.seq hlast).congr ?_ (by simp)
      constructor
      · rintro ⟨hlt, hn⟩ i hi
        rcases Nat.lt_succ_iff_lt_or_eq.mp hi with hi | rfl
        · exact hlt i hi
        · exact hn
      · exact fun hall => ⟨fun i hi => hall i (by omega), hall n (by omega)⟩

/-- A counting loop that leaves the body does so in the first round that is not good. -/
theorem forRange_stops {body : Nat → Proc σ Unit} {good : Nat → Prop} {out : Nat → List β}
    (n : Nat) (h : ∀ i < n, (∀ j < i, good j) → Emits k r (body i) (good i) (out i))
    (hbad : ¬∀ i < n, good i) (s : σ) :
    ∃ i < n, (∀ j < i, good j) ∧ ¬good i ∧ ∃ pre, pre <+: out i ∧
      Proc.forEach body (List.range n) s =
        .exit r (k.emit ((List.range i).flatMap out ++ pre) s) := by
  induction n with
  | zero => exact absurd (fun i hi => absurd hi (Nat.not_lt_zero i)) hbad
  | succ n ih =>
      have hfront : ∀ i < n, (∀ j < i, good j) → Emits k r (body i) (good i) (out i) :=
        fun i hi => h i (by omega)
      rw [List.range_succ, Proc.forEach_append]
      change ∃ i < n + 1, _ ∧ _ ∧ ∃ pre, _ ∧
        Proc.Outcome.andThen (Proc.forEach body (List.range n) s)
          (fun _ => Proc.forEach body [n]) = _
      by_cases hprev : ∀ i < n, good i
      · have hlast : ¬good n := by
          intro hgood
          apply hbad
          intro i hi
          rcases Nat.lt_succ_iff_lt_or_eq.mp hi with hi | rfl
          · exact hprev i hi
          · exact hgood
        have hround : Emits k r (Proc.forEach body [n]) (good n) (out n) :=
          ((h n (by omega) hprev).seq fun _ => skip).congr (by simp) (List.append_nil _)
        obtain ⟨pre, hpre, hexit⟩ := hround.aborts hlast (k.emit ((List.range n).flatMap out) s)
        refine ⟨n, by omega, hprev, hlast, pre, hpre, ?_⟩
        rw [(forRange n hfront).completes hprev s, k.emit_append]
        exact hexit
      · obtain ⟨i, hi, hgood, hstop, pre, hpre, hexit⟩ := ih hfront hprev
        exact ⟨i, by omega, hgood, hstop, pre, hpre, by rw [hexit]; rfl⟩

end Emits

end Imperative
