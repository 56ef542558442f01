import Mathlib.Data.List.Induction

/-! # Hash chains

A register that is updated by hashing a block built from its old value and the
next item. The chain binds its items: two chains with the same start and the
same end have the same items, unless two different blocks hashed on the way
collide or some block hashes back to the start.
-/

namespace HashChain

variable {α β δ : Type} (H : β → δ) (block : δ → α → β)

/-- The register after the items, from the start value `d₀`. -/
def value (d₀ : δ) (items : List α) : δ :=
  items.foldl (fun d x => H (block d x)) d₀

/-- The blocks hashed on the way, in order. -/
def hashed (d₀ : δ) : List α → List β
  | [] => []
  | x :: xs => block d₀ x :: hashed (H (block d₀ x)) xs

@[simp] theorem value_nil (d₀ : δ) : value H block d₀ [] = d₀ := rfl

@[simp] theorem value_cons (d₀ : δ) (x : α) (xs : List α) :
    value H block d₀ (x :: xs) = value H block (H (block d₀ x)) xs := rfl

theorem value_append (d₀ : δ) (xs ys : List α) :
    value H block d₀ (xs ++ ys) = value H block (value H block d₀ xs) ys := by
  simp [value, List.foldl_append]

theorem value_concat (d₀ : δ) (xs : List α) (x : α) :
    value H block d₀ (xs ++ [x]) = H (block (value H block d₀ xs) x) := by
  rw [value_append]
  rfl

theorem hashed_append (d₀ : δ) (xs ys : List α) :
    hashed H block d₀ (xs ++ ys) =
      hashed H block d₀ xs ++ hashed H block (value H block d₀ xs) ys := by
  induction xs generalizing d₀ with
  | nil => rfl
  | cons x xs ih => simp [hashed, ih]

theorem hashed_concat (d₀ : δ) (xs : List α) (x : α) :
    hashed H block d₀ (xs ++ [x]) =
      hashed H block d₀ xs ++ [block (value H block d₀ xs) x] := by
  rw [hashed_append]
  rfl

/-- Two different strings, one from each list, with the same hash. -/
def Collides (as bs : List β) : Prop := ∃ a ∈ as, ∃ b ∈ bs, a ≠ b ∧ H a = H b

/-- A string of the list whose hash is `d₀`. -/
def Hits (d₀ : δ) (as : List β) : Prop := ∃ a ∈ as, H a = d₀

variable {H}

theorem Collides.mono {as as' bs bs' : List β} (h : Collides H as bs)
    (ha : ∀ a ∈ as, a ∈ as') (hb : ∀ b ∈ bs, b ∈ bs') : Collides H as' bs' := by
  obtain ⟨a, hmem, b, hmem', hab⟩ := h
  exact ⟨a, ha a hmem, b, hb b hmem', hab⟩

theorem Hits.mono {d₀ : δ} {as as' : List β} (h : Hits H d₀ as)
    (ha : ∀ a ∈ as, a ∈ as') : Hits H d₀ as' := by
  obtain ⟨a, hmem, hd⟩ := h
  exact ⟨a, ha a hmem, hd⟩

variable {block}

/-- The last block of a nonempty chain is the one its value is the hash of. -/
theorem hits_of_value_concat {d₀ : δ} {xs : List α} {x : α}
    (h : value H block d₀ (xs ++ [x]) = d₀) : Hits H d₀ (hashed H block d₀ (xs ++ [x])) := by
  refine ⟨block (value H block d₀ xs) x, ?_, ?_⟩
  · rw [hashed_concat]
    simp
  · rwa [value_concat] at h

/-- A chain binds its items. `I` holds of every register value and `P` of every
item; on these the block determines both. -/
theorem binding {I : δ → Prop} {P : α → Prop} {d₀ : δ} (hstart : I d₀) (hhash : ∀ b, I (H b))
    (hinj : ∀ d d' x x', I d → I d' → P x → P x' → block d x = block d' x' → d = d' ∧ x = x')
    {xs ys : List α} (hxs : ∀ x ∈ xs, P x) (hys : ∀ y ∈ ys, P y)
    (h : value H block d₀ xs = value H block d₀ ys) :
    xs = ys ∨ Collides H (hashed H block d₀ xs) (hashed H block d₀ ys) ∨
      Hits H d₀ (hashed H block d₀ xs ++ hashed H block d₀ ys) := by
  have hvalue : ∀ zs : List α, I (value H block d₀ zs) := by
    intro zs
    induction zs using List.reverseRecOn with
    | nil => exact hstart
    | append_singleton zs z _ => rw [value_concat]; exact hhash _
  -- peel both chains from the end
  induction xs using List.reverseRecOn generalizing ys with
  | nil =>
      cases ys using List.reverseRecOn with
      | nil => exact Or.inl rfl
      | append_singleton ys y =>
          refine Or.inr (Or.inr ((hits_of_value_concat h.symm).mono ?_))
          exact fun a ha => List.mem_append_right _ ha
  | append_singleton xs x ih =>
      cases ys using List.reverseRecOn with
      | nil =>
          refine Or.inr (Or.inr ((hits_of_value_concat h).mono ?_))
          exact fun a ha => List.mem_append_left _ ha
      | append_singleton ys y =>
          have hx : P x := hxs x (by simp)
          have hy : P y := hys y (by simp)
          by_cases hblock : block (value H block d₀ xs) x = block (value H block d₀ ys) y
          · obtain ⟨hv, rfl⟩ := hinj _ _ _ _ (hvalue xs) (hvalue ys) hx hy hblock
            rcases ih (fun z hz => hxs z (by simp [hz])) (fun z hz => hys z (by simp [hz])) hv
              with rfl | hc | hz
            · exact Or.inl rfl
            · refine Or.inr (Or.inl (hc.mono ?_ ?_)) <;>
              · rw [hashed_concat]
                exact fun a ha => List.mem_append_left _ ha
            · refine Or.inr (Or.inr (hz.mono ?_))
              intro a ha
              simp only [hashed_concat, List.mem_append] at ha ⊢
              exact ha.imp Or.inl Or.inl
          · refine Or.inr (Or.inl ⟨_, ?_, _, ?_, hblock, ?_⟩)
            · rw [hashed_concat]; simp
            · rw [hashed_concat]; simp
            · simpa only [value_concat] using h

end HashChain
