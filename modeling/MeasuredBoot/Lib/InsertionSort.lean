import Mathlib.Data.List.Induction
import Mathlib.Data.List.Sort

/-! # Insertion sort in a table

The array form of insertion sort: the entries of a table behind the place of a new
element move up by one until it fits. The filled part of the table is at any time the
stably sorted list of the elements that were inserted.
-/

namespace InsertionSort

variable {α κ : Type} [LinearOrder κ] (key : α → κ)

/-- The inner loop, at position `pos` of the table, which is free. -/
def shift (x : α) : Nat → List α → List α
  | 0, table => table.set 0 x
  | pos + 1, table =>
      match table[pos]? with
      | none => table.set (pos + 1) x
      | some t =>
          if key x < key t then shift x pos (table.set (pos + 1) t) else table.set (pos + 1) x

/-- The outer loop: the elements from the one at `index` on are inserted. -/
def insertAll : List α → Nat → List α → List α
  | [], _, table => table
  | x :: xs, index, table => insertAll xs (index + 1) (shift key x index table)

/-- Sorted by the key, equal keys next to each other in any order. -/
def Ascending (xs : List α) : Prop := xs.Pairwise fun a b => key a ≤ key b

/-! ## One element -/

/-- An element in front of the last one. -/
theorem orderedInsert_concat_of_lt {x b : α} (xs : List α) (h : key x < key b) :
    (xs ++ [b]).orderedInsert (fun a b => key a < key b) x =
      xs.orderedInsert (fun a b => key a < key b) x ++ [b] := by
  induction xs with
  | nil => simp [h]
  | cons a xs ih =>
      simp only [List.cons_append, List.orderedInsert_cons, ih]
      split <;> rfl

/-- An element behind all others. -/
theorem orderedInsert_of_all_le {x : α} {xs : List α} (h : ∀ a ∈ xs, key a ≤ key x) :
    xs.orderedInsert (fun a b => key a < key b) x = xs ++ [x] := by
  induction xs with
  | nil => rfl
  | cons a xs ih =>
      have ha : ¬key x < key a := not_lt.mpr (h a List.mem_cons_self)
      rw [List.orderedInsert_cons, if_neg ha, ih fun b hb => h b (List.mem_cons_of_mem a hb)]
      rfl

/-- The inner loop closes the gap behind a sorted part. -/
theorem shift_eq (x free : α) {xs : List α} (rest : List α) (h : Ascending key xs) :
    shift key x xs.length (xs ++ free :: rest) =
      xs.orderedInsert (fun a b => key a < key b) x ++ rest := by
  induction xs using List.reverseRecOn generalizing free rest with
  | nil => rfl
  | append_singleton xs b ih =>
      obtain ⟨hxs, -, hle⟩ := List.pairwise_append.mp h
      have hlast : (xs ++ [b] ++ free :: rest)[xs.length]? = some b := by simp
      rw [List.length_append, List.length_singleton, shift, hlast]
      dsimp only
      by_cases hlt : key x < key b
      · have hset : (xs ++ [b] ++ free :: rest).set (xs.length + 1) b = xs ++ b :: b :: rest := by
          simp
        rw [if_pos hlt, hset, ih b (b :: rest) hxs, orderedInsert_concat_of_lt key xs hlt]
        simp
      · have hset : (xs ++ [b] ++ free :: rest).set (xs.length + 1) x = xs ++ [b] ++ x :: rest := by
          simp
        have hall : ∀ a ∈ xs ++ [b], key a ≤ key x := by
          intro a ha
          rcases List.mem_append.mp ha with ha | ha
          · exact (hle a ha b (List.mem_singleton_self b)).trans (not_lt.mp hlt)
          · rw [List.mem_singleton.mp ha]
            exact not_lt.mp hlt
        rw [if_neg hlt, hset, orderedInsert_of_all_le key hall]
        simp

/-! ## All elements -/

/-- Inserting in front of the first larger key commutes with inserting in front of the
first key that is not smaller. -/
theorem orderedInsert_comm (a x : α) (xs : List α) :
    (xs.orderedInsert (fun a b => key a ≤ key b) a).orderedInsert
        (fun a b => key a < key b) x =
      (xs.orderedInsert (fun a b => key a < key b) x).orderedInsert
        (fun a b => key a ≤ key b) a := by
  induction xs with
  | nil =>
      by_cases h : key a ≤ key x
      · simp [h, not_lt.mpr h]
      · simp [h, not_le.mp h]
  | cons b xs ih =>
      by_cases hab : key a ≤ key b
      · by_cases hxb : key x < key b
        · by_cases hax : key a ≤ key x
          · simp [hab, hxb, hax, not_lt.mpr hax]
          · simp [hab, hxb, hax, not_le.mp hax]
        · have hax : key a ≤ key x := hab.trans (not_lt.mp hxb)
          simp [hab, hxb, not_lt.mpr hax]
      · by_cases hxb : key x < key b
        · have hxa : ¬key a ≤ key x := fun h => hab (h.trans hxb.le)
          simp [hab, hxb, hxa]
        · simp [hab, hxb, ih]

theorem insertionSort_concat (xs : List α) (x : α) :
    (xs ++ [x]).insertionSort (fun a b => key a ≤ key b) =
      (xs.insertionSort fun a b => key a ≤ key b).orderedInsert
        (fun a b => key a < key b) x := by
  induction xs with
  | nil => rfl
  | cons a xs ih =>
      rw [List.cons_append, List.insertionSort_cons, ih, List.insertionSort_cons,
        orderedInsert_comm]

/-- The keys of a stably sorted list ascend. -/
theorem ascending_insertionSort (xs : List α) :
    Ascending key (xs.insertionSort fun a b => key a ≤ key b) := by
  have total : Std.Total (fun a b : α => key a ≤ key b) := ⟨fun a b => le_total _ _⟩
  have trans : IsTrans α (fun a b : α => key a ≤ key b) := ⟨fun _ _ _ h h' => h.trans h'⟩
  exact List.pairwise_insertionSort _ xs

/-- What is inserted behind a sorted part of the table is sorted into it. -/
theorem insertAll_eq {xs : List α} (done : List α) {free : List α} (rest : List α)
    (hfree : free.length = xs.length) :
    insertAll key xs done.length
        ((done.insertionSort fun a b => key a ≤ key b) ++ free ++ rest) =
      ((done ++ xs).insertionSort fun a b => key a ≤ key b) ++ rest := by
  induction xs generalizing done free with
  | nil => simp [insertAll, List.length_eq_zero_iff.mp hfree]
  | cons x xs ih =>
      obtain ⟨gap, free, rfl⟩ := List.exists_cons_of_length_eq_add_one hfree
      have hshift := shift_eq key x gap (free ++ rest)
        (ascending_insertionSort key done)
      rw [List.length_insertionSort] at hshift
      rw [insertAll, List.append_assoc, List.cons_append, hshift, ← insertionSort_concat]
      have hfreeNext : free.length = xs.length := by simpa using hfree
      have hnext := ih (done ++ [x]) hfreeNext
      simp only [List.length_append, List.length_singleton, List.append_assoc,
        List.singleton_append] at hnext ⊢
      exact hnext

/-- A table that is filled from the start ends up stably sorted. -/
theorem insertAll_nil {xs table : List α} (h : table.length = xs.length) :
    insertAll key xs 0 table = xs.insertionSort fun a b => key a ≤ key b := by
  simpa using insertAll_eq key [] [] h

end InsertionSort
