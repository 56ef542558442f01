import Mathlib.Data.List.Basic

/-! # Prefix codes

The concatenation of code words determines the words when no word continues
into another one. Words may have different lengths.
-/

namespace PrefixCode

variable {α β : Type} (word : α → List β)

/-- The concatenated words of a list of symbols. -/
def stream (symbols : List α) : List β := symbols.flatMap word

@[simp] theorem stream_nil : stream word [] = [] := rfl

@[simp] theorem stream_cons (a : α) (as : List α) :
    stream word (a :: as) = word a ++ stream word as := by
  simp [stream]

/-- The first word of a string is determined by the string, whatever follows it,
and no word is empty. -/
structure Decodable : Prop where
  first : ∀ a b rest rest', word a ++ rest = word b ++ rest' → a = b
  nonempty : ∀ a, word a ≠ []

variable {word}

theorem Decodable.stream_injective (h : Decodable word) {as bs : List α}
    (heq : stream word as = stream word bs) : as = bs := by
  induction as generalizing bs with
  | nil =>
      cases bs with
      | nil => rfl
      | cons b bs =>
          have hb := h.nonempty b
          simp_all
  | cons a as ih =>
      cases bs with
      | nil =>
          have ha := h.nonempty a
          simp_all
      | cons b bs =>
          rw [stream_cons, stream_cons] at heq
          obtain rfl := h.first a b _ _ heq
          rw [ih (List.append_cancel_left heq)]

end PrefixCode
