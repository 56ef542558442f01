import Mathlib.Data.List.Nodup

/-! # Assignments to fields

Fields that are set one after the other. What a list of assignments leaves in a field is the
last value given to it, so two lists that give each field its values in the same order leave
the same.
-/

namespace Assignments

variable {κ α β σ : Type} [DecidableEq κ]

/-- The values given to a key, in order. -/
def valuesOf (key : κ) : List (κ × α) → List α
  | [] => []
  | (k, value) :: as => if k = key then value :: valuesOf key as else valuesOf key as

def lastValue (default : α) (key : κ) (as : List (κ × α)) : α :=
  (valuesOf key as).getLast?.getD default

/-- The lists give each key its values in the same order. -/
def SameOrder (as bs : List (κ × α)) : Prop := ∀ key, valuesOf key as = valuesOf key bs

theorem SameOrder.lastValue_eq {as bs : List (κ × α)} (h : SameOrder as bs) (default : α)
    (key : κ) : lastValue default key as = lastValue default key bs := by
  rw [lastValue, lastValue, h key]

/-- Assignments to distinct keys may stand in any order. -/
theorem sameOrder_of_perm {as bs : List (κ × α)} (h : as.Perm bs) :
    (as.map Prod.fst).Nodup → SameOrder as bs := by
  induction h with
  | nil =>
      intro _ key
      rfl
  | cons a _ ih =>
      intro hnodup key
      have hrest := ih (List.nodup_cons.mp hnodup).2 key
      simp only [valuesOf, hrest]
  | swap a b as =>
      intro hnodup key
      have hne : b.1 ≠ a.1 := by
        intro heq
        apply (List.nodup_cons.mp hnodup).1
        rw [heq]
        exact List.mem_cons_self
      by_cases ha : a.1 = key
      · have hb : b.1 ≠ key := fun hb => hne (hb.trans ha.symm)
        simp only [valuesOf, if_pos ha, if_neg hb]
      · simp only [valuesOf, if_neg ha]
  | trans hfirst _ ihfirst ihsecond =>
      intro hnodup key
      have hmiddle := (hfirst.map Prod.fst).nodup_iff.mp hnodup
      exact (ihfirst hnodup key).trans (ihsecond hmiddle key)

/-- Setting a field stores a form of the value there, and leaves the others. -/
structure FieldStore (κ α β σ : Type) where
  get : σ → κ → β
  set : σ → κ → α → σ
  stored : κ → α → β
  get_set_self : ∀ s key value, get (set s key value) key = stored key value
  get_set_of_ne : ∀ s key other value, other ≠ key → get (set s other value) key = get s key

namespace FieldStore

variable (fields : FieldStore κ α β σ)

def run (s : σ) (as : List (κ × α)) : σ := as.foldl (fun s a => fields.set s a.1 a.2) s

/-- A field is left with the last value, or as it was. -/
theorem get_run {s : σ} {default : α} {key : κ} (h : fields.get s key = fields.stored key default)
    (as : List (κ × α)) :
    fields.get (fields.run s as) key = fields.stored key (lastValue default key as) := by
  induction as generalizing s default with
  | nil => exact h
  | cons a as ih =>
      by_cases hkey : a.1 = key
      · have hset : fields.get (fields.set s a.1 a.2) key = fields.stored key a.2 := by
          rw [hkey]
          exact fields.get_set_self s key a.2
        have hlast : lastValue default key (a :: as) = lastValue a.2 key as := by
          simp only [lastValue, valuesOf, if_pos hkey, List.getLast?_cons, Option.getD_some]
        rw [hlast]
        exact ih hset
      · have hset := fields.get_set_of_ne s key a.1 a.2 hkey
        have hlast : lastValue default key (a :: as) = lastValue default key as := by
          simp only [lastValue, valuesOf, if_neg hkey]
        rw [hlast]
        exact ih (hset.trans h)

end FieldStore

end Assignments
