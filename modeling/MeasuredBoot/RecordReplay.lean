import Mathlib.Data.List.Nodup
import MeasuredBoot.EventRecords

/-! # Replaying printed records

Whoever reads a JSON event log back and extends the digests of its records, register by
register.
-/

namespace MeasuredBoot.EventRecords

open Binary

variable {n : Nat}

/-- The records of a printed event log. -/
def readEventLog (shape : Shape) (text : Bytes) : Option (List Record) :=
  match Json.parse text with
  | some (.array values) => values.mapM (decodeRecord shape)
  | _ => none

def recordDigest (n : Nat) (r : Record) : Option (Digest n) :=
  if h : r.digest.length = n then some ⟨r.digest, h⟩ else none

/-- The digests of the records for a register, in order. -/
def digestsOfRecords (n index : Nat) (records : List Record) : List (Digest n) :=
  (records.filter fun r => r.index = (index : Int)).filterMap (recordDigest n)

def entryRecord (e : LogEntry n) : Record := ⟨e.name, e.index, e.hash.val, e.desc, none⟩

/-- The strings of an entry need no escapes and are UTF-8. -/
structure PlainStrings (e : LogEntry n) : Prop where
  name : Json.Plain e.name
  desc : Json.Plain e.desc

theorem mapM_decodeRecord (shape : Shape) {entries : List (LogEntry n)}
    (h : ∀ e ∈ entries, PlainStrings e) :
    (entries.map fun e => recordValue shape (entryRecord e)).mapM (decodeRecord shape) =
      some (entries.map entryRecord) := by
  induction entries with
  | nil => rfl
  | cons e entries ih =>
      obtain ⟨he, hentries⟩ := List.forall_mem_cons.mp h
      rw [List.map_cons, List.mapM_cons, ih hentries,
        @decodeRecord_recordValue shape (entryRecord e) he.name.unescaped he.desc.unescaped]
      rfl

theorem digestsOfRecords_entries (index : Nat) (entries : List (LogEntry n)) :
    digestsOfRecords n index (entries.map entryRecord) = digestsOf index entries := by
  have hdigest : recordDigest n ∘ entryRecord = some ∘ LogEntry.hash :=
    funext fun e => dif_pos e.hash.property
  have hindex : ∀ e : LogEntry n,
      decide ((entryRecord e).index = (index : Int)) = decide (e.index = index) := by
    intro e
    exact decide_eq_decide.mpr Int.natCast_inj
  have hfilter : (entries.map entryRecord).filter (fun r => r.index = (index : Int)) =
      (entries.filter (·.index = index)).map entryRecord := by
    rw [List.filter_map]
    congr 2
    funext e
    exact hindex e
  rw [digestsOfRecords, hfilter, List.filterMap_map, hdigest, List.filterMap_eq_map]
  rfl

/-- Among the records of registers that are asked for once are all of one's own. -/
theorem digestsOf_flatMap {evlog : List (LogEntry n)} {nums : List Nat} (hnodup : nums.Nodup)
    {index : Nat} (hindex : index ∈ nums) :
    digestsOf index (nums.flatMap fun num => evlog.filter (·.index = num)) =
      digestsOf index evlog := by
  have hown : ∀ num, (evlog.filter (·.index = num)).filter (·.index = index) =
      if num = index then evlog.filter (·.index = index) else [] := by
    intro num
    rw [List.filter_filter]
    split_ifs with hnum
    · subst hnum
      refine List.filter_congr fun e _ => ?_
      rw [Bool.and_self]
    · refine List.filter_eq_nil_iff.mpr fun e _ h => hnum ?_
      obtain ⟨hindex, hnum⟩ := Bool.and_eq_true_iff.mp h
      exact (of_decide_eq_true hnum).symm.trans (of_decide_eq_true hindex)
  unfold digestsOf
  rw [List.filter_flatMap, List.flatMap_congr fun num _ => hown num]
  clear hown
  congr 1
  induction nums with
  | nil => cases hindex
  | cons num nums ih =>
      obtain ⟨hfirst, hrest⟩ := List.nodup_cons.mp hnodup
      rw [List.flatMap_cons]
      rcases List.mem_cons.mp hindex with rfl | hindex
      · have hothers : (nums.flatMap fun k =>
            if k = index then evlog.filter (·.index = index) else []) = [] := by
          rw [List.flatMap_eq_nil_iff]
          intro k hk
          have hne : k ≠ index := by
            rintro rfl
            exact hfirst hk
          exact if_neg hne
        rw [if_pos rfl, hothers, List.append_nil]
      · have hne : num ≠ index := by
          rintro rfl
          exact hfirst hindex
        rw [if_neg hne, ih hrest hindex, List.nil_append]

theorem nodup_toNat {nums : List UInt32} (h : nums.Nodup) : (nums.map UInt32.toNat).Nodup :=
  h.map fun _ _ heq => UInt32.toNat_inj.mp heq

end MeasuredBoot.EventRecords
