import Mathlib.Data.List.Induction
import Mathlib.Logic.Function.Basic
import MeasuredBoot.Lib.Bytes
import MeasuredBoot.Lib.Proc

/-! # What `evlog_add` leaves of a log

Each program formats a record into a buffer of fixed size and appends what fits to the
log of a register. The callers drop the status: where there is no memory for the longer
log they go on, and the log starts again behind what was lost.
-/

namespace MeasuredBoot

open Binary Imperative

/-- Whether `calloc` in `encode_hex` and `malloc` or `realloc` for the log get memory. -/
structure Allocations where
  hex : Bool
  log : Bool

/-! ## One call -/

section Append

variable {ι : Type} [DecidableEq ι]

/-- `evlog_add` from `snprintf` on. It returns what `snprintf` counted, also where the
buffer was too small, and loses the old log where there is no memory for the new one. -/
def appendText (size : Nat) (text : Bytes) (alloc : Allocations) (log : ι → Option Bytes)
    (index : ι) : Int × (ι → Option Bytes) :=
  let s := text.take (size - 1)
  let ret : Int := if text.length < 2 ^ 31 then text.length else -1
  if ret = 0 then (-1, log)
  else if alloc.log then (ret, Function.update log index (some ((log index).getD [] ++ s)))
  else (-1, Function.update log index none)

theorem appendText_eq {size : Nat} {text : Bytes} (hsize : size ≤ 2 ^ 31) (hne : text ≠ [])
    (alloc : Allocations) (log : ι → Option Bytes) (index : ι) :
    ∃ ret : Int, (text.length < size → 0 ≤ ret) ∧ appendText size text alloc log index =
      if alloc.log then
        (ret, Function.update log index (some ((log index).getD [] ++ text.take (size - 1))))
      else (-1, Function.update log index none) := by
  have hpos := List.length_pos_iff.mpr hne
  refine ⟨if text.length < 2 ^ 31 then text.length else -1, ?_, ?_⟩
  · intro hlt
    rw [if_pos (by omega)]
    exact Int.natCast_nonneg _
  · unfold appendText
    dsimp only
    rw [if_neg]
    split <;> omega

end Append

/-! ## All calls of a run -/

section Records

variable {ρ ι : Type} {add : Allocations → (ι → Option Bytes) → ρ →
  Except Stop (Int × (ι → Option Bytes))} {alloc : Nat → Allocations}

/-- The calls for some records, of which the first is the `k`-th of the run. -/
def addRecords (add : Allocations → (ι → Option Bytes) → ρ →
    Except Stop (Int × (ι → Option Bytes))) (alloc : Nat → Allocations) :
    Nat → List ρ → (ι → Option Bytes) → Except Stop (ι → Option Bytes)
  | _, [], log => .ok log
  | k, r :: rest, log =>
      match add (alloc k) log r with
      | .error stop => .error stop
      | .ok (_, log) => addRecords add alloc (k + 1) rest log

theorem addRecords_append (k : Nat) (xs ys : List ρ) (log : ι → Option Bytes) :
    addRecords add alloc k (xs ++ ys) log =
      (addRecords add alloc k xs log).bind (addRecords add alloc (k + xs.length) ys) := by
  induction xs generalizing k log with
  | nil => rfl
  | cons r xs ih =>
      rw [List.cons_append, addRecords, addRecords]
      cases add (alloc k) log r with
      | error stop => rfl
      | ok result =>
          have hcalls : k + (r :: xs).length = k + 1 + xs.length := by
            rw [List.length_cons]
            omega
          rw [hcalls]
          exact ih (k + 1) result.2

variable [DecidableEq ι]

/-- What a call does with a record: it faults without the memory for the digest, and
appends the text or loses the log. -/
structure Appends (add : Allocations → (ι → Option Bytes) → ρ →
    Except Stop (Int × (ι → Option Bytes))) (index : ρ → ι) (text : ρ → Bytes) (r : ρ) :
    Prop where
  nonempty : text r ≠ []
  faults : ∀ alloc log, alloc.hex = false → add alloc log r = .error .fault
  appends : ∀ alloc log, alloc.hex = true → ∃ ret, add alloc log r = .ok (ret,
    Function.update log (index r)
      (if alloc.log then some ((log (index r)).getD [] ++ text r) else none))

/-- The text of every record at the end of its log. -/
def appendedLogs (index : ρ → ι) (text : ρ → Bytes) (log : ι → Option Bytes) (rs : List ρ) :
    ι → Option Bytes :=
  rs.foldl (fun log r =>
    Function.update log (index r) (some ((log (index r)).getD [] ++ text r))) log

variable {index : ρ → ι} {text : ρ → Bytes}

theorem appendedLogs_apply (log : ι → Option Bytes) (rs : List ρ) (i : ι) :
    appendedLogs index text log rs i =
      if rs.filter (index · = i) = [] then log i
      else some ((log i).getD [] ++ (rs.filter (index · = i)).flatMap text) := by
  induction rs using List.reverseRecOn with
  | nil => rfl
  | append_singleton rs r ih =>
      unfold appendedLogs at ih ⊢
      rw [List.foldl_concat, List.filter_append]
      by_cases h : index r = i
      · subst h
        rw [Function.update_self, ih]
        have hself : [r].filter (index · = index r) = [r] := by simp
        rw [hself, if_neg (List.append_ne_nil_of_right_ne_nil _ (List.cons_ne_nil r []))]
        split_ifs with hnil
        · rw [hnil, List.nil_append, List.flatMap_singleton]
        · rw [Option.getD_some, List.flatMap_append, List.flatMap_singleton, List.append_assoc]
      · rw [Function.update_of_ne (Ne.symm h), ih]
        simp [h]

/-- Where the memory is there, every record is appended. -/
theorem addRecords_eq {k : Nat} {rs : List ρ} (hrs : ∀ r ∈ rs, Appends add index text r)
    (h : ∀ j < rs.length, (alloc (k + j)).hex = true ∧ (alloc (k + j)).log = true)
    (log : ι → Option Bytes) :
    addRecords add alloc k rs log = .ok (appendedLogs index text log rs) := by
  induction rs generalizing k log with
  | nil => rfl
  | cons r rs ih =>
      obtain ⟨hr, hrest⟩ := List.forall_mem_cons.mp hrs
      obtain ⟨hhex, hlog⟩ := h 0 (Nat.succ_pos _)
      rw [Nat.add_zero] at hhex hlog
      obtain ⟨ret, hadd⟩ := hr.appends (alloc k) log hhex
      rw [hlog, if_pos rfl] at hadd
      have hmore : ∀ j < rs.length, (alloc (k + 1 + j)).hex = true ∧
          (alloc (k + 1 + j)).log = true := by
        intro j hj
        have hnext := h (j + 1) (Nat.succ_lt_succ hj)
        rwa [show k + (j + 1) = k + 1 + j by omega] at hnext
      rw [addRecords, hadd]
      exact ih hrest hmore _

/-- The calls come through where every digest gets its memory. -/
theorem addRecords_ok_iff {k : Nat} {rs : List ρ} (hrs : ∀ r ∈ rs, Appends add index text r)
    (log : ι → Option Bytes) : (∃ after, addRecords add alloc k rs log = .ok after) ↔
      ∀ j < rs.length, (alloc (k + j)).hex = true := by
  induction rs generalizing k log with
  | nil => exact iff_of_true ⟨log, rfl⟩ fun j hj => absurd hj (Nat.not_lt_zero j)
  | cons r rs ih =>
      obtain ⟨hr, hrest⟩ := List.forall_mem_cons.mp hrs
      rw [List.length_cons, Nat.forall_lt_succ_left]
      cases hhex : (alloc k).hex with
      | false =>
          rw [addRecords, hr.faults _ _ hhex]
          exact iff_of_false (fun ⟨_, h⟩ => by cases h) fun h => Bool.false_ne_true h.1
      | true =>
          obtain ⟨ret, hadd⟩ := hr.appends (alloc k) log hhex
          rw [addRecords, hadd]
          have hshift : (∀ j < rs.length, (alloc (k + (j + 1))).hex = true) ↔
              ∀ j < rs.length, (alloc (k + 1 + j)).hex = true := by
            refine forall₂_congr fun j _ => ?_
            rw [show k + (j + 1) = k + 1 + j by omega]
          rw [and_iff_right rfl, hshift]
          exact ih hrest _

section OneLog

variable {i : ι}

/-- A log does not grow by more than the texts, and by less where memory was missing. -/
theorem addRecords_length {k : Nat} {rs : List ρ} (hrs : ∀ r ∈ rs, Appends add index text r)
    (hindex : ∀ r ∈ rs, index r = i) {log after : ι → Option Bytes}
    (h : addRecords add alloc k rs log = .ok after) :
    ((after i).getD []).length ≤ ((log i).getD []).length + (rs.flatMap text).length ∧
      ((∃ j < rs.length, (alloc (k + j)).log = false) →
        ((after i).getD []).length < ((log i).getD []).length + (rs.flatMap text).length) := by
  induction rs generalizing k log with
  | nil =>
      cases h
      exact ⟨Nat.le_add_right _ _, fun ⟨j, hj, _⟩ => absurd hj (Nat.not_lt_zero j)⟩
  | cons r rs ih =>
      obtain ⟨hr, hrest⟩ := List.forall_mem_cons.mp hrs
      obtain ⟨hi, his⟩ := List.forall_mem_cons.mp hindex
      have hpos := List.length_pos_iff.mpr hr.nonempty
      cases hhex : (alloc k).hex with
      | false =>
          rw [addRecords, hr.faults _ _ hhex] at h
          cases h
      | true =>
          obtain ⟨ret, hadd⟩ := hr.appends (alloc k) log hhex
          rw [addRecords, hadd] at h
          obtain ⟨hle, hlt⟩ := ih hrest his h
          rw [hi, Function.update_self] at hle hlt
          rw [List.flatMap_cons, List.length_append]
          cases hlog : (alloc k).log with
          | false =>
              rw [hlog, if_neg Bool.false_ne_true, Option.getD_none, List.length_nil] at hle
              exact ⟨by omega, fun _ => by omega⟩
          | true =>
              rw [hlog, if_pos rfl, Option.getD_some, List.length_append] at hle hlt
              refine ⟨by omega, fun ⟨j, hj, hfailed⟩ => ?_⟩
              obtain _ | j := j
              · rw [Nat.add_zero, hlog] at hfailed
                cases hfailed
              · have hmore := hlt ⟨j, Nat.lt_of_succ_lt_succ hj,
                  by rwa [show k + 1 + j = k + (j + 1) by omega]⟩
                omega

/-- All texts are in the log exactly where the memory for it never was missing. -/
theorem addRecords_complete_iff {k : Nat} {rs : List ρ}
    (hrs : ∀ r ∈ rs, Appends add index text r) (hindex : ∀ r ∈ rs, index r = i)
    {log after : ι → Option Bytes} (h : addRecords add alloc k rs log = .ok after) :
    after = appendedLogs index text log rs ↔ ∀ j < rs.length, (alloc (k + j)).log = true := by
  have hhex := (addRecords_ok_iff hrs log).mp ⟨after, h⟩
  constructor
  · rintro rfl j hj
    by_contra hfailed
    have hlt := (addRecords_length hrs hindex h).2 ⟨j, hj, Bool.eq_false_of_not_eq_true hfailed⟩
    have hall : rs.filter (index · = i) = rs :=
      List.filter_eq_self.mpr fun r hr => decide_eq_true (hindex r hr)
    rw [appendedLogs_apply, hall] at hlt
    have hne : rs ≠ [] := List.ne_nil_of_length_pos (Nat.zero_lt_of_lt hj)
    rw [if_neg hne, Option.getD_some, List.length_append] at hlt
    exact Nat.lt_irrefl _ hlt
  · intro hlog
    have hrun := addRecords_eq hrs (fun j hj => ⟨hhex j hj, hlog j hj⟩) log
    rw [h] at hrun
    exact Except.ok.inj hrun

end OneLog

end Records

end MeasuredBoot
