import MeasuredBoot.Common.Hash
import MeasuredBoot.Lib.Proc

/-! # Measurement registers with their event log

What every calculator works on: the register it outputs and the records passed
to `evlog_add`, in order. No calculator looks at what `evlog_add` returns or leaves of
the log, so the log itself is made of these records behind the calculator. `digestsOf`
reads back the digests logged for one register index. `Extends` is the contract of a
statement that goes on with the register extended by a list of digests, `InStep` the
invariant of a calculator whose register replays its log.
-/

namespace MeasuredBoot

open Binary Imperative Imperative.Proc

variable {n : Nat}

/-- The arguments of one call of `evlog_add`. -/
structure LogEntry (n : Nat) where
  index : Nat
  name : Bytes
  hash : Digest n
  desc : Bytes
  deriving DecidableEq

/-- The register being calculated and the calls of `evlog_add` so far. -/
structure Measurement (n : Nat) where
  mr : Digest n
  evlog : List (LogEntry n)

namespace Measurement

/-- `memset(mr, 0, ...)`. -/
def clear (s : Measurement n) : Measurement n := { s with mr := zeroDigest n }

/-- One more call of `evlog_add`. -/
def log (s : Measurement n) (index : Nat) (name : Bytes) (hash : Digest n) (desc : Bytes) :
    Measurement n :=
  { s with evlog := s.evlog ++ [⟨index, name, hash, desc⟩] }

/-- `hash_extend` of the register. -/
def extend (s : Measurement n) (md : Md n) (hash : Digest n) : Measurement n :=
  { s with mr := hashExtend md s.mr hash }

/-- The two calls for one event: its digest is logged and extended. -/
def measured (s : Measurement n) (md : Md n) (index : Nat) (name data desc : Bytes) :
    Measurement n := (s.log index name (hashBuf md data) desc).extend md (hashBuf md data)

@[simp] theorem clear_mr (s : Measurement n) : s.clear.mr = zeroDigest n := rfl
@[simp] theorem clear_evlog (s : Measurement n) : s.clear.evlog = s.evlog := rfl
@[simp] theorem log_mr (s : Measurement n) (i : Nat) (a : Bytes) (h : Digest n) (d : Bytes) :
    (s.log i a h d).mr = s.mr := rfl
@[simp] theorem log_evlog (s : Measurement n) (i : Nat) (a : Bytes) (h : Digest n) (d : Bytes) :
    (s.log i a h d).evlog = s.evlog ++ [⟨i, a, h, d⟩] := rfl
@[simp] theorem extend_mr (s : Measurement n) (md : Md n) (h : Digest n) :
    (s.extend md h).mr = hashExtend md s.mr h := rfl
@[simp] theorem extend_evlog (s : Measurement n) (md : Md n) (h : Digest n) :
    (s.extend md h).evlog = s.evlog := rfl

end Measurement

/-- The digests logged for a register index, in order. -/
def digestsOf (index : Nat) (evlog : List (LogEntry n)) : List (Digest n) :=
  (evlog.filter (·.index = index)).map (·.hash)

@[simp] theorem digestsOf_nil (index : Nat) : digestsOf index ([] : List (LogEntry n)) = [] := rfl

theorem digestsOf_append (index : Nat) (xs ys : List (LogEntry n)) :
    digestsOf index (xs ++ ys) = digestsOf index xs ++ digestsOf index ys := by
  simp [digestsOf]

@[simp] theorem digestsOf_concat_self (index : Nat) (xs : List (LogEntry n)) (a : Bytes)
    (h : Digest n) (d : Bytes) :
    digestsOf index (xs ++ [⟨index, a, h, d⟩]) = digestsOf index xs ++ [h] := by
  simp [digestsOf]

/-! ## Logging and extending -/

/-- A call of `evlog_add`, whose status is dropped. -/
def evlogAdd (index : Nat) (name : Bytes) (hash : Digest n) (desc : Bytes) :
    Proc (Measurement n) Unit := update fun s => s.log index name hash desc

def extendMr (md : Md n) (hash : Digest n) : Proc (Measurement n) Unit :=
  update fun s => s.extend md hash

/-- `m` goes on with the value `a` after extending the register by the digests. -/
def Extends {α : Type} (md : Md n) (m : Proc (Measurement n) α) (a : α)
    (digests : List (Digest n)) : Prop :=
  ∀ s, ∃ t, m s = .next a t ∧ t.mr = replayFrom md s.mr digests

namespace Extends

variable {md : Md n} {α β : Type}

theorem completes {m : Proc (Measurement n) α} {a : α} {xs : List (Digest n)}
    (h : Extends md m a xs) : Completes m a := by
  intro s
  obtain ⟨t, hm, -⟩ := h s
  exact ⟨t, hm⟩

theorem skip (a : α) : Extends md (pure a) a [] := fun s => ⟨s, rfl, rfl⟩

theorem evlogAdd (index : Nat) (name : Bytes) (hash : Digest n) (desc : Bytes) :
    Extends md (evlogAdd index name hash desc) () [] := fun _ => ⟨_, rfl, rfl⟩

theorem extendMr (hash : Digest n) : Extends md (extendMr md hash) () [hash] :=
  fun _ => ⟨_, rfl, rfl⟩

theorem bind {m : Proc (Measurement n) α} {f : α → Proc (Measurement n) β} {a : α} {b : β}
    {xs ys : List (Digest n)} (h : Extends md m a xs) (h' : Extends md (f a) b ys) :
    Extends md (m >>= f) b (xs ++ ys) := by
  intro s
  obtain ⟨t, hm, ht⟩ := h s
  obtain ⟨u, hf, hu⟩ := h' t
  refine ⟨u, ?_, ?_⟩
  · rw [bind_apply, hm]
    exact hf
  · rw [hu, ht, replayFrom_append]

/-- `bind` against a known list of digests. -/
theorem seq {m : Proc (Measurement n) α} {f : α → Proc (Measurement n) β} {a : α} {b : β}
    {xs ys zs : List (Digest n)} (h : Extends md m a xs) (h' : Extends md (f a) b ys)
    (hzs : zs = xs ++ ys) : Extends md (m >>= f) b zs := hzs ▸ h.bind h'

/-- A record is logged, its digest extended, and the body goes on. -/
theorem logged {index : Nat} {name : Bytes} {hash : Digest n} {desc : Bytes}
    {rest : Proc (Measurement n) α} {a : α} {xs : List (Digest n)} (h : Extends md rest a xs) :
    Extends md (do MeasuredBoot.evlogAdd index name hash desc; MeasuredBoot.extendMr md hash; rest)
      a (hash :: xs) :=
  (evlogAdd index name hash desc).bind ((extendMr hash).bind h)

theorem when {c : Prop} [Decidable c] {m : Proc (Measurement n) Unit} {xs : List (Digest n)}
    (h : c → Extends md m () xs) :
    Extends md (Proc.when c m) () (if c then xs else []) := by
  unfold Proc.when
  split
  · exact h ‹_›
  · exact skip ()

theorem forEach {γ : Type} {body : γ → Proc (Measurement n) Unit} {out : γ → Digest n}
    (xs : List γ) (h : ∀ x ∈ xs, Extends md (body x) () [out x]) :
    Extends md (Proc.forEach body xs) () (xs.map out) := by
  induction xs with
  | nil => exact skip ()
  | cons x xs ih =>
      have hx := h x List.mem_cons_self
      exact hx.bind (ih fun y hy => h y (List.mem_cons_of_mem x hy))

theorem call {m : Proc (Measurement n) Int} {r : Int} {xs : List (Digest n)}
    (h : Extends md m r xs) : Extends md (Proc.call m) r xs := by
  intro s
  obtain ⟨t, hm, ht⟩ := h s
  refine ⟨t, ?_, ht⟩
  unfold Proc.call
  rw [hm]

end Extends

/-! ## Register and log in step -/

/-- The register is the replay of the digests logged for its index, and the records
of the other registers are those of `before`. -/
structure InStep (md : Md n) (index : Nat) (before : List (LogEntry n)) (s : Measurement n) :
    Prop where
  replays : s.mr = replay md (digestsOf index s.evlog)
  others : s.evlog.filter (·.index ≠ index) = before.filter (·.index ≠ index)

namespace InStep

variable {md : Md n} {index : Nat} {before : List (LogEntry n)} {α : Type}

/-- A calculator starts by clearing its register, with nothing logged for it. -/
theorem clear {s : Measurement n} (h : digestsOf index s.evlog = []) :
    InStep md index s.evlog s.clear where
  replays := by
    rw [Measurement.clear_evlog, h]
    rfl
  others := rfl

theorem log_extend {s : Measurement n} (h : InStep md index before s) (name : Bytes)
    (hash : Digest n) (desc : Bytes) :
    InStep md index before ((s.log index name hash desc).extend md hash) where
  replays := by
    simp only [Measurement.extend_mr, Measurement.log_mr, Measurement.extend_evlog,
      Measurement.log_evlog, digestsOf_concat_self]
    rw [h.replays, replay_concat]
  others := by
    simp only [Measurement.extend_evlog, Measurement.log_evlog, List.filter_append]
    rw [h.others]
    simp

/-- The pair of calls the calculators are made of keeps register and log in step. -/
theorem logged {name : Bytes} {hash : Digest n} {desc : Bytes}
    {rest : Proc (Measurement n) α} (h : Preserves (InStep md index before) rest) :
    Preserves (InStep md index before)
      (do evlogAdd index name hash desc; extendMr md hash; rest) :=
  fun _ hs => h _ (hs.log_extend name hash desc)

/-- The pair at the end of a branch. -/
theorem record (name : Bytes) (hash : Digest n) (desc : Bytes) :
    Preserves (InStep md index before) (do evlogAdd index name hash desc; extendMr md hash) :=
  fun _ hs => hs.log_extend name hash desc

/-- A calculator whose body keeps the invariant returns in it. -/
theorem of_run {body : Proc (Measurement n) Int} {s s' : Measurement n} {ret : Int}
    (h : ∀ before, Preserves (InStep md index before) body)
    (hempty : digestsOf index s.evlog = [])
    (hrun : run (do update Measurement.clear; body) s = .ok (ret, s')) :
    InStep md index s.evlog s' :=
  (h s.evlog).run (clear hempty) hrun

end InStep

end MeasuredBoot
