import MeasuredBoot.Common.EvlogAdd
import MeasuredBoot.Common.PcrNums
import MeasuredBoot.Lib.Simulation
import MeasuredBoot.SrtmPcrs.Replay

/-! # The program calculate-srtm-pcrs

`main` behind its option loop. The array of values is not initialised, so a run starts
from whatever the stack holds. A number is accepted up to 23, but there are calculators
only for the registers 0 to 9: the summary and the aggregate of another one are made of
the bytes that were on the stack.
-/

namespace MeasuredBoot.SrtmPcrs

open Binary Imperative Imperative.Proc

/-! ## Options -/

inductive Format where
  | json
  | text
  deriving DecidableEq

/-- The locals of `main` that the option loop fills. -/
structure Options where
  format : Format
  printEventLog : Bool
  printSummary : Bool
  printAggregate : Bool
  pcrNums : List UInt32
  ovmf : Option File
  dumpPeiPath : Option DumpFile
  dumpDxePath : Option DumpFile
  compactAllocated : Bool
  pcr1 : Pcr1Args
  uefiDrivers : List File
  pcr4 : Pcr4Args
  pcr5 : Pcr5Args
  pcr7 : Pcr7Args
  pcr8 : Pcr8Args
  pcr9 : Pcr9Args

/-- The calls in `main`, in order. `calculate_pcr0` is not reached without a firmware. -/
def Options.calls (opts : Options) : List PcrCall :=
  (opts.ovmf.toList.map fun ovmf =>
      .pcr0 ⟨ovmf, opts.dumpPeiPath, opts.dumpDxePath, opts.compactAllocated⟩) ++
    [.pcr1 opts.pcr1, .pcr2 opts.uefiDrivers, .pcr3, .pcr4 opts.pcr4, .pcr5 opts.pcr5, .pcr6,
      .pcr7 opts.pcr7, .pcr8 opts.pcr8, .pcr9 opts.pcr9]

def maxPcrs : Nat := 24

/-- What `main` works on: the array `pcr`, the records passed to `evlog_add`, the texts
these left in `evlog.log` and what it printed besides messages; `calculated` records the
registers a calculator returned 0 for, with the value it left there. -/
structure MainRun where
  pcr : Nat → Digest 32
  evlog : List (LogEntry 32)
  log : Nat → Option Bytes
  out : Bytes
  calculated : List (Nat × Digest 32)

namespace MainRun

/-- The array holds what is on the stack. -/
def start (stack : Nat → Digest 32) : MainRun := ⟨stack, [], fun _ => none, [], []⟩

def print (text : Bytes) (s : MainRun) : MainRun := { s with out := s.out ++ text }

/-- A calculator gets the array element. -/
def measurement (index : Nat) (s : MainRun) : Measurement 32 := ⟨s.pcr index, []⟩

/-- What a calculator leaves in the array element, and what its records made of the log. -/
def setMeasurement (index : Nat) (m : Measurement 32) (log : Nat → Option Bytes) (s : MainRun) :
    MainRun :=
  { s with
    pcr := Function.update s.pcr index m.mr
    evlog := s.evlog ++ m.evlog
    log := log }

def setCalculated (index : Nat) (s : MainRun) : MainRun :=
  { s with calculated := s.calculated ++ [(index, s.pcr index)] }

end MainRun

/-! ## Checks -/

/-- The checks behind the option loop. -/
def checkOptions (opts : Options) : Proc MainRun Unit := do
  forEach (fun num => exitIf (maxPcrs ≤ num.toNat) (-1)) opts.pcrNums
  exitIf (opts.pcr4.kernelFile = none ∧ opts.pcr4.bootloaderFiles = none ∧
    contains opts.pcrNums 4) (-1)
  exitIf (opts.ovmf = none ∧ contains opts.pcrNums 0) (-1)
  exitIf (opts.pcr9.cmdline = none ∧ contains opts.pcrNums 9) (-1)

/-! ## Records -/

/-- The text `evlog_add` formats. -/
def formatRecord (e : LogEntry 32) : Format → Bytes
  | .json =>
      ascii "\x7b\n\t\"type\":\"TPM Reference Value\",\n\t\"subtype\":\"" ++ e.name ++
        ascii "\",\n\t\"index\":" ++ decText e.index ++ ascii ",\n\t\"sha256\":\"" ++
        hexText e.hash.val ++ ascii "\",\n\t\"description\":\"PCR" ++ decText e.index ++
        ascii ": " ++ e.desc ++ ascii "\"\n\x7d,\n"
  | .text =>
      ascii "name: " ++ e.name ++ ascii "\n\tpcr: " ++ decText e.index ++ ascii "\n\tsha256: " ++
        hexText e.hash.val ++ ascii "\n\tdescription: " ++ e.desc ++ ascii "\n"

/-- What fits the buffer of 4096 bytes. -/
def recordText (format : Format) (e : LogEntry 32) : Bytes := (formatRecord e format).take 4095

/-- `evlog_add` of calculate-srtm-pcrs. `encode_hex` writes through what `calloc` returned,
and an index behind the array is not checked. -/
def srtmEvlogAdd (format : Format) (alloc : Allocations) (log : Nat → Option Bytes)
    (e : LogEntry 32) : Except Stop (Int × (Nat → Option Bytes)) :=
  if !alloc.hex then .error .fault
  else if maxPcrs ≤ e.index then .error .fault
  else .ok (appendText 4096 (formatRecord e format) alloc log e.index)

theorem formatRecord_ne_nil (format : Format) (e : LogEntry 32) : formatRecord e format ≠ [] := by
  cases format <;> simp [formatRecord, ascii]

theorem srtmEvlogAdd_appends (format : Format) {e : LogEntry 32} (h : e.index < maxPcrs) :
    Appends (srtmEvlogAdd format) LogEntry.index (recordText format) e where
  nonempty := by
    have hpos := List.length_pos_iff.mpr (formatRecord_ne_nil format e)
    apply List.ne_nil_of_length_pos
    rw [recordText, List.length_take]
    omega
  faults alloc log hhex := by
    rw [srtmEvlogAdd, hhex]
    rfl
  appends alloc log hhex := by
    obtain ⟨ret, -, happend⟩ := appendText_eq (by decide : 4096 ≤ 2 ^ 31)
      (formatRecord_ne_nil format e) alloc log e.index
    rw [srtmEvlogAdd, hhex, Bool.not_true, if_neg Bool.false_ne_true, if_neg (Nat.not_le_of_lt h),
      happend]
    cases alloc.log with
    | true => exact ⟨ret, rfl⟩
    | false => exact ⟨-1, rfl⟩

/-! ## Calculators -/

/-- One of the ten guarded calls. The `k`-th call of `evlog_add` gets the memory `alloc k`. -/
def calculate (libs : PcrLibs) (env : PcrEnv) (alloc : Nat → Allocations) (opts : Options)
    (c : PcrCall) : Proc MainRun Unit :=
  when (contains opts.pcrNums (UInt32.ofNat c.index)) do
    let s ← getState
    let result ← inner (c.body libs env) (s.measurement c.index)
    let log ← lift (addRecords (srtmEvlogAdd opts.format) alloc s.evlog.length result.2.evlog s.log)
    update (MainRun.setMeasurement c.index result.2 log)
    exitIf (result.1 ≠ 0) (-1)
    update (MainRun.setCalculated c.index)

/-! ## Event log -/

/-- In JSON the comma behind the last record becomes the closing bracket. -/
def closeText (format : Format) (last : Bool) (text : Bytes) : Except Stop Bytes :=
  if format = .json ∧ last then
    if text.length < 2 then .error .fault
    else .ok (text.take (text.length - 2) ++ ascii "]")
  else .ok text

/-- One round of the loop over the numbers, with the numbers still to come. -/
def printLogs (format : Format) : List UInt32 → Proc MainRun Unit
  | [] => return ()
  | num :: rest => do
      let s ← getState
      match s.log num.toNat with
      | none => exit (-1)
      | some text => do
          let closed ← lift (closeText format rest.isEmpty text)
          update (MainRun.print closed)
          printLogs format rest

/-- The block under `if (print_event_log)`. -/
def printEventLog (opts : Options) : Proc MainRun Unit := do
  when (opts.format = .json) (update (MainRun.print (ascii "[")))
  printLogs opts.format opts.pcrNums
  update (MainRun.print (ascii "\n"))

/-! ## Values -/

/-- The text of the summary. -/
def summaryText (format : Format) (value : Nat → Digest 32) (nums : List UInt32) : Bytes :=
  match format with
  | .json =>
      ascii "[" ++ (ascii ",\n").intercalate
        (nums.map fun num => jsonSummary (ascii "index") num (value num.toNat)) ++ ascii "]\n"
  | .text => nums.flatMap fun num => textSummary num (value num.toNat)

/-- The text of the aggregate, one digest over the values in order. -/
def aggregateText (sha256 : Md 32) (format : Format) (value : Nat → Digest 32)
    (nums : List UInt32) : Bytes :=
  let aggregate := sha256 (nums.flatMap fun num => (value num.toNat).val)
  match format with
  | .json => jsonAggregate aggregate
  | .text => textAggregate aggregate

/-- The blocks under `if (print_summary)` and `if (print_aggregate)`. -/
def printValues (libs : PcrLibs) (opts : Options) : Proc MainRun Unit := do
  when (opts.printSummary) (update fun s =>
    s.print (summaryText opts.format s.pcr opts.pcrNums))
  when (opts.printAggregate) (update fun s =>
    s.print (aggregateText libs.sha256 opts.format s.pcr opts.pcrNums))

/-! ## The program -/

/-- `main` up to the summary. -/
def beforeValues (libs : PcrLibs) (env : PcrEnv) (alloc : Nat → Allocations) (opts : Options) :
    Proc MainRun Unit := do
  checkOptions opts
  forEach (calculate libs env alloc opts) opts.calls
  when (opts.printEventLog) (printEventLog opts)

/-- `main` of calculate-srtm-pcrs. -/
def main (libs : PcrLibs) (env : PcrEnv) (alloc : Nat → Allocations) (opts : Options) :
    Proc MainRun Int := do
  beforeValues libs env alloc opts
  printValues libs opts
  return 0

/-! ## Sound output -/

section Output

variable {libs : PcrLibs} {env : PcrEnv} {alloc : Nat → Allocations} {opts : Options}

theorem pcrCall_index_lt (c : PcrCall) : c.index < 10 := by
  cases c <;> simp only [PcrCall.index] <;> omega

/-- A firmware for PCR 0 is there behind the checks. -/
theorem checkOptions_spec (s : MainRun) :
    wlp (checkOptions opts) (fun _ t => t = s ∧ (0 ∈ opts.pcrNums → opts.ovmf ≠ none))
      (fun _ _ => True) s := by
  apply wlp_bind
  apply wlp_mono (wlp_forEach (I := fun t => t = s) (E := fun _ _ => True) _ rfl) _ fun _ _ h => h
  · intro num _ t ht
    exact wlp_exitIf (fun _ => trivial) fun _ => ht
  · rintro _ t rfl
    refine wlp_bind (wlp_exitIf (fun _ => trivial) fun _ => ?_)
    refine wlp_bind (wlp_exitIf (fun _ => trivial) fun hovmf => ?_)
    refine wlp_exitIf (fun _ => trivial) fun _ => ⟨rfl, fun hmem hnone => ?_⟩
    exact hovmf ⟨hnone, contains_iff.mpr hmem⟩

/-- There is a call for each of the registers 0 to 9, where a firmware is given. -/
theorem calls_index {i : Nat} (hi : i < 10) (hovmf : i = 0 → opts.ovmf ≠ none) :
    ∃ c ∈ opts.calls, c.index = i := by
  by_cases hzero : i = 0
  · obtain ⟨ovmf, hsome⟩ := Option.ne_none_iff_exists'.mp (hovmf hzero)
    rw [Options.calls, hsome, hzero]
    exact ⟨_, List.mem_append_left _ List.mem_cons_self, rfl⟩
  · have hmem : i ∈ opts.calls.map PcrCall.index := by
      rw [Options.calls, List.map_append, List.mem_append]
      right
      show i ∈ [1, 2, 3, 4, 5, 6, 7, 8, 9]
      simp only [List.mem_cons, List.not_mem_nil, or_false]
      omega
    obtain ⟨c, hc, hindex⟩ := List.mem_map.mp hmem
    exact ⟨c, hc, hindex⟩

/-- Two runs that differ in elements not calculated yet. -/
structure SameButStack (s t : MainRun) : Prop where
  evlog : s.evlog = t.evlog
  log : s.log = t.log
  out : s.out = t.out
  calculated : s.calculated = t.calculated
  pcr : ∀ i, (i, s.pcr i) ∈ s.calculated → s.pcr i = t.pcr i

namespace SameButStack

variable {s t : MainRun}

theorem setMeasurement (h : SameButStack s t) (i : Nat) (m : Measurement 32)
    (log : Nat → Option Bytes) :
    SameButStack (s.setMeasurement i m log) (t.setMeasurement i m log) where
  evlog := congrArg (· ++ m.evlog) h.evlog
  log := rfl
  out := h.out
  calculated := h.calculated
  pcr := by
    intro j hj
    show Function.update s.pcr i m.mr j = Function.update t.pcr i m.mr j
    by_cases heq : j = i
    · rw [heq, Function.update_self, Function.update_self]
    · have hs : Function.update s.pcr i m.mr j = s.pcr j := Function.update_of_ne heq _ _
      have ht : Function.update t.pcr i m.mr j = t.pcr j := Function.update_of_ne heq _ _
      rw [hs, ht]
      exact h.pcr j (hs ▸ hj)

theorem setCalculated (h : SameButStack s t) {i : Nat} (hi : s.pcr i = t.pcr i) :
    SameButStack (s.setCalculated i) (t.setCalculated i) where
  evlog := h.evlog
  log := h.log
  out := h.out
  calculated := by
    show s.calculated ++ [(i, s.pcr i)] = t.calculated ++ [(i, t.pcr i)]
    rw [h.calculated, hi]
  pcr := by
    intro j hj
    rcases List.mem_append.mp hj with hold | hnew
    · exact h.pcr j hold
    · rw [List.mem_singleton, Prod.mk.injEq] at hnew
      rw [hnew.1]
      exact hi

theorem print (h : SameButStack s t) (text : Bytes) :
    SameButStack (s.print text) (t.print text) where
  evlog := h.evlog
  log := h.log
  out := congrArg (· ++ text) h.out
  calculated := h.calculated
  pcr := h.pcr

end SameButStack

section Values

variable {value value' : Nat → Digest 32} {nums : List UInt32}

end Values

theorem printValues_eq (s : MainRun) : printValues libs opts s = .next () (s.print (
    (if opts.printSummary then summaryText opts.format s.pcr opts.pcrNums else []) ++
    if opts.printAggregate then aggregateText libs.sha256 opts.format s.pcr opts.pcrNums
    else [])) := by
  unfold printValues MainRun.print
  cases opts.printSummary <;> cases opts.printAggregate <;> simp [when]

end Output

/-- `--pcrs 10 --summary`. -/
def tenOnly : Options where
  format := .text
  printEventLog := false
  printSummary := true
  printAggregate := false
  pcrNums := [10]
  ovmf := none
  dumpPeiPath := none
  dumpDxePath := none
  compactAllocated := true
  pcr1 := ⟨⟨none, none, none, none⟩, ⟨[0], none, true⟩⟩
  uefiDrivers := []
  pcr4 := ⟨none, none, none⟩
  pcr5 := ⟨none, true⟩
  pcr7 := ⟨none, true, ⟨⟨none, true⟩, ⟨none, true⟩, ⟨none, true⟩, ⟨none, true⟩, ⟨none, true⟩⟩⟩
  pcr8 := ⟨none, []⟩
  pcr9 := ⟨none, 1, none, none, true, true, true⟩

end MeasuredBoot.SrtmPcrs
