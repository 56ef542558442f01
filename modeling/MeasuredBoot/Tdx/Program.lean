import MeasuredBoot.Common.PcrNums
import MeasuredBoot.Common.Registers
import MeasuredBoot.Tdx.JsonLog

/-! # The program calculate-tdx-mrs

`main` behind its option loop. Of the registers that are made of the firmware, only the MRTD
is turned down without one: the check for RTMR0 asks for the MRTD a second time.
-/

namespace MeasuredBoot.Tdx

open Binary Imperative Imperative.Proc

/-! ## Options -/

/-- The locals of `main` that the option loop fills. -/
structure Options where
  format : Format
  printEventLog : Bool
  printSummary : Bool
  mrNums : List UInt32
  tdxModule : Option File
  ovmf : Option File
  qemuVersion : Bytes
  acpiFiles : AcpiFiles
  ovmfVersion : Bytes
  bootVars : BootVarArgs
  secureBoot : SecureBootArgs
  kernel : Option File
  configFile : Option File
  dumpKernelPath : Option DumpFile
  cmdline : Option File
  cmdlineTrailingZeros : UInt64
  cmdlineAllocated : Bool

namespace Options

variable (opts : Options)

def rtmr0Args : Rtmr0Args :=
  ⟨opts.ovmf, opts.acpiFiles, opts.ovmfVersion, opts.bootVars, opts.secureBoot⟩

def rtmr1Args (kernel : File) : Rtmr1Args :=
  ⟨kernel, opts.configFile, opts.dumpKernelPath, opts.ovmfVersion⟩

def rtmr2Args (cmdline : File) : Rtmr2Args :=
  ⟨cmdline, opts.cmdlineTrailingZeros, opts.cmdlineAllocated⟩

/-- `contains` for the register of an index. -/
def asks (index : Nat) : Bool := contains opts.mrNums (UInt32.ofNat index)

end Options

/-- A call of one of the six calculators. -/
inductive MrCall where
  | mrseam (tdxModule : File)
  | mrtd (ovmfFile : File) (qemuVersion : Bytes)
  | runtime (c : RuntimeCall)

/-- The digests and the images the calculators are given. -/
structure MrLibs where
  sha384 : Md 48
  measurePeImage : MeasurePeImage 48

/-- What the calculators find in memory. -/
structure MrEnv where
  ovmf : OvmfEnv
  hashMrtdStack : Digest 48
  runtime : RuntimeEnv

namespace MrCall

def index : MrCall → Nat
  | .mrseam _ => indexMrseam
  | .mrtd _ _ => indexMrtd
  | .runtime c => c.index

def body (libs : MrLibs) (env : MrEnv) : MrCall → Proc (Measurement 48) Int
  | .mrseam tdxModule => calculateMrseam libs.sha384 tdxModule
  | .mrtd ovmfFile qemuVersion =>
      calculateMrtd libs.sha384 env.ovmf env.hashMrtdStack ovmfFile qemuVersion
  | .runtime c => c.body libs.sha384 libs.measurePeImage env.runtime

end MrCall

/-- The calls in `main`, in order. One that needs a file is not reached without it. -/
def Options.calls (opts : Options) : List MrCall :=
  opts.tdxModule.toList.map .mrseam ++
    ((opts.ovmf.toList.map fun ovmf => .mrtd ovmf opts.qemuVersion) ++
      (.runtime (.rtmr0 opts.rtmr0Args) ::
        ((opts.kernel.toList.map fun kernel => .runtime (.rtmr1 (opts.rtmr1Args kernel))) ++
          ((opts.cmdline.toList.map fun cmdline => .runtime (.rtmr2 (opts.rtmr2Args cmdline))) ++
            [.runtime .rtmr3]))))

/-! ## `main` -/

/-- The array `mrs`, the records passed to `evlog_add`, the texts these left in
`evlog.log` and what was printed besides messages. -/
structure MainRun where
  mrs : Nat → Digest 48
  evlog : List (LogEntry 48)
  log : Logs
  out : Bytes

namespace MainRun

/-- The array holds what is on the stack. -/
def start (stack : Nat → Digest 48) : MainRun := ⟨stack, [], Logs.empty, []⟩

def print (text : Bytes) (s : MainRun) : MainRun := { s with out := s.out ++ text }

theorem print_nil (s : MainRun) : s.print [] = s := by
  unfold print
  rw [List.append_nil]

/-- A calculator gets the array element. -/
def measurement (index : Nat) (s : MainRun) : Measurement 48 := ⟨s.mrs index, []⟩

/-- What a calculator leaves in the array element, and what its records made of the log. -/
def setMeasurement (index : Nat) (m : Measurement 48) (log : Logs) (s : MainRun) : MainRun :=
  { s with
    mrs := Function.update s.mrs index m.mr
    evlog := s.evlog ++ m.evlog
    log := log }

end MainRun

/-- The checks behind the option loop. -/
def checkOptions (opts : Options) : Proc MainRun Unit := do
  exitIf (opts.kernel = none ∧ opts.asks indexRtmr1) (-1)
  exitIf (opts.ovmf = none ∧ (opts.asks indexMrtd ∨ opts.asks indexMrtd)) (-1)
  exitIf (opts.tdxModule = none ∧ opts.asks indexMrseam) (-1)
  exitIf (opts.cmdline = none ∧ opts.asks indexRtmr2) (-1)
  exitIf (opts.mrNums = []) (-1)
  forEach (fun num => exitIf (mrLen ≤ num.toNat) (-1)) opts.mrNums

/-- One of the six guarded calls. The `k`-th call of `evlog_add` gets the memory `alloc k`. -/
def calculate (libs : MrLibs) (env : MrEnv) (alloc : Nat → Allocations) (opts : Options)
    (c : MrCall) : Proc MainRun Unit :=
  when (opts.asks c.index) do
    let s ← getState
    let result ← inner (c.body libs env) (s.measurement c.index)
    let log ← lift (addRecords (tdxEvlogAdd opts.format) alloc s.evlog.length result.2.evlog s.log)
    update (MainRun.setMeasurement c.index result.2 log)
    exitIf (result.1 ≠ 0) (-1)

/-- The block under `if (print_event_log)`. -/
def printLogs (opts : Options) : Proc MainRun Unit := do
  let s ← getState
  let printed ← inner (printEventLog opts.format (opts.mrNums.map UInt32.toNat))
    ⟨s.log, []⟩
  update (MainRun.print printed.2.out)

/-- An `MR Summary` object. -/
def jsonSummary (num : UInt32) (value : Digest 48) : Bytes :=
  ascii "\x7b\n\t\"type\":\"TDX Reference Value\",\n\t\"subtype\":\"MR Summary\",\n\t\"index\":" ++
    printedNum num ++ ascii ",\n\t\"sha384\":\"" ++ hexText value.val ++
    ascii "\",\n\t\"description\":\"" ++ indexToMr num.toNat ++ ascii "\"\n\x7d"

def textSummary (num : UInt32) (value : Digest 48) : Bytes :=
  ascii "Name: " ++ indexToMr num.toNat ++ printData value.val

def summaryText (format : Format) (value : Nat → Digest 48) (nums : List UInt32) : Bytes :=
  match format with
  | .json =>
      ascii "[" ++ (ascii ",\n").intercalate
        (nums.map fun num => jsonSummary num (value num.toNat)) ++ ascii "]\n"
  | .text => nums.flatMap fun num => textSummary num (value num.toNat)

def main (libs : MrLibs) (env : MrEnv) (alloc : Nat → Allocations) (opts : Options) :
    Proc MainRun Int := do
  checkOptions opts
  forEach (calculate libs env alloc opts) opts.calls
  when opts.printEventLog (printLogs opts)
  when opts.printSummary (update fun s => s.print (summaryText opts.format s.mrs opts.mrNums))
  return 0

/-! ## One call -/

section Call

variable {libs : MrLibs} {env : MrEnv}

/-- A runtime register is the replay of its digests, a build-time register the only one
of them. -/
structure Calculated (md : Md 48) (index : Nat) (value : Digest 48) (digests : List (Digest 48)) :
    Prop where
  runtime : index ≠ indexMrtd → index ≠ indexMrseam → value = replay md digests
  buildTime : index = indexMrtd ∨ index = indexMrseam → digests = [value]

def calculatedOf (md : Md 48) : ValueSpec 48 :=
  fun index value evlog => Calculated md index value (digestsOf index evlog)

theorem calculatedOf_own (md : Md 48) : (calculatedOf md).Own := by
  intro i mr xs ys hdigests h
  unfold calculatedOf
  rw [hdigests]
  exact h

/-- What a call that returns 0 leaves. -/
structure Leaves (md : Md 48) (index : Nat) (s s' : Measurement 48) : Prop where
  others : s'.evlog.filter (·.index ≠ index) = s.evlog.filter (·.index ≠ index)
  calculated : Calculated md index s'.mr (digestsOf index s'.evlog)

theorem Leaves.of_inStep {md : Md 48} {c : RuntimeCall} {s s' : Measurement 48}
    (h : InStep md c.index s.evlog s') : Leaves md c.index s s' where
  others := h.others
  calculated := by
    refine ⟨fun _ _ => h.replays, fun hbuild => ?_⟩
    cases c <;> rcases hbuild with hindex | hindex <;> cases hindex

theorem runtimeCall_leaves {c : RuntimeCall} {s s' : Measurement 48} {ret : Int}
    (hempty : digestsOf c.index s.evlog = [])
    (hrun : run (c.body libs.sha384 libs.measurePeImage env.runtime) s = .ok (ret, s')) :
    Leaves libs.sha384 c.index s s' := by
  apply Leaves.of_inStep
  cases c with
  | rtmr0 args => exact calculateRtmr0_inStep hempty hrun
  | rtmr1 args => exact calculateRtmr1_inStep hempty hrun
  | rtmr2 args => exact calculateRtmr2_inStep hempty hrun
  | rtmr3 => exact calculateRtmr3_inStep hempty hrun

/-- The record of a build-time register, with the register set to its digest. -/
theorem Leaves.of_single {md : Md 48} {index : Nat} {s : Measurement 48}
    (hbuild : index = indexMrtd ∨ index = indexMrseam) (hempty : digestsOf index s.evlog = [])
    (name : Bytes) (hash : Digest 48) (desc : Bytes) :
    Leaves md index s (setMr hash (s.clear.log index name hash desc)) where
  others := (show SameOthers index s.evlog s.clear from rfl).log name hash desc
  calculated := by
    refine ⟨fun hmrtd hmrseam => absurd hbuild (not_or.mpr ⟨hmrtd, hmrseam⟩), fun _ => ?_⟩
    show digestsOf index (s.evlog ++ [⟨index, name, hash, desc⟩]) = [hash]
    rw [digestsOf_concat_self, hempty]
    rfl

theorem mrCall_leaves {c : MrCall} {s s' : Measurement 48}
    (hempty : digestsOf c.index s.evlog = []) (hrun : run (c.body libs env) s = .ok (0, s')) :
    Leaves libs.sha384 c.index s s' := by
  cases c with
  | mrseam tdxModule =>
      have hwlp : wlp (calculateMrseam libs.sha384 tdxModule)
          (fun _ => Leaves libs.sha384 indexMrseam s) (fun r _ => r ≠ 0) s := by
        refine wlp_bind (wlp_update ?_)
        cases hashFile libs.sha384 tdxModule with
        | none => exact wlp_exit (by decide)
        | some hash =>
            refine wlp_bind (wlp_update (wlp_bind (wlp_update (wlp_pure ?_))))
            exact .of_single (Or.inr rfl) hempty _ hash _
      exact run_zero_of_wlp hwlp hrun
  | mrtd ovmfFile qemuVersion =>
      have hwlp : wlp (calculateMrtd libs.sha384 env.ovmf env.hashMrtdStack ovmfFile qemuVersion)
          (fun _ => Leaves libs.sha384 indexMrtd s) (fun r _ => r ≠ 0) s := by
        refine wlp_bind (wlp_update ?_)
        cases readFile ovmfFile with
        | none => exact wlp_exit (by decide)
        | some ovmfBuf =>
            refine wlp_bind (wlp_lift fun measured _ => wlp_bind (wlp_exitIf (fun h => h) ?_))
            intro _
            refine wlp_bind (wlp_update (wlp_bind (wlp_update (wlp_pure ?_))))
            exact .of_single (Or.inl rfl) hempty _ _ _
      exact run_zero_of_wlp hwlp hrun
  | runtime c => exact runtimeCall_leaves hempty hrun

end Call

/-! ## All of them -/

/-- The texts are what all calls of `evlog_add` left. -/
def HoldsLog (format : Format) (alloc : Nat → Allocations) (s : MainRun) : Prop :=
  addRecords (tdxEvlogAdd format) alloc 0 s.evlog Logs.empty = .ok s.log

/-- Between two calls, with nothing printed yet. -/
structure Underway (md : Md 48) (alloc : Nat → Allocations) (opts : Options) (done : Nat → Prop)
    (s : MainRun) : Prop where
  between : Between (calculatedOf md) done s.mrs s.evlog
  log : HoldsLog opts.format alloc s
  quiet : s.out = []

section Calls

variable {libs : MrLibs} {env : MrEnv} {alloc : Nat → Allocations} {opts : Options}

/-- The register is asked for. -/
def Asked (opts : Options) (i : Nat) : Prop := opts.asks i = true

theorem asked_iff {i : Nat} : Asked opts i ↔ UInt32.ofNat i ∈ opts.mrNums := contains_iff

theorem calculate_underway {c : MrCall} {done : Nat → Prop} (hnew : ¬done c.index) {s : MainRun}
    (hs : Underway libs.sha384 alloc opts done s) :
    wlp (calculate libs env alloc opts c)
      (fun _ => Underway libs.sha384 alloc opts fun i => done i ∨ i = c.index ∧ Asked opts i)
      (fun r _ => r ≠ 0) s := by
  apply wlp_when
  · intro hasked
    refine wlp_bind (wlp_getState (wlp_bind (wlp_lift fun result hresult => ?_)))
    refine wlp_bind (wlp_lift fun log hlog => wlp_bind (wlp_update ?_))
    refine wlp_exitIf (fun _ => by decide) fun hzero => ?_
    obtain ⟨ret, m⟩ := result
    obtain rfl : ret = 0 := not_not.mp hzero
    have hleaves := mrCall_leaves rfl hresult
    have hcollected : HoldsLog opts.format alloc (s.setMeasurement c.index m log) := by
      have hbefore := hs.log
      unfold HoldsLog at hbefore ⊢
      show addRecords _ alloc 0 (s.evlog ++ m.evlog) _ = .ok log
      rw [addRecords_append, hbefore, Nat.zero_add]
      exact hlog
    refine ⟨?_, hcollected, hs.quiet⟩
    rw [@done_of_asked done (Asked opts) c.index hasked]
    exact hs.between.next (calculatedOf_own _) hnew hleaves.others hleaves.calculated
  · intro hnot
    rw [@done_of_not_asked done (Asked opts) c.index hnot]
    exact hs

/-- What the options of a run that returns 0 pass. -/
structure OptionsPass (opts : Options) : Prop where
  kernel : Asked opts indexRtmr1 → opts.kernel ≠ none
  ovmf : Asked opts indexMrtd → opts.ovmf ≠ none
  tdxModule : Asked opts indexMrseam → opts.tdxModule ≠ none
  cmdline : Asked opts indexRtmr2 → opts.cmdline ≠ none
  nonempty : opts.mrNums ≠ []
  numbers : ∀ num ∈ opts.mrNums, num.toNat < mrLen

theorem checkNumbers_pass (nums : List UInt32) (s : MainRun) :
    wlp (forEach (fun num => exitIf (mrLen ≤ num.toNat) (-1)) nums)
      (fun _ t => t = s ∧ ∀ num ∈ nums, num.toNat < mrLen) (fun r _ => r ≠ 0) s := by
  induction nums with
  | nil => exact ⟨rfl, by simp⟩
  | cons num nums ih =>
      refine wlp_bind (wlp_exitIf (fun _ => by decide) fun hlt => wlp_mono ih ?_ fun _ _ h => h)
      rintro _ t ⟨rfl, hrest⟩
      exact ⟨rfl, List.forall_mem_cons.mpr ⟨Nat.lt_of_not_le hlt, hrest⟩⟩

theorem checkOptions_pass (s : MainRun) :
    wlp (checkOptions opts) (fun _ t => t = s ∧ OptionsPass opts) (fun r _ => r ≠ 0) s := by
  refine wlp_bind (wlp_exitIf (fun _ => by decide) fun hkernel => ?_)
  refine wlp_bind (wlp_exitIf (fun _ => by decide) fun hovmf => ?_)
  refine wlp_bind (wlp_exitIf (fun _ => by decide) fun htdxModule => ?_)
  refine wlp_bind (wlp_exitIf (fun _ => by decide) fun hcmdline => ?_)
  refine wlp_bind (wlp_exitIf (fun _ => by decide) fun hnonempty => ?_)
  refine wlp_mono (checkNumbers_pass opts.mrNums s) ?_ fun _ _ h => h
  rintro _ t ⟨rfl, hnumbers⟩
  refine ⟨rfl, ?_, ?_, ?_, ?_, hnonempty, hnumbers⟩
  · exact fun hasked hnone => hkernel ⟨hnone, hasked⟩
  · exact fun hasked hnone => hovmf ⟨hnone, Or.inl hasked⟩
  · exact fun hasked hnone => htdxModule ⟨hnone, hasked⟩
  · exact fun hasked hnone => hcmdline ⟨hnone, hasked⟩

/-- The indices of the calls, where every file is given. -/
def callOrder : List Nat :=
  [indexMrseam, indexMrtd, indexRtmr0, indexRtmr1, indexRtmr2, indexRtmr3]

theorem map_toList_sublist {α : Type} (file : Option α) {f : α → MrCall} {index : Nat}
    (h : ∀ a, (f a).index = index) :
    ((file.toList.map f).map MrCall.index).Sublist [index] := by
  cases file with
  | none => exact List.nil_sublist _
  | some a => exact (h a) ▸ List.Sublist.refl _

theorem calls_sublist (opts : Options) : (opts.calls.map MrCall.index).Sublist callOrder := by
  have hmrseam : ((opts.tdxModule.toList.map .mrseam).map MrCall.index).Sublist [indexMrseam] :=
    map_toList_sublist opts.tdxModule fun _ => rfl
  have hmrtd : ((opts.ovmf.toList.map fun ovmf => .mrtd ovmf opts.qemuVersion).map
      MrCall.index).Sublist [indexMrtd] :=
    map_toList_sublist opts.ovmf fun _ => rfl
  have hrtmr1 : ((opts.kernel.toList.map fun kernel =>
      .runtime (.rtmr1 (opts.rtmr1Args kernel))).map MrCall.index).Sublist [indexRtmr1] :=
    map_toList_sublist opts.kernel fun _ => rfl
  have hrtmr2 : ((opts.cmdline.toList.map fun cmdline =>
      .runtime (.rtmr2 (opts.rtmr2Args cmdline))).map MrCall.index).Sublist [indexRtmr2] :=
    map_toList_sublist opts.cmdline fun _ => rfl
  have hbehind := (hrtmr1.append (hrtmr2.append (List.Sublist.refl [indexRtmr3]))).cons_cons
    indexRtmr0
  unfold Options.calls
  simp only [List.map_append, List.map_cons, List.map_nil]
  exact hmrseam.append (hmrtd.append hbehind)

theorem calls_nodup (opts : Options) : (opts.calls.map MrCall.index).Nodup :=
  (calls_sublist opts).nodup (by decide)

theorem mem_map_toList {α : Type} {file : Option α} {f : α → MrCall} {index : Nat}
    (h : ∀ a, (f a).index = index) (hfile : file ≠ none) :
    index ∈ (file.toList.map f).map MrCall.index := by
  obtain ⟨a, rfl⟩ := Option.ne_none_iff_exists'.mp hfile
  exact List.mem_singleton.mpr (h a).symm

/-- There is a call for every register that is asked for. -/
theorem calls_index (h : OptionsPass opts) {i : Nat} (hi : i < mrLen) (hasked : Asked opts i) :
    i ∈ opts.calls.map MrCall.index := by
  unfold Options.calls
  simp only [List.map_append, List.map_cons, List.mem_append, List.mem_cons]
  unfold mrLen at hi
  obtain rfl | rfl | rfl | rfl | rfl | rfl : i = indexMrtd ∨ i = indexRtmr0 ∨ i = indexRtmr1 ∨
      i = indexRtmr2 ∨ i = indexRtmr3 ∨ i = indexMrseam := by
    unfold indexMrtd indexRtmr0 indexRtmr1 indexRtmr2 indexRtmr3 indexMrseam
    omega
  · exact Or.inr (Or.inl (mem_map_toList (fun _ => rfl) (h.ovmf hasked)))
  · exact Or.inr (Or.inr (Or.inl rfl))
  · exact Or.inr (Or.inr (Or.inr (Or.inl (mem_map_toList (fun _ => rfl) (h.kernel hasked)))))
  · exact Or.inr (Or.inr (Or.inr (Or.inr (Or.inl
      (mem_map_toList (fun _ => rfl) (h.cmdline hasked))))))
  · exact Or.inr (Or.inr (Or.inr (Or.inr (Or.inr (Or.inl rfl)))))
  · exact Or.inl (mem_map_toList (fun _ => rfl) (h.tdxModule hasked))

theorem calls_index_lt {i : Nat} (h : i ∈ opts.calls.map MrCall.index) : i < mrLen := by
  have hmem := (calls_sublist opts).subset h
  revert hmem
  have hall : ∀ i ∈ callOrder, i < mrLen := by decide
  exact hall i

/-- Behind the calls every requested register is calculated. -/
theorem calculated_underway (stack : Nat → Digest 48) :
    wlp (do checkOptions opts; forEach (calculate libs env alloc opts) opts.calls)
      (fun _ s => OptionsPass opts ∧
        Underway libs.sha384 alloc opts (fun i => i < mrLen ∧ Asked opts i) s)
      (fun r _ => r ≠ 0) (MainRun.start stack) := by
  have hstart : Underway libs.sha384 alloc opts (fun _ => False) (MainRun.start stack) :=
    ⟨Between.start _ _, rfl, rfl⟩
  refine wlp_bind (wlp_mono (checkOptions_pass _) ?_ fun _ _ h => h)
  rintro _ _ ⟨rfl, hpass⟩
  refine wlp_mono (@forEach_once _ _ _ MrCall.index (Asked opts) _ _ opts.calls
    (fun c _ done s hnew hs => calculate_underway hnew hs) (calls_nodup opts) _
    (fun _ _ h => h) _ hstart) ?_ fun _ _ h => h
  intro _ s hs
  rw [done_of_keys fun i hasked => ⟨calls_index_lt, fun hi => calls_index hpass hi hasked⟩] at hs
  exact ⟨hpass, hs⟩

end Calls

/-! ## Runs of `main` -/

def valuesText (opts : Options) (value : Nat → Digest 48) : Bytes :=
  if opts.printSummary then summaryText opts.format value opts.mrNums else []

/-- What a run that returns 0 leaves and has printed: `log` and behind it the values. -/
structure Reports (md : Md 48) (alloc : Nat → Allocations) (opts : Options) (log : Bytes)
    (t : MainRun) : Prop where
  pass : OptionsPass opts
  calculated : ∀ num ∈ opts.mrNums,
    Calculated md num.toNat (t.mrs num.toNat) (digestsOf num.toNat t.evlog)
  requested : ∀ e ∈ t.evlog, e.index < mrLen ∧ Asked opts e.index
  eventLog : opts.printEventLog = true → ∃ p,
    run (printEventLog opts.format (opts.mrNums.map UInt32.toNat))
      ⟨t.log, []⟩ = .ok (0, p) ∧ log = p.out
  holdsLog : HoldsLog opts.format alloc t
  out : t.out = log ++ valuesText opts t.mrs

section Main

variable {libs : MrLibs} {env : MrEnv} {alloc : Nat → Allocations} {opts : Options}

theorem printLog_goesOn (format : Format) (index : Nat) (s : PrintRun) :
    wlp (printLog format index) (fun _ _ => True) (fun _ _ => False) s := by
  unfold wlp
  cases htext : s.logs index with
  | none =>
      rw [printLog_none htext]
      trivial
  | some text =>
      rw [printLog_some htext]
      split_ifs <;> trivial

/-- Printing the log either faults or goes through. -/
theorem printEventLog_zero {format : Format} {nums : List Nat} {s t : PrintRun} {ret : Int}
    (hrun : run (printEventLog format nums) s = .ok (ret, t)) : ret = 0 := by
  have hrest : ∀ u, wlp (do
      forEach (printLog format) nums
      update (PrintRun.print (ascii "\n"))
      pure (0 : Int)) (fun r _ => r = 0) (fun r _ => r = 0) u := by
    intro u
    have hloop : wlp (forEach (printLog format) nums) (fun _ _ => True) (fun _ _ => False) u :=
      wlp_forEach (fun index _ v _ => printLog_goesOn format index v) trivial
    refine wlp_bind (wlp_mono hloop ?_ fun _ _ h => h.elim)
    exact fun _ _ _ => wlp_bind (wlp_update (wlp_pure rfl))
  have hwlp : wlp (printEventLog format nums) (fun r _ => r = 0) (fun r _ => r = 0) s :=
    wlp_bind (wlp_when (fun _ => wlp_update (hrest _)) fun _ => hrest s)
  exact @run_of_wlp _ _ (fun r _ => r = 0) _ _ _ hwlp hrun

theorem printLogs_log (s : MainRun) :
    wlp (when opts.printEventLog (printLogs opts))
      (fun _ t => ∃ log, t = s.print log ∧ (opts.printEventLog = true → ∃ p,
        run (printEventLog opts.format (opts.mrNums.map UInt32.toNat))
          ⟨s.log, []⟩ = .ok (0, p) ∧ log = p.out))
      (fun r _ => r ≠ 0) s := by
  apply wlp_when
  · intro _
    refine wlp_bind (wlp_getState (wlp_bind (wlp_lift fun printed hprinted => wlp_update ?_)))
    obtain ⟨ret, p⟩ := printed
    obtain rfl := printEventLog_zero hprinted
    exact ⟨p.out, rfl, fun _ => ⟨p, hprinted, rfl⟩⟩
  · intro hnot
    exact ⟨[], s.print_nil.symm, fun h => absurd h hnot⟩

/-- A run that returns 0 prints the log and the value of each requested register, and logs
nothing for other registers. -/
theorem main_reports {stack : Nat → Digest 48} {t : MainRun}
    (hrun : run (main libs env alloc opts) (MainRun.start stack) = .ok (0, t)) :
    ∃ log, Reports libs.sha384 alloc opts log t := by
  have hmain : wlp (main libs env alloc opts)
      (fun _ t => ∃ log, Reports libs.sha384 alloc opts log t)
      (fun r _ => r ≠ 0) (MainRun.start stack) := by
    have hassoc : main libs env alloc opts = (do
        (do
          checkOptions opts
          forEach (calculate libs env alloc opts) opts.calls : Proc MainRun Unit)
        when opts.printEventLog (printLogs opts)
        when opts.printSummary
          (update fun s => s.print (summaryText opts.format s.mrs opts.mrNums))
        return 0) := by
      simp only [main, bind_assoc]
    rw [hassoc]
    refine wlp_bind (wlp_mono (calculated_underway stack) ?_ fun _ _ h => h)
    rintro _ s ⟨hpass, hs⟩
    refine wlp_bind (wlp_mono (printLogs_log s) ?_ fun _ _ h => h)
    rintro _ _ ⟨log, rfl, heventLog⟩
    have hreports : Reports libs.sha384 alloc opts log
        ((s.print log).print (valuesText opts s.mrs)) := by
      refine ⟨hpass, fun num hnum => ?_, fun e he => hs.between.logged he, heventLog, hs.log, ?_⟩
      · refine hs.between.value num.toNat ⟨hpass.numbers num hnum, asked_iff.mpr ?_⟩
        rw [UInt32.ofNat_toNat]
        exact hnum
      · show (s.out ++ log) ++ _ = _
        rw [hs.quiet]
        rfl
    refine wlp_bind (wlp_when (fun hsummary => wlp_update (wlp_pure ?_)) fun hnot => wlp_pure ?_)
    · rw [valuesText, if_pos hsummary] at hreports
      exact ⟨log, hreports⟩
    · rw [valuesText, if_neg hnot, MainRun.print_nil] at hreports
      exact ⟨log, hreports⟩
  exact @run_zero_of_wlp _ _ (fun t => ∃ log, Reports libs.sha384 alloc opts log t) _ _ hmain hrun

end Main

end MeasuredBoot.Tdx
