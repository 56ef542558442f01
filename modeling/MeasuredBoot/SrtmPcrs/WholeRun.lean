import MeasuredBoot.Common.Registers
import MeasuredBoot.SrtmPcrs.Program

/-! # Whole runs of calculate-srtm-pcrs

The calculators share one event log. What a run prints as the value of a register is
the replay of what the run logged for it, whichever calculators ran before and behind
its own.
-/

namespace MeasuredBoot.SrtmPcrs

open Binary Imperative Imperative.Proc

/-! ## One register -/

theorem measureGpt_sameOthers (libs : PcrLibs) (args : Pcr5Args) (before : List (LogEntry 32))
    (table : File) : Preserves (SameOthers 5 before) (measureGpt libs args table) := by
  unfold measureGpt
  cases readFile table with
  | none => exact .exit (-1)
  | some gptBuf =>
      refine .bind (.exitIf _ _) fun _ => .bind (.lift _) fun described => ?_
      cases described with
      | none => exact .exit (-1)
      | some description =>
          exact .bind evlogAdd_sameOthers fun _ => extendMr_sameOthers

theorem calculatePcr5_sameOthers (libs : PcrLibs) (env : PcrEnv) (args : Pcr5Args)
    (before : List (LogEntry 32)) :
    Preserves (SameOthers 5 before) (calculatePcr5 libs env args) := by
  refine .bind (.update fun _ hs => hs) fun _ => .bind (.exitIf _ _) fun _ => ?_
  refine .bind evlogAdd_sameOthers fun _ => ?_
  refine .bind (.forEach _ fun table _ => measureGpt_sameOthers libs args before table) fun _ => ?_
  refine .bind evlogAdd_sameOthers fun _ => .bind evlogAdd_sameOthers fun _ => ?_
  refine .bind extendMr_sameOthers fun _ => .bind extendMr_sameOthers fun _ => ?_
  exact .bind extendMr_sameOthers fun _ => .pure 0

/-- A calculator that finds nothing logged for its register leaves the other records. -/
theorem pcrCall_sameOthers {libs : PcrLibs} {env : PcrEnv} {c : PcrCall} {s s' : Measurement 32}
    {ret : Int} (hempty : digestsOf c.index s.evlog = [])
    (hrun : run (c.body libs env) s = .ok (ret, s')) : SameOthers c.index s.evlog s' := by
  by_cases hc : c.index = 5
  · cases c with
    | pcr5 args => exact (calculatePcr5_sameOthers libs env args s.evlog).run rfl hrun
    | _ => cases hc
  · exact (pcrCall_inStep hc hempty hrun).others

/-- The value and the log a calculator returns 0 with. -/
structure Calculated (sha256 : Md 32) (gptTable : Option File) (index : Nat) (value : Digest 32)
    (evlog : List (LogEntry 32)) : Prop where
  replays : index ≠ 5 → value = replay sha256 (digestsOf index evlog)
  gpt : index = 5 → value = replay sha256 (pcr5Extended sha256 gptTable) ∧
    digestsOf 5 evlog = pcr5Logged sha256 gptTable

theorem calculated_own (sha256 : Md 32) (gptTable : Option File) :
    ValueSpec.Own (Calculated sha256 gptTable) := by
  intro i mr xs ys hdigests h
  constructor
  · intro hne
    rw [hdigests]
    exact h.replays hne
  · rintro rfl
    rw [hdigests]
    exact h.gpt rfl

theorem pcrCall_measured {libs : PcrLibs} {env : PcrEnv} {c : PcrCall} {s s' : Measurement 32}
    (hempty : digestsOf c.index s.evlog = [])
    (hrun : run (c.body libs env) s = .ok (0, s')) :
    Calculated libs.sha256 c.gptTable c.index s'.mr s'.evlog := by
  constructor
  · intro hc
    exact (pcrCall_inStep hc hempty hrun).replays
  · intro hc
    cases c with
    | pcr5 args => exact calculatePcr5_zero hempty hrun
    | _ => cases hc

/-! ## All of them -/

/-- The texts are what all calls of `evlog_add` left. -/
def HoldsLog (format : Format) (alloc : Nat → Allocations) (s : MainRun) : Prop :=
  addRecords (srtmEvlogAdd format) alloc 0 s.evlog (fun _ => none) = .ok s.log

/-- Between two calls, with nothing printed yet. -/
structure Underway (libs : PcrLibs) (alloc : Nat → Allocations) (opts : Options)
    (done : Nat → Prop) (s : MainRun) : Prop where
  between : Between (Calculated libs.sha256 opts.pcr5.efiPartitionTable) done s.pcr s.evlog
  log : HoldsLog opts.format alloc s
  quiet : s.out = []

section Calls

variable {libs : PcrLibs} {env : PcrEnv} {alloc : Nat → Allocations} {opts : Options}

/-- The register is asked for. -/
def Asked (opts : Options) (i : Nat) : Prop := UInt32.ofNat i ∈ opts.pcrNums

theorem calculate_underway {c : PcrCall} {done : Nat → Prop} (hnew : ¬done c.index)
    (htable : c.index = 5 → c.gptTable = opts.pcr5.efiPartitionTable) {s : MainRun}
    (hs : Underway libs alloc opts done s) :
    wlp (calculate libs env alloc opts c)
      (fun _ => Underway libs alloc opts fun i => done i ∨ i = c.index ∧ Asked opts i)
      (fun r _ => r ≠ 0) s := by
  apply wlp_when
  · intro hasked
    refine wlp_bind (wlp_getState (wlp_bind (wlp_lift fun result hresult => ?_)))
    refine wlp_bind (wlp_lift fun log hlog => wlp_bind (wlp_update ?_))
    refine wlp_bind (wlp_exitIf (fun _ => by decide) fun hzero => ?_)
    obtain ⟨ret, m⟩ := result
    obtain rfl : ret = 0 := not_not.mp hzero
    have hmeasured : Calculated libs.sha256 opts.pcr5.efiPartitionTable c.index m.mr m.evlog := by
      have hcall := pcrCall_measured rfl hresult
      refine ⟨hcall.replays, fun h5 => ?_⟩
      rw [← htable h5]
      exact hcall.gpt h5
    have hcollected : HoldsLog opts.format alloc (s.setMeasurement c.index m log) := by
      have hbefore := hs.log
      unfold HoldsLog at hbefore ⊢
      show addRecords _ alloc 0 (s.evlog ++ m.evlog) _ = .ok log
      rw [addRecords_append, hbefore, Nat.zero_add]
      exact hlog
    refine wlp_update ⟨?_, hcollected, hs.quiet⟩
    rw [done_of_asked (contains_iff.mp hasked)]
    exact hs.between.next (calculated_own _ _) hnew (pcrCall_sameOthers rfl hresult) hmeasured
  · intro hnot
    rw [done_of_not_asked fun hasked => hnot (contains_iff.mpr hasked)]
    exact hs

/-- A run whose options do not pass the checks does not return 0. -/
theorem checkOptions_exit (s : MainRun) :
    wlp (checkOptions opts) (fun _ t => t = s) (fun r _ => r ≠ 0) s := by
  apply wlp_bind
  apply wlp_mono (wlp_forEach (I := fun t => t = s) (E := fun r _ => r ≠ 0) _ rfl) _ fun _ _ h => h
  · intro num _ t ht
    exact wlp_exitIf (fun _ => by decide) fun _ => ht
  · rintro _ t rfl
    refine wlp_bind (wlp_exitIf (fun _ => by decide) fun _ => ?_)
    refine wlp_bind (wlp_exitIf (fun _ => by decide) fun _ => ?_)
    exact wlp_exitIf (fun _ => by decide) fun _ => rfl

end Calls

/-! ## Printing -/

def registerText (log : Nat → Option Bytes) (num : UInt32) : Bytes := (log num.toNat).getD []

/-- The texts of the registers. In JSON the comma behind the last record is the closing
bracket. -/
def closedTexts (format : Format) (log : Nat → Option Bytes) : List UInt32 → Bytes
  | [] => []
  | num :: rest =>
      let text := registerText log num
      (if format = .json ∧ rest.isEmpty then text.take (text.length - 2) ++ ascii "]" else text) ++
        closedTexts format log rest

/-- What is printed under `if (print_event_log)`. -/
def eventLogText (format : Format) (log : Nat → Option Bytes) (nums : List UInt32) : Bytes :=
  (if format = .json then ascii "[" else []) ++ closedTexts format log nums ++ ascii "\n"

theorem MainRun.print_print (a b : Bytes) (s : MainRun) :
    (s.print a).print b = s.print (a ++ b) := by
  unfold MainRun.print
  rw [List.append_assoc]

theorem MainRun.print_nil (s : MainRun) : s.print [] = s := by
  unfold MainRun.print
  rw [List.append_nil]

theorem closeText_ok {format : Format} {last : Bool} {text closed : Bytes}
    (h : closeText format last text = .ok closed) :
    closed = if format = .json ∧ last then text.take (text.length - 2) ++ ascii "]" else text := by
  unfold closeText at h
  split_ifs at h ⊢
  · exact (Except.ok.inj h).symm
  · exact (Except.ok.inj h).symm

theorem printLogs_texts (format : Format) (nums : List UInt32) (s : MainRun) :
    wlp (printLogs format nums) (fun _ t => t = s.print (closedTexts format s.log nums) ∧
        ∀ num ∈ nums, s.log num.toNat ≠ none)
      (fun r _ => r ≠ 0) s := by
  induction nums generalizing s with
  | nil => exact ⟨s.print_nil.symm, by simp⟩
  | cons num rest ih =>
      refine wlp_bind (wlp_getState ?_)
      cases htext : s.log num.toNat with
      | none => exact wlp_exit (by decide)
      | some text =>
          refine wlp_bind (wlp_lift fun closed hclosed => wlp_bind (wlp_update ?_))
          have hregister : registerText s.log num = text := by
            rw [registerText, htext]
            rfl
          refine wlp_mono (ih (s.print closed)) ?_ fun _ _ h => h
          rintro _ t ⟨rfl, hlogged⟩
          refine ⟨?_, List.forall_mem_cons.mpr ⟨htext ▸ Option.some_ne_none text, hlogged⟩⟩
          rw [MainRun.print_print, closeText_ok hclosed, closedTexts, hregister]
          rfl

theorem printEventLog_text {opts : Options} (s : MainRun) :
    wlp (printEventLog opts)
      (fun _ t => t = s.print (eventLogText opts.format s.log opts.pcrNums) ∧
        ∀ num ∈ opts.pcrNums, s.log num.toNat ≠ none)
      (fun r _ => r ≠ 0) s := by
  have hopening : wlp (when (opts.format = .json) (update (MainRun.print (ascii "["))))
      (fun _ t => t = s.print (if opts.format = .json then ascii "[" else []))
      (fun r _ => r ≠ 0) s := by
    split_ifs with hformat
    · exact wlp_when (fun _ => rfl) fun hne => absurd hformat hne
    · exact wlp_when (fun heq => absurd heq hformat) fun _ => s.print_nil.symm
  refine wlp_bind (wlp_mono hopening ?_ fun _ _ h => h)
  rintro _ _ rfl
  refine wlp_bind (wlp_mono (printLogs_texts opts.format opts.pcrNums _) ?_ fun _ _ h => h)
  rintro _ _ ⟨rfl, hlogged⟩
  refine wlp_update ⟨?_, hlogged⟩
  rw [MainRun.print_print, MainRun.print_print, eventLogText, List.append_assoc]
  rfl

/-! ## Runs of `main` -/

def valuesText (libs : PcrLibs) (opts : Options) (value : Nat → Digest 32) : Bytes :=
  (if opts.printSummary then summaryText opts.format value opts.pcrNums else []) ++
    if opts.printAggregate then aggregateText libs.sha256 opts.format value opts.pcrNums else []

/-- What a run that returns 0 leaves and has printed. -/
structure Reports (libs : PcrLibs) (alloc : Nat → Allocations) (opts : Options) (t : MainRun) :
    Prop where
  measured : ∀ num ∈ opts.pcrNums, num.toNat < 10 →
    Calculated libs.sha256 opts.pcr5.efiPartitionTable num.toNat (t.pcr num.toNat) t.evlog
  requested : ∀ e ∈ t.evlog, e.index < 10 ∧ Asked opts e.index
  log : HoldsLog opts.format alloc t
  logged : opts.printEventLog = true → ∀ num ∈ opts.pcrNums, t.log num.toNat ≠ none
  out : t.out = (if opts.printEventLog then eventLogText opts.format t.log opts.pcrNums
    else []) ++ valuesText libs opts t.pcr

section Main

variable {libs : PcrLibs} {env : PcrEnv} {alloc : Nat → Allocations} {opts : Options}

theorem calls_nodup (opts : Options) : (opts.calls.map PcrCall.index).Nodup := by
  unfold Options.calls
  cases opts.ovmf <;> simp [PcrCall.index]

theorem calls_gptTable {c : PcrCall} (hc : c ∈ opts.calls) (h : c.index = 5) :
    c.gptTable = opts.pcr5.efiPartitionTable := by
  cases c with
  | pcr5 args =>
      have hargs : args = opts.pcr5 := by simpa [Options.calls] using hc
      rw [hargs]
      rfl
  | _ => cases h

/-- Behind the calculators every requested register below 10 is calculated. -/
theorem calculated_underway (stack : Nat → Digest 32) :
    wlp (do checkOptions opts; forEach (calculate libs env alloc opts) opts.calls)
      (fun _ => Underway libs alloc opts fun i => i < 10 ∧ Asked opts i)
      (fun r _ => r ≠ 0) (MainRun.start stack) := by
  have hstart : Underway libs alloc opts (fun _ => False) (MainRun.start stack) :=
    ⟨Between.start _ _, rfl, rfl⟩
  have hchecks : wlp (checkOptions opts)
      (fun _ t => t = MainRun.start stack ∧ (0 ∈ opts.pcrNums → opts.ovmf ≠ none))
      (fun r _ => r ≠ 0) (MainRun.start stack) :=
    wlp_mono (wlp_and (checkOptions_spec _) (checkOptions_exit _)) (fun _ _ h => h.1)
      fun _ _ h => h.2
  refine wlp_bind (wlp_mono hchecks ?_ fun _ _ h => h)
  rintro _ _ ⟨rfl, hovmf⟩
  refine wlp_mono (@forEach_once _ _ _ PcrCall.index (Asked opts) _ _ opts.calls
    (fun c hc done s hnew hs => calculate_underway hnew (calls_gptTable hc) hs)
    (calls_nodup opts) _ (fun _ _ h => h) _ hstart) ?_ fun _ _ h => h
  intro _ s hs
  have hkeys : ∀ i, Asked opts i → (i ∈ opts.calls.map PcrCall.index ↔ i < 10) := by
    intro i hasked
    constructor
    · intro hi
      obtain ⟨c, -, rfl⟩ := List.mem_map.mp hi
      exact pcrCall_index_lt c
    · intro hlt
      obtain ⟨c, hc, hindex⟩ := @calls_index opts i hlt fun hzero => by
        subst hzero
        exact hovmf hasked
      exact hindex ▸ List.mem_map_of_mem hc
  rw [done_of_keys hkeys] at hs
  exact hs

/-- The event log behind the calculators. -/
theorem printedLog_text (s : MainRun) :
    wlp (when opts.printEventLog (printEventLog opts))
      (fun _ t => t = s.print (if opts.printEventLog then
          eventLogText opts.format s.log opts.pcrNums else []) ∧
        (opts.printEventLog = true → ∀ num ∈ opts.pcrNums, s.log num.toNat ≠ none))
      (fun r _ => r ≠ 0) s := by
  cases hprint : opts.printEventLog with
  | false => exact wlp_when (fun h => nomatch h) fun _ => ⟨s.print_nil.symm, fun h => nomatch h⟩
  | true =>
      refine wlp_when (fun _ => wlp_mono (printEventLog_text s) ?_ fun _ _ h => h)
        fun h => absurd rfl h
      rintro _ t ⟨ht, hlogged⟩
      exact ⟨ht, fun _ => hlogged⟩

/-- A run that returns 0 prints, for each requested register, the log and the value of its
calculator, and logs nothing for other registers. -/
theorem main_reports {stack : Nat → Digest 32} {t : MainRun}
    (hrun : run (main libs env alloc opts) (MainRun.start stack) = .ok (0, t)) :
    Reports libs alloc opts t := by
  have hmain : wlp (main libs env alloc opts) (fun _ t => Reports libs alloc opts t)
      (fun r _ => r ≠ 0) (MainRun.start stack) := by
    have hassoc : main libs env alloc opts = (do
        (do
          checkOptions opts
          forEach (calculate libs env alloc opts) opts.calls : Proc MainRun Unit)
        when opts.printEventLog (printEventLog opts)
        printValues libs opts
        return 0) := by
      simp only [main, beforeValues, bind_assoc]
    rw [hassoc]
    refine wlp_bind (wlp_mono (calculated_underway stack) ?_ fun _ _ h => h)
    intro _ s hs
    refine wlp_bind (wlp_mono (printedLog_text s) ?_ fun _ _ h => h)
    rintro _ _ ⟨rfl, hlogged⟩
    unfold wlp
    rw [bind_apply, printValues_eq, andThen_next, MainRun.print_print]
    refine ⟨fun num hnum hlt => hs.between.value num.toNat ⟨hlt, ?_⟩,
      fun e he => hs.between.logged he, hs.log, hlogged, ?_⟩
    · rw [Asked, UInt32.ofNat_toNat]
      exact hnum
    · show s.out ++ _ = _
      rw [hs.quiet]
      rfl
  exact run_zero_of_wlp hmain hrun

end Main

end MeasuredBoot.SrtmPcrs
