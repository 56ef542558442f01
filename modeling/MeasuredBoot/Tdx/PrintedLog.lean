import MeasuredBoot.Common.Sha2
import MeasuredBoot.RecordReplay
import MeasuredBoot.Tdx.Program

/-! # The printed event log replays

Whoever reads the JSON event log of calculate-tdx-mrs comes to the values in the summary
behind it, where the log is closed behind its last record. Asking for the registers in
ascending order closes it there.
-/

namespace MeasuredBoot.Tdx

open Binary Imperative Imperative.Proc
open EventRecords (Record readEventLog entryRecord digestsOfRecords tdxShape PlainStrings)

section Records

variable {evlog : List (LogEntry 48)}

theorem PlainRecord.strings {e : LogEntry 48} (h : PlainRecord e) (hutf8 : Utf8Record e) :
    PlainStrings e := ⟨⟨h.name, hutf8.1⟩, ⟨h.desc, hutf8.2⟩⟩

theorem recordValue_entryRecord (e : LogEntry 48) :
    recordValue e = EventRecords.recordValue tdxShape (entryRecord e) := by
  simp [recordValue, EventRecords.recordValue, EventRecords.optionalField, entryRecord, tdxShape,
    EventRecords.mrLabel, Json.integer_natCast]

/-- An array of the records is read back as the records. -/
theorem readEventLog_of_parse (hstrings : ∀ e ∈ evlog, PlainStrings e) {nums : List Nat}
    {text : Bytes} (hparse : Json.parse text =
      some (.array ((nums.flatMap (loggedFor evlog)).map recordValue))) :
    readEventLog tdxShape text = some ((nums.flatMap (loggedFor evlog)).map entryRecord) := by
  have hrequested : ∀ e ∈ nums.flatMap (loggedFor evlog), PlainStrings e := by
    intro e he
    obtain ⟨k, -, hk⟩ := List.mem_flatMap.mp he
    exact hstrings e (List.mem_filter.mp hk).1
  unfold readEventLog
  rw [hparse, List.map_congr_left fun e _ => recordValue_entryRecord e]
  exact EventRecords.mapM_decodeRecord tdxShape hrequested

theorem exists_highestLogged (hne : evlog ≠ []) : ∃ m, HighestLogged evlog m := by
  have hsome : (evlog.map (·.index)).max? ≠ none := by
    rw [ne_eq, List.max?_eq_none_iff, List.map_eq_nil_iff]
    exact hne
  obtain ⟨m, hm⟩ := Option.ne_none_iff_exists'.mp hsome
  obtain ⟨hmem, hmax⟩ := List.max?_eq_some_iff.mp hm
  obtain ⟨e, he, hindex⟩ := List.mem_map.mp hmem
  constructor
  constructor
  · exact List.ne_nil_of_mem (List.mem_filter.mpr ⟨he, decide_eq_true hindex⟩)
  · intro k hk
    refine List.filter_eq_nil_iff.mpr fun e' he' hindex' => ?_
    have hle := hmax e'.index (List.mem_map_of_mem he')
    have heq : e'.index = k := of_decide_eq_true hindex'
    omega

/-- In ascending order the highest register comes last. -/
theorem highestRequestedLast_of_ascending {nums : List Nat} (hne : evlog ≠ [])
    (hrequested : ∀ e ∈ evlog, e.index ∈ nums) (hnums : nums.Pairwise (· < ·)) :
    HighestRequestedLast evlog nums := by
  obtain ⟨m, hm⟩ := exists_highestLogged hne
  obtain ⟨e, he⟩ := List.exists_mem_of_ne_nil _ hm.logged
  obtain ⟨hlogged, hindex⟩ := List.mem_filter.mp he
  have hmem : m ∈ nums := of_decide_eq_true hindex ▸ hrequested e hlogged
  obtain ⟨pre, post, rfl⟩ := List.append_of_mem hmem
  obtain ⟨-, hbehind, hcross⟩ := List.pairwise_append.mp hnums
  refine ⟨pre, m, post, rfl, hm, fun hpre => ?_, fun k hk => ?_⟩
  · exact Nat.lt_irrefl m (hcross m hpre m List.mem_cons_self)
  · exact hm.above k ((List.pairwise_cons.mp hbehind).1 k hk)

end Records

/-- Nothing is lost where no call of `evlog_add` lacks memory for the log. -/
theorem Reports.collected {md : Md 48} {alloc : Nat → Allocations} {opts : Options} {log : Bytes}
    {t : MainRun} (h : Reports md alloc opts log t)
    (hmemory : ∀ k < t.evlog.length, (alloc k).log = true) :
    t.log = collectLogs opts.format t.evlog := by
  have hlog := h.holdsLog
  have hadds : ∀ e ∈ t.evlog, Appends (tdxEvlogAdd opts.format) LogEntry.index
      (recordText opts.format) e := fun e he => tdxEvlogAdd_appends _ (h.requested e he).1
  have hhex := (addRecords_ok_iff hadds _).mp ⟨t.log, hlog⟩
  have hrun := @addRecords_eq _ _ _ alloc _ LogEntry.index (recordText opts.format) 0 _ hadds
    (fun j hj => ⟨hhex j hj, by rw [Nat.zero_add]; exact hmemory j hj⟩) Logs.empty
  exact Except.ok.inj (hlog.symm.trans hrun)

/-- A run that prints event log and summary in JSON prints a log whose records come to the
value of every requested register, if no call of `evlog_add` lacks memory for the log and
the highest register with records is asked for behind the others. -/
theorem main_jsonLog_replays {libs : MrLibs} {env : MrEnv} {alloc : Nat → Allocations}
    {opts : Options} {stack : Nat → Digest 48} {t : MainRun} (hformat : opts.format = .json)
    (hlog : opts.printEventLog = true) (hnodup : opts.mrNums.Nodup)
    (hrun : run (main libs env alloc opts) (MainRun.start stack) = .ok (0, t))
    (hmemory : ∀ k < t.evlog.length, (alloc k).log = true)
    (hplain : ∀ e ∈ t.evlog, PlainRecord e) (hutf8 : ∀ e ∈ t.evlog, Utf8Record e)
    (hlast : HighestRequestedLast t.evlog (opts.mrNums.map UInt32.toNat)) :
    ∃ text records, t.out = text ++ valuesText opts t.mrs ∧
      readEventLog tdxShape text = some records ∧
      ∀ num ∈ opts.mrNums, Calculated libs.sha384 num.toNat (t.mrs num.toNat)
        (digestsOfRecords 48 num.toNat records) := by
  obtain ⟨text, hreports⟩ := main_reports hrun
  obtain ⟨pre, m, post, hnums, hhigh, hpre, hpost⟩ := hlast
  obtain ⟨u, hu, hdocument, hencoded⟩ := printEventLog_closed hplain hhigh hpre hpost
  obtain ⟨p, hp, htext⟩ := hreports.eventLog hlog
  rw [hreports.collected hmemory, hformat, hnums, hu] at hp
  obtain rfl : u = p := (Prod.mk.inj (Except.ok.inj hp)).2
  have hparse := Json.parse_eq_some.mpr ⟨hencoded.mpr fun e he => by
    obtain ⟨k, -, hk⟩ := List.mem_flatMap.mp he
    exact hutf8 e (List.mem_filter.mp hk).1, hdocument⟩
  rw [← hnums, ← htext] at hparse
  have hstrings : ∀ e ∈ t.evlog, PlainStrings e := fun e he => (hplain e he).strings (hutf8 e he)
  refine ⟨text, _, hreports.out, readEventLog_of_parse hstrings hparse, fun num hnum => ?_⟩
  have hdigests : digestsOf num.toNat
      ((opts.mrNums.map UInt32.toNat).flatMap (loggedFor t.evlog)) = digestsOf num.toNat t.evlog :=
    EventRecords.digestsOf_flatMap (EventRecords.nodup_toNat hnodup) (List.mem_map_of_mem hnum)
  rw [EventRecords.digestsOfRecords_entries, hdigests]
  exact hreports.calculated num hnum

theorem quiet_length : (ascii "quiet").length < 2 ^ 63 := by decide

theorem module_length : (ascii "module").length < 2 ^ 63 := by decide

/-- `--mrs 3,5 --format json --eventlog --summary` with a command line and a TDX module. -/
def rtmr2MrseamJson : Options where
  format := .json
  printEventLog := true
  printSummary := true
  mrNums := [3, 5]
  tdxModule := some (.intact (ascii "seam.so") (ascii "module") module_length)
  ovmf := none
  qemuVersion := []
  acpiFiles := ⟨none, none, none, none⟩
  ovmfVersion := []
  bootVars := ⟨[0], none, true⟩
  secureBoot := ⟨⟨none, true⟩, ⟨none, true⟩, ⟨none, true⟩, ⟨none, true⟩, ⟨none, true⟩⟩
  kernel := none
  configFile := none
  dumpKernelPath := none
  cmdline := some (.intact (ascii "cmdline") (ascii "quiet") quiet_length)
  cmdlineTrailingZeros := 1
  cmdlineAllocated := true

/-- The command line in two-byte characters, with the zero behind it. -/
def wideQuiet : Bytes := [113, 0, 117, 0, 105, 0, 101, 0, 116, 0, 0, 0]

def moduleEntry : LogEntry 48 :=
  ⟨5, ascii "TDX-Module", Sha384.sha384 (ascii "module"), ascii "SEAMLDR Measurement: TDX-Module"⟩

def cmdlineEntry : LogEntry 48 :=
  ⟨3, ascii "EV_EVENT_TAG", Sha384.sha384 wideQuiet, ascii "cmdline"⟩

theorem rtmr2MrseamJson_logs :
    (run (main ⟨Sha384.sha384, fun _ => none⟩
      ⟨⟨true, true, true⟩, zeroDigest 48, ⟨true, zeroDigest 48, true, true⟩⟩
      (fun _ => ⟨true, true⟩) rtmr2MrseamJson) (MainRun.start fun _ => zeroDigest 48)).toOption.map
        (fun r => (r.1, r.2.evlog)) = some (0, [moduleEntry, cmdlineEntry]) := by
  decide +kernel

theorem main_jsonLog_replays_rtmr2Mrseam :
    ∃ (t : MainRun) (text : Bytes) (records : List Record),
      t.out = text ++ valuesText rtmr2MrseamJson t.mrs ∧
      readEventLog tdxShape text = some records ∧
      ∀ num ∈ rtmr2MrseamJson.mrNums, Calculated Sha384.sha384 num.toNat (t.mrs num.toNat)
        (digestsOfRecords 48 num.toNat records) := by
  obtain ⟨⟨ret, t⟩, hrun, hvalues⟩ := exists_of_toOption_map rtmr2MrseamJson_logs
  obtain ⟨rfl, hevlog⟩ := Prod.mk.inj hvalues
  have hevlog' : t.evlog = [moduleEntry, cmdlineEntry] := hevlog
  have hrecords : ∀ e ∈ t.evlog, PlainRecord e ∧ Utf8Record e := by
    intro e he
    rw [hevlog'] at he
    rcases List.mem_pair.mp he with rfl | rfl
    · exact ⟨⟨by decide, by decide, by decide, by decide +kernel⟩, by decide, by decide⟩
    · exact ⟨⟨by decide, by decide, by decide, by decide +kernel⟩, by decide, by decide⟩
  have hlast : HighestRequestedLast t.evlog (rtmr2MrseamJson.mrNums.map UInt32.toNat) := by
    rw [hevlog']
    refine highestRequestedLast_of_ascending (List.cons_ne_nil _ _) (fun e he => ?_) (by decide)
    rcases List.mem_pair.mp he with rfl | rfl <;> decide
  obtain ⟨text, records, hout, hread, hvalue⟩ := @main_jsonLog_replays _ _ _ rtmr2MrseamJson _ _
    rfl rfl (by decide) hrun (fun _ _ => rfl) (fun e he => (hrecords e he).1)
    (fun e he => (hrecords e he).2) hlast
  exact ⟨t, text, records, hout, hread, hvalue⟩

end MeasuredBoot.Tdx
