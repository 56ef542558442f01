import MeasuredBoot.RecordReplay
import MeasuredBoot.SrtmPcrs.WholeRun

/-! # The printed event log replays

Whoever reads the JSON event log of calculate-srtm-pcrs and extends the digests of its
records comes to the values in the summary behind it.
-/

namespace MeasuredBoot.SrtmPcrs

open Binary Imperative Imperative.Proc
open EventRecords hiding recordText

/-! ## The text of a record -/

def entryText (e : LogEntry 32) : Bytes := EventRecords.recordText srtmShape (entryRecord e)

/-- The strings need no escapes, and the record fits the formatting buffer. -/
structure PlainEntry (e : LogEntry 32) : Prop extends PlainStrings e where
  fits : (formatRecord e .json).length ≤ 4095

def loggedFor (evlog : List (LogEntry 32)) (num : UInt32) : List (LogEntry 32) :=
  evlog.filter (·.index = num.toNat)

theorem formatRecord_json (e : LogEntry 32) : formatRecord e .json = entryText e ++ 44 :: [10] :=
  srtm_formatRecord e

theorem entryText_reads {e : LogEntry 32} (h : PlainEntry e) :
    Json.Reads 8 (entryText e) (recordValue srtmShape (entryRecord e)) :=
  recordText_reads srtmShape h.name.unescaped h.desc.unescaped

theorem entryText_length (e : LogEntry 32) : 8 ≤ (entryText e).length := by
  simp [entryText, EventRecords.recordText, openText, nameLine, line, Json.member, Json.quoted]
  omega

/-- The texts of the records, where all of them got their memory. -/
def collectLogs (evlog : List (LogEntry 32)) : Nat → Option Bytes :=
  appendedLogs LogEntry.index (recordText .json) (fun _ => none) evlog

section Text

variable {evlog : List (LogEntry 32)}

theorem collectLogs_apply (evlog : List (LogEntry 32)) (num : UInt32) :
    collectLogs evlog num.toNat =
      if loggedFor evlog num = [] then none
      else some ((loggedFor evlog num).flatMap (recordText .json)) :=
  appendedLogs_apply (fun _ => none) evlog num.toNat

theorem registerText_json (h : ∀ e ∈ evlog, PlainEntry e) (num : UInt32) :
    registerText (collectLogs evlog) num =
      Json.separated entryText [10] (loggedFor evlog num) := by
  unfold registerText
  rw [collectLogs_apply]
  split_ifs with hnil
  · rw [hnil]
    rfl
  · refine List.flatMap_congr fun e he => ?_
    rw [recordText, List.take_of_length_le (h e (List.mem_filter.mp he).1).fits,
      formatRecord_json]

/-- The register asked for last is the one whose last comma is the bracket. -/
theorem closedTexts_json (h : ∀ e ∈ evlog, PlainEntry e) (init : List UInt32) {num : UInt32}
    {xs : List (LogEntry 32)} {last : LogEntry 32} (hlast : loggedFor evlog num = xs ++ [last]) :
    closedTexts .json (collectLogs evlog) (init ++ [num]) =
      Json.separated entryText [10] (init.flatMap (loggedFor evlog) ++ xs) ++
        (entryText last ++ [93]) := by
  induction init with
  | nil =>
      have htext : registerText (collectLogs evlog) num =
          (Json.separated entryText [10] xs ++ entryText last) ++ [44, 10] := by
        rw [registerText_json h, hlast, Json.separated_append, Json.separated_cons,
          List.append_assoc]
        rfl
      have htake : (registerText (collectLogs evlog) num).take
          ((registerText (collectLogs evlog) num).length - 2) =
          Json.separated entryText [10] xs ++ entryText last := by
        rw [htext, List.length_append]
        exact List.take_left' rfl
      simp only [List.nil_append, closedTexts]
      rw [if_pos ⟨trivial, rfl⟩, htake, List.append_nil, List.flatMap_nil, List.nil_append,
        List.append_assoc]
      rfl
  | cons first init ih =>
      have hmore : (init ++ [num]).isEmpty = false := by
        cases init <;> rfl
      simp only [List.cons_append, closedTexts]
      rw [hmore, if_neg (fun hclosed => Bool.false_ne_true hclosed.2), ih, registerText_json h,
        List.flatMap_cons, List.append_assoc (loggedFor evlog first), Json.separated_append
        (loggedFor evlog first), List.append_assoc]

theorem parse_eventLogText (h : ∀ e ∈ evlog, PlainEntry e) (init : List UInt32) {num : UInt32}
    (hlogged : loggedFor evlog num ≠ []) :
    Json.parse (eventLogText .json (collectLogs evlog) (init ++ [num])) =
      some (.array (((init ++ [num]).flatMap (loggedFor evlog)).map fun e =>
        recordValue srtmShape (entryRecord e))) := by
  have hsplit := List.dropLast_append_getLast hlogged
  have hall : (init ++ [num]).flatMap (loggedFor evlog) =
      (init.flatMap (loggedFor evlog) ++ (loggedFor evlog num).dropLast) ++
        [(loggedFor evlog num).getLast hlogged] := by
    rw [List.flatMap_append, List.flatMap_singleton, List.append_assoc, hsplit]
  have hplain : ∀ e ∈ (init ++ [num]).flatMap (loggedFor evlog), PlainEntry e := by
    intro e he
    obtain ⟨k, -, hk⟩ := List.mem_flatMap.mp he
    exact h e (List.mem_filter.mp hk).1
  have htext : eventLogText .json (collectLogs evlog) (init ++ [num]) =
      91 :: (Json.separated entryText [10]
        (init.flatMap (loggedFor evlog) ++ (loggedFor evlog num).dropLast) ++
          (entryText ((loggedFor evlog num).getLast hlogged) ++ 93 :: [10])) := by
    rw [eventLogText, closedTexts_json h init hsplit.symm]
    simp [ascii]
  rw [hall] at hplain ⊢
  have hutf8 : ∀ e ∈ init.flatMap (loggedFor evlog) ++ (loggedFor evlog num).dropLast ++
      [(loggedFor evlog num).getLast hlogged], Json.isUtf8 (entryText e) = true := by
    intro e he
    exact (isUtf8_recordText srtmShape _).mpr ⟨(hplain e he).name.utf8, (hplain e he).desc.utf8⟩
  have hclose : (93 : UInt8) < 0x80 := by decide
  have hbreak : Json.isUtf8 [10] = true := by decide
  refine Json.parse_eq_some.mpr ⟨?_, ?_⟩
  · have hfront : List.all _ (fun e => Json.isUtf8 (entryText e)) = true :=
      List.all_eq_true.mpr fun e he => hutf8 e (List.mem_append_left _ he)
    have hlast := hutf8 _ (List.mem_append_right _ List.mem_cons_self)
    rw [htext, Json.isUtf8_cons (by decide), Json.isUtf8_separated hbreak,
      Json.isUtf8_split hclose, hfront, hlast, hbreak]
    rfl
  · rw [htext, Json.document_separated (by decide) _ _ _
      (fun e he => entryText_reads (hplain e he)) (fun e _ => rfl) (entryText_length _)]
    rfl

/-- The event log is read back as the records of the requested registers, in their order. -/
theorem readEventLog_eventLogText (h : ∀ e ∈ evlog, PlainEntry e) (init : List UInt32)
    {num : UInt32} (hlogged : loggedFor evlog num ≠ []) :
    readEventLog srtmShape (eventLogText .json (collectLogs evlog) (init ++ [num])) =
      some (((init ++ [num]).flatMap (loggedFor evlog)).map entryRecord) := by
  have hplain : ∀ e ∈ (init ++ [num]).flatMap (loggedFor evlog), PlainEntry e := by
    intro e he
    obtain ⟨k, -, hk⟩ := List.mem_flatMap.mp he
    exact h e (List.mem_filter.mp hk).1
  unfold readEventLog
  rw [parse_eventLogText h init hlogged]
  exact mapM_decodeRecord srtmShape fun e he => (hplain e he).toPlainStrings

end Text

/-! ## The whole output -/

theorem loggedFor_ne_nil {evlog : List (LogEntry 32)} {num : UInt32}
    (h : collectLogs evlog num.toNat ≠ none) : loggedFor evlog num ≠ [] := by
  intro hnil
  rw [collectLogs_apply, if_pos hnil] at h
  exact h rfl

/-- Nothing is lost where no call of `evlog_add` lacks memory for the log. -/
theorem Reports.collected {libs : PcrLibs} {alloc : Nat → Allocations} {opts : Options}
    {t : MainRun} (h : Reports libs alloc opts t) (hformat : opts.format = .json)
    (hmemory : ∀ k < t.evlog.length, (alloc k).log = true) : t.log = collectLogs t.evlog := by
  have hlog := h.log
  rw [hformat] at hlog
  have hadds : ∀ e ∈ t.evlog, Appends (srtmEvlogAdd .json) LogEntry.index (recordText .json) e :=
    fun e he => srtmEvlogAdd_appends .json (Nat.lt_trans (h.requested e he).1 (by decide))
  have hhex := (addRecords_ok_iff hadds _).mp ⟨t.log, hlog⟩
  have hrun := @addRecords_eq _ _ _ alloc _ LogEntry.index (recordText .json) 0 _ hadds
    (fun j hj => ⟨hhex j hj, by rw [Nat.zero_add]; exact hmemory j hj⟩) fun _ => none
  exact Except.ok.inj (hlog.symm.trans hrun)

/-- A run that prints event log and values in JSON prints a log whose records replay to
the value of every requested register, if no call of `evlog_add` lacks memory for the log;
that of PCR 5 only where the partition table hashes as the separator does. -/
theorem main_json_replays {libs : PcrLibs} {env : PcrEnv} {alloc : Nat → Allocations}
    {opts : Options} {stack : Nat → Digest 32} {t : MainRun} (hformat : opts.format = .json)
    (hlog : opts.printEventLog = true) (hne : opts.pcrNums ≠ []) (hnodup : opts.pcrNums.Nodup)
    (hrun : run (main libs env alloc opts) (MainRun.start stack) = .ok (0, t))
    (hmemory : ∀ k < t.evlog.length, (alloc k).log = true)
    (hplain : ∀ e ∈ t.evlog, PlainEntry e) :
    ∃ text records, t.out = text ++ valuesText libs opts t.pcr ∧
      readEventLog srtmShape text = some records ∧
      ∀ num ∈ opts.pcrNums,
        (num = 5 → ∀ table ∈ opts.pcr5.efiPartitionTable,
          HashesAsSeparator libs.sha256 table) →
        t.pcr num.toNat = replay libs.sha256 (digestsOfRecords 32 num.toNat records) := by
  have hreports := main_reports hrun
  have hlogged := hreports.logged hlog
  have hout := hreports.out
  rw [hreports.collected hformat hmemory] at hlogged hout
  rw [if_pos hlog, hformat] at hout
  obtain ⟨init, last, hnums⟩ : ∃ init last, opts.pcrNums = init ++ [last] :=
    ⟨_, _, (List.dropLast_append_getLast hne).symm⟩
  have hlast : last ∈ opts.pcrNums := hnums ▸ List.mem_append_right init List.mem_cons_self
  have hread := readEventLog_eventLogText hplain init (loggedFor_ne_nil (hlogged last hlast))
  rw [← hnums] at hread
  refine ⟨_, _, hout, hread, fun num hnum htable => ?_⟩
  have hentry := loggedFor_ne_nil (hlogged num hnum)
  obtain ⟨e, he⟩ := List.exists_mem_of_ne_nil _ hentry
  obtain ⟨hmem, hindex⟩ := List.mem_filter.mp he
  have hlt : num.toNat < 10 := of_decide_eq_true hindex ▸ (hreports.requested e hmem).1
  have hmeasured := hreports.measured num hnum hlt
  have hdigests : digestsOf num.toNat (opts.pcrNums.flatMap (loggedFor t.evlog)) =
      digestsOf num.toNat t.evlog := by
    have hall := @digestsOf_flatMap 32 t.evlog _ (nodup_toNat hnodup) num.toNat
      (List.mem_map_of_mem hnum)
    rw [List.flatMap_map] at hall
    exact hall
  rw [digestsOfRecords_entries, hdigests]
  by_cases hfive : num.toNat = 5
  · have hnum5 : num = 5 := UInt32.toNat_inj.mp hfive
    obtain ⟨hvalue, hlog5⟩ := hmeasured.gpt hfive
    rw [hvalue, hfive, hlog5, (pcr5_orders_eq_iff _ _).mpr (htable hnum5)]
  · exact hmeasured.replays hfive

/-- `--pcrs 6,3 --format json --eventlog --summary`. -/
def pcr63Json : Options :=
  { tenOnly with format := .json, printEventLog := true, pcrNums := [6, 3] }

def separatorEntry (index : Nat) : LogEntry 32 :=
  ⟨index, ascii "EV_SEPARATOR", Sha256.sha256 (zeros 4), ascii "HASH(00000000)"⟩

theorem pcr63Json_logs :
    (run (main ⟨Sha256.sha256, fun _ => none, fun _ => .ok none⟩ ⟨true, true, true⟩
      (fun _ => ⟨true, true⟩) pcr63Json) (MainRun.start fun _ => zeroDigest 32)).toOption.map
        (fun r => (r.1, r.2.evlog)) = some (0, [separatorEntry 3, separatorEntry 6]) := by
  decide +kernel

theorem main_json_replays_pcr63 :
    ∃ (t : MainRun) (text : Bytes) (records : List Record),
      t.out = text ++ valuesText ⟨Sha256.sha256, fun _ => none, fun _ => .ok none⟩
        pcr63Json t.pcr ∧ readEventLog srtmShape text = some records ∧
      ∀ num ∈ pcr63Json.pcrNums,
        (num = 5 → ∀ table ∈ pcr63Json.pcr5.efiPartitionTable,
          HashesAsSeparator Sha256.sha256 table) →
        t.pcr num.toNat =
          replay Sha256.sha256 (digestsOfRecords 32 num.toNat records) := by
  obtain ⟨⟨ret, t⟩, hrun, hvalues⟩ := exists_of_toOption_map pcr63Json_logs
  obtain ⟨rfl, hevlog⟩ := Prod.mk.inj hvalues
  have hplain : ∀ e ∈ t.evlog, PlainEntry e := by
    intro e he
    have hevlog' : t.evlog = [separatorEntry 3, separatorEntry 6] := hevlog
    rw [hevlog'] at he
    rcases List.mem_pair.mp he with rfl | rfl
    · exact ⟨⟨by decide, by decide⟩, by decide +kernel⟩
    · exact ⟨⟨by decide, by decide⟩, by decide +kernel⟩
  obtain ⟨text, records, hout, hread, hvalue⟩ := @main_json_replays _ _ _ pcr63Json _ _ rfl rfl
    (by decide) (by decide) hrun (fun _ _ => rfl) hplain
  exact ⟨t, text, records, hout, hread, hvalue⟩

end MeasuredBoot.SrtmPcrs
