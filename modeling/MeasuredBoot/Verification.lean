import MeasuredBoot.SrtmLog.Program
import MeasuredBoot.SrtmLog.RoundTrip
import MeasuredBoot.SrtmPcrs.PrintedLog

/-! # Calculated and recorded PCRs

The two PCR tools on one machine: calculate-srtm-pcrs predicts the registers from the
boot images, and parse-srtm-pcrs replays the event log the firmware wrote. Their outputs
are compared with each other.
-/

namespace MeasuredBoot

open Binary Imperative Imperative.Proc

/-! ## Outputs tell the values -/

theorem upperHexDigit_inj : ∀ m < 16, ∀ n < 16, upperHexDigit m = upperHexDigit n → m = n := by
  decide

theorem printData_inj {xs ys : Bytes} (h : printData xs = printData ys) : xs = ys := by
  have hdigits := List.append_cancel_right h
  clear h
  induction xs generalizing ys with
  | nil =>
      cases ys with
      | nil => rfl
      | cons y ys => cases hdigits
  | cons x xs ih =>
      cases ys with
      | nil => cases hdigits
      | cons y ys =>
          simp only [List.flatMap_cons, List.cons_append, List.nil_append, List.cons.injEq]
            at hdigits
          obtain ⟨hhigh, hlow, hrest⟩ := hdigits
          have hx := x.toNat_lt
          have hy := y.toNat_lt
          have hdiv := upperHexDigit_inj _ (by omega) _ (by omega) hhigh
          have hmod := upperHexDigit_inj _ (by omega) _ (by omega) hlow
          have hbyte : x = y := UInt8.toNat_inj.mp (by omega)
          rw [hbyte, ih hrest]

theorem printData_length (bytes : Bytes) : (printData bytes).length = 2 * bytes.length + 1 := by
  unfold printData
  induction bytes with
  | nil => rfl
  | cons b bytes ih =>
      simp only [List.flatMap_cons, List.length_append, List.length_cons, List.length_nil] at ih ⊢
      omega

theorem textSummary_inj {num : UInt32} {v w : Digest 32} {xs ys : Bytes}
    (h : textSummary num v ++ xs = textSummary num w ++ ys) : v = w ∧ xs = ys := by
  unfold textSummary at h
  simp only [List.append_assoc] at h
  have hlength : (printData v.val).length = (printData w.val).length := by
    rw [printData_length, printData_length, v.property, w.property]
  obtain ⟨hvalue, hrest⟩ := List.append_inj
    (List.append_cancel_left (List.append_cancel_left (List.append_cancel_left h))) hlength
  exact ⟨Subtype.ext (printData_inj hvalue), hrest⟩

/-- Two summaries in text are the same exactly where the values are. -/
theorem textSummaries_eq_iff (nums : List UInt32) (v w : Nat → Digest 32) :
    (nums.flatMap fun num => textSummary num (v num.toNat)) =
        (nums.flatMap fun num => textSummary num (w num.toNat)) ↔
      ∀ num ∈ nums, v num.toNat = w num.toNat := by
  induction nums with
  | nil => simp
  | cons num nums ih =>
      rw [List.flatMap_cons, List.flatMap_cons, List.forall_mem_cons, ← ih]
      constructor
      · intro h
        exact textSummary_inj h
      · rintro ⟨hvalue, hrest⟩
        rw [hvalue, hrest]

/-- The bytes the aggregate is the digest of. -/
def aggregated (nums : List UInt32) (value : Nat → Digest 32) : Bytes :=
  nums.flatMap fun num => (value num.toNat).val

theorem aggregated_inj {nums : List UInt32} {v w : Nat → Digest 32}
    (h : aggregated nums v = aggregated nums w) : ∀ num ∈ nums, v num.toNat = w num.toNat := by
  induction nums with
  | nil => simp
  | cons num nums ih =>
      unfold aggregated at h
      rw [List.flatMap_cons, List.flatMap_cons] at h
      have hlength : (v num.toNat).val.length = (w num.toNat).val.length := by
        rw [(v num.toNat).property, (w num.toNat).property]
      obtain ⟨hvalue, hrest⟩ := List.append_inj h hlength
      exact List.forall_mem_cons.mpr ⟨Subtype.ext hvalue, ih hrest⟩

theorem aggregated_congr {nums : List UInt32} {v w : Nat → Digest 32}
    (h : ∀ num ∈ nums, v num.toNat = w num.toNat) : aggregated nums v = aggregated nums w :=
  List.flatMap_congr fun num hnum => by rw [h num hnum]

/-- The aggregate in either format. -/
def aggregateOf (json : Bool) (aggregate : Digest 32) : Bytes :=
  if json then jsonAggregate aggregate else textAggregate aggregate

theorem aggregateOf_inj {json : Bool} {v w : Digest 32}
    (h : aggregateOf json v = aggregateOf json w) : v = w := by
  apply Subtype.ext
  unfold aggregateOf jsonAggregate textAggregate at h
  cases json with
  | true =>
      rw [if_pos rfl, if_pos rfl] at h
      have hdigits := List.append_cancel_left (List.append_cancel_right h)
      exact Option.some.inj ((readHex_hexText v.val).symm.trans
        ((congrArg readHex hdigits).trans (readHex_hexText w.val)))
  | false =>
      rw [if_neg Bool.false_ne_true, if_neg Bool.false_ne_true] at h
      exact printData_inj (List.append_cancel_left h)

/-! ## The two programs -/

/-- What a calculator extended into its register: the records it logged, but for the order
around the partition table in PCR 5. -/
def predicted (sha256 : Md 32) (opts : SrtmPcrs.Options) (evlog : List (LogEntry 32))
    (index : Nat) : List (Digest 32) :=
  if index = 5 then SrtmPcrs.pcr5Extended sha256 opts.pcr5.efiPartitionTable
  else digestsOf index evlog

theorem calculated_predicted {sha256 : Md 32} {opts : SrtmPcrs.Options} {index : Nat}
    {value : Digest 32} {evlog : List (LogEntry 32)}
    (h : SrtmPcrs.Calculated sha256 opts.pcr5.efiPartitionTable index value evlog) :
    value = replay sha256 (predicted sha256 opts evlog index) := by
  unfold predicted
  split_ifs with hindex
  · exact (h.gpt hindex).1
  · exact h.replays hindex

/-- A log that firmware writes, of well-formed events and of algorithms `get_algo_str`
knows, that leaves the skip flag clean and gives the locality of PCR 0 before it is extended. -/
structure FirmwareLog (b : SrtmLog.EventBuf) (events : List SrtmLog.LogEvent) : Prop where
  encoded : ∃ s, b.log = SrtmLog.encodeLog s events
  wellFormed : ∀ e ∈ events, e.WellFormed
  supported : ∀ e ∈ events, ∀ d ∈ e.digests, d.algorithmId ∈ SrtmLog.supportedAlgorithms
  flag : SrtmLog.FlagClean (events.map SrtmLog.LogEvent.parsed)
  first : SrtmLog.LocalityFirst (events.map SrtmLog.LogEvent.parsed)

/-- Where PCR 0 is asked for, the log starts it at locality 0, as the calculator does. -/
def StartsAtZero (nums : List UInt32) (events : List SrtmLog.LogEvent) : Prop :=
  0 ∈ nums → SrtmLog.startupLocality (events.map SrtmLog.LogEvent.parsed) = 0

/-- What the log says was extended into a register. -/
def recorded (events : List SrtmLog.LogEvent) (index : Nat) : List (Digest 32) :=
  SrtmLog.extendedInto (events.map SrtmLog.LogEvent.parsed) index

theorem initialValue_eq_zero {nums : List UInt32} {events : List SrtmLog.LogEvent}
    (h : StartsAtZero nums events) {num : UInt32} (hnum : num ∈ nums) :
    SrtmLog.initialValue (events.map SrtmLog.LogEvent.parsed) num.toNat = zeroDigest 32 := by
  unfold SrtmLog.initialValue
  split_ifs with hzero
  · have hnum0 : num = 0 := UInt32.toNat_inj.mp hzero
    have hlast : SrtmLog.withLastByte (zeroDigest 32) 0 = zeroDigest 32 := by decide
    rw [h (hnum0 ▸ hnum), hlast]
  · rfl

theorem FirmwareLog.accepted {b : SrtmLog.EventBuf} {events : List SrtmLog.LogEvent}
    (h : FirmwareLog b events) (md : Md 32) (format : SrtmLog.Format) (pcrNums : List Nat) :
    ∃ t, run (SrtmLog.tpmParseEventlog md b) (SrtmLog.CbData.start format pcrNums) = .ok (1, t) ∧
      t.messages = [] ∧
      ∀ nums, StartsAtZero nums events → ∀ num ∈ nums,
        t.calcPcrs num.toNat = replay md (recorded events num.toNat) := by
  obtain ⟨s, hlog⟩ := h.encoded
  obtain ⟨t, hrun⟩ := SrtmLog.tpmParseEventlog_encodeLog md hlog h.wellFormed format pcrNums
  refine ⟨t, hrun, SrtmLog.messages_encodeLog hlog h.supported hrun, ?_⟩
  intro nums hstart num hnum
  rw [SrtmLog.calcPcrs_encodeLog hlog h.wellFormed h.flag h.first hrun,
    initialValue_eq_zero hstart hnum]
  rfl

/-! ## What is printed -/

section Printed

variable {sha256 : Md 32} {opts : SrtmLog.Options}

theorem summaryLoop_text {nums : List UInt32} (h : ∀ num ∈ nums, num.toNat < SrtmLog.maxPcrs)
    (s : SrtmLog.MainRun) : SrtmLog.summaryLoop none .text nums s =
      .next () (s.print (nums.flatMap fun num => textSummary num (s.cb.calcPcrs num.toNat))) := by
  induction nums generalizing s with
  | nil =>
      rw [List.flatMap_nil, SrtmLog.MainRun.print, List.append_nil]
      rfl
  | cons num nums ih =>
      obtain ⟨hnum, hrest⟩ := List.forall_mem_cons.mp h
      rw [SrtmLog.summaryLoop, SrtmLog.subscript_of_lt none hnum, pure_bind, bind_apply,
        getState_apply, andThen_next]
      dsimp only
      rw [bind_apply, update_apply, andThen_next, ih hrest, List.flatMap_cons]
      simp only [SrtmLog.MainRun.print, List.append_assoc]

/-- Only the summary, as text. -/
structure SummaryOnly (opts : SrtmLog.Options) : Prop where
  format : opts.format = .text
  summary : opts.printSummary = true
  eventlog : opts.printEventlog = false
  aggregate : opts.printAggregate = false

theorem printSummary_text (hformat : opts.format = .text)
    (hnums : ∀ num ∈ opts.pcrNums, num.toNat < SrtmLog.maxPcrs) (s : SrtmLog.MainRun) :
    SrtmLog.printSummary none opts s = .next () (s.print (opts.pcrNums.flatMap fun num =>
      textSummary num (s.cb.calcPcrs num.toNat))) := by
  have hjson : ¬opts.format = .json := by
    rw [hformat]
    exact fun h => nomatch h
  unfold SrtmLog.printSummary
  rw [when, when, if_neg hjson, if_neg hjson, pure_bind, bind_apply, hformat,
    summaryLoop_text hnums]
  rfl

theorem printOutput_summary (h : SummaryOnly opts)
    (hnums : ∀ num ∈ opts.pcrNums, num.toNat < SrtmLog.maxPcrs) (s : SrtmLog.MainRun) :
    run (SrtmLog.printOutput none sha256 opts) s = .ok (0, s.print (opts.pcrNums.flatMap fun num =>
      textSummary num (s.cb.calcPcrs num.toNat))) := by
  unfold run SrtmLog.printOutput
  rw [h.summary, h.eventlog, h.aggregate, when, when, when, if_neg Bool.false_ne_true,
    if_neg Bool.false_ne_true, if_pos rfl, pure_bind, bind_apply, printSummary_text h.format hnums]
  rfl

/-- Only the aggregate. -/
structure AggregateOnly (opts : SrtmLog.Options) : Prop where
  summary : opts.printSummary = false
  eventlog : opts.printEventlog = false
  aggregate : opts.printAggregate = true

theorem printOutput_aggregate (h : AggregateOnly opts)
    (hnums : ∀ num ∈ opts.pcrNums, num.toNat < SrtmLog.maxPcrs) (s : SrtmLog.MainRun) :
    run (SrtmLog.printOutput none sha256 opts) s = .ok (0, s.print
      (aggregateOf (opts.format = .json) (sha256 (aggregated opts.pcrNums s.cb.calcPcrs)))) := by
  unfold run SrtmLog.printOutput SrtmLog.printAggregate aggregateOf
  rw [h.summary, h.eventlog, h.aggregate, when, when, when, if_neg Bool.false_ne_true,
    if_neg Bool.false_ne_true, if_pos rfl, pure_bind, pure_bind,
    SrtmLog.subscripts_inside hnums, pure_bind]
  cases opts.format <;> rfl

/-- What parse-srtm-pcrs does with a log that firmware wrote. -/
theorem main_firmwareLog (md : Md 32) {logs : Bytes → Option SrtmLog.EventBuf} {argv : List Bytes}
    (hargv : SrtmLog.readOptions argv SrtmLog.Options.start = some opts)
    (hne : opts.pcrNums ≠ []) (hnums : ∀ num ∈ opts.pcrNums, num.toNat < SrtmLog.maxPcrs)
    {b : SrtmLog.EventBuf} (hread : logs (opts.inputFile.getD SrtmLog.biosMeasurements) = some b)
    {events : List SrtmLog.LogEvent} (hlog : FirmwareLog b events)
    (hstart : StartsAtZero opts.pcrNums events) :
    ∃ s : SrtmLog.MainRun, s.out = [] ∧
      (∀ num ∈ opts.pcrNums,
        s.cb.calcPcrs num.toNat = replay md (recorded events num.toNat)) ∧
      run (SrtmLog.main none md logs argv) SrtmLog.MainRun.start =
        run (SrtmLog.printOutput none md opts) s := by
  obtain ⟨t, hrun, hmessages, hpcrs⟩ := hlog.accepted md opts.format opts.nums
  refine ⟨SrtmLog.MainRun.start.setCb t, ?_, hpcrs opts.pcrNums hstart, ?_⟩
  · rw [SrtmLog.MainRun.setCb, hmessages]
    rfl
  have hinside : ∀ num ∈ opts.pcrNums, SrtmLog.maxPcrs ≤ num.toNat →
      ¬SrtmLog.LogComesTo md b opts.format opts.nums num.toNat := by
    intro num hnum hge
    exact absurd (hnums num hnum) (Nat.not_lt.mpr hge)
  unfold SrtmLog.main
  rw [hargv]
  dsimp only
  rw [exitIf_neg hne, pure_bind, hread]
  exact SrtmLog.printLog_accepted none hinside hrun

end Printed

/-! ## Comparing them -/

/-- Both programs are asked for the same registers, all of which have a calculator. -/
structure SameRegisters (opts : SrtmPcrs.Options) (opts' : SrtmLog.Options) : Prop where
  nums : opts'.pcrNums = opts.pcrNums
  nonempty : opts.pcrNums ≠ []
  calculated : ∀ num ∈ opts.pcrNums, num.toNat < 10
  eventLog : opts.printEventLog = false

section Compare

variable {libs : SrtmPcrs.PcrLibs} {env : SrtmPcrs.PcrEnv} {alloc : Nat → Allocations}
  {opts : SrtmPcrs.Options} {opts' : SrtmLog.Options} {stack : Nat → Digest 32}
  {s : SrtmPcrs.MainRun} {logs : Bytes → Option SrtmLog.EventBuf} {argv : List Bytes}
  {b : SrtmLog.EventBuf}
  {events : List SrtmLog.LogEvent}

/-- Each value is the replay of what its calculator extended. -/
theorem calculated_values
    (hrun : run (SrtmPcrs.main libs env alloc opts) (SrtmPcrs.MainRun.start stack) = .ok (0, s))
    (hnums : ∀ num ∈ opts.pcrNums, num.toNat < 10) :
    ∀ num ∈ opts.pcrNums,
      s.pcr num.toNat = replay libs.sha256 (predicted libs.sha256 opts s.evlog num.toNat) :=
  fun num hnum => calculated_predicted ((SrtmPcrs.main_reports hrun).measured num hnum
    (hnums num hnum))

/-- Values that replay two lists of digests tell the lists apart, unless the hash breaks. -/
theorem values_agree {md : Md 32} {v w : Nat → Digest 32} {xs ys : Nat → List (Digest 32)}
    {nums : List UInt32} (hv : ∀ num ∈ nums, v num.toNat = replay md (xs num.toNat))
    (hw : ∀ num ∈ nums, w num.toNat = replay md (ys num.toNat)) :
    ((∀ num ∈ nums, xs num.toNat = ys num.toNat) →
        ∀ num ∈ nums, w num.toNat = v num.toNat) ∧
      ((∀ num ∈ nums, w num.toNat = v num.toNat) → ∀ num ∈ nums,
        xs num.toNat = ys num.toNat ∨ HashBreaks md (xs num.toNat) (ys num.toNat)) := by
  constructor
  · intro hsame num hnum
    rw [hv num hnum, hw num hnum, hsame num hnum]
  · intro hsame num hnum
    apply replay_binding
    rw [← hv num hnum, ← hw num hnum, hsame num hnum]

/-- For such a log, parse-srtm-pcrs prints the summary of
calculate-srtm-pcrs if the log records what was calculated, and only then, unless
SHA-256 breaks. -/
theorem summaries_agree
    (hrun : run (SrtmPcrs.main libs env alloc opts) (SrtmPcrs.MainRun.start stack) = .ok (0, s))
    (hformat : opts.format = .text) (hsummary : opts.printSummary = true)
    (haggregate : opts.printAggregate = false) (hsame : SameRegisters opts opts')
    (hargv : SrtmLog.readOptions argv SrtmLog.Options.start = some opts')
    (honly : SummaryOnly opts')
    (hread : logs (opts'.inputFile.getD SrtmLog.biosMeasurements) = some b)
    (hlog : FirmwareLog b events) (hstart : StartsAtZero opts.pcrNums events) :
    ∃ t, run (SrtmLog.main none libs.sha256 logs argv) SrtmLog.MainRun.start = .ok (0, t) ∧
      ((∀ num ∈ opts.pcrNums, predicted libs.sha256 opts s.evlog num.toNat =
          recorded events num.toNat) → t.out = s.out) ∧
      (t.out = s.out → ∀ num ∈ opts.pcrNums,
        predicted libs.sha256 opts s.evlog num.toNat = recorded events num.toNat ∨
          HashBreaks libs.sha256 (predicted libs.sha256 opts s.evlog num.toNat)
            (recorded events num.toNat)) := by
  have hbelow : ∀ num ∈ opts'.pcrNums, num.toNat < SrtmLog.maxPcrs := by
    intro num hnum
    have hlt := hsame.calculated num (hsame.nums ▸ hnum)
    unfold SrtmLog.maxPcrs
    omega
  have hne : opts'.pcrNums ≠ [] := fun hnil => hsame.nonempty (hsame.nums ▸ hnil)
  obtain ⟨u, hout, hpcrs, hmain⟩ :=
    main_firmwareLog libs.sha256 hargv hne hbelow hread hlog (hsame.nums ▸ hstart)
  have hcalculated : s.out = opts.pcrNums.flatMap fun num => textSummary num (s.pcr num.toNat) := by
    rw [(SrtmPcrs.main_reports hrun).out, SrtmPcrs.valuesText, hsame.eventLog, hsummary,
      haggregate, hformat]
    simp [SrtmPcrs.summaryText]
  have heq := textSummaries_eq_iff opts.pcrNums u.cb.calcPcrs s.pcr
  obtain ⟨hsound, hcomplete⟩ := values_agree (calculated_values hrun hsame.calculated)
    (hsame.nums ▸ hpcrs)
  refine ⟨_, hmain.trans (printOutput_summary honly hbelow u), ?_, ?_⟩
  · intro hrecorded
    rw [hcalculated, SrtmLog.MainRun.print, hout, hsame.nums]
    exact heq.mpr (hsound hrecorded)
  · intro hprinted
    rw [hcalculated, SrtmLog.MainRun.print, hout, hsame.nums] at hprinted
    exact hcomplete (heq.mp hprinted)

/-- The aggregates are the same for the same digests, and only then, unless SHA-256 breaks
in a register or in the aggregate itself. -/
theorem aggregates_agree
    (hrun : run (SrtmPcrs.main libs env alloc opts) (SrtmPcrs.MainRun.start stack) = .ok (0, s))
    (hformat : opts.format = .json ↔ opts'.format = .json) (hsummary : opts.printSummary = false)
    (haggregate : opts.printAggregate = true) (hsame : SameRegisters opts opts')
    (hargv : SrtmLog.readOptions argv SrtmLog.Options.start = some opts')
    (honly : AggregateOnly opts')
    (hread : logs (opts'.inputFile.getD SrtmLog.biosMeasurements) = some b)
    (hlog : FirmwareLog b events) (hstart : StartsAtZero opts.pcrNums events) :
    ∃ t, run (SrtmLog.main none libs.sha256 logs argv) SrtmLog.MainRun.start = .ok (0, t) ∧
      ((∀ num ∈ opts.pcrNums, predicted libs.sha256 opts s.evlog num.toNat =
          recorded events num.toNat) → t.out = s.out) ∧
      (t.out = s.out →
        (∀ num ∈ opts.pcrNums,
          predicted libs.sha256 opts s.evlog num.toNat = recorded events num.toNat ∨
            HashBreaks libs.sha256 (predicted libs.sha256 opts s.evlog num.toNat)
              (recorded events num.toNat)) ∨
        ∃ xs ys, xs ≠ ys ∧ libs.sha256 xs = libs.sha256 ys ∧
          xs = aggregated opts.pcrNums t.cb.calcPcrs ∧ ys = aggregated opts.pcrNums s.pcr) := by
  have hbelow : ∀ num ∈ opts'.pcrNums, num.toNat < SrtmLog.maxPcrs := by
    intro num hnum
    have hlt := hsame.calculated num (hsame.nums ▸ hnum)
    unfold SrtmLog.maxPcrs
    omega
  have hne : opts'.pcrNums ≠ [] := fun hnil => hsame.nonempty (hsame.nums ▸ hnil)
  obtain ⟨u, hout, hpcrs, hmain⟩ :=
    main_firmwareLog libs.sha256 hargv hne hbelow hread hlog (hsame.nums ▸ hstart)
  have hcalculated : s.out = aggregateOf (opts'.format = .json)
      (libs.sha256 (aggregated opts.pcrNums s.pcr)) := by
    have hjson : decide (opts'.format = .json) = decide (opts.format = .json) :=
      decide_eq_decide.mpr hformat.symm
    rw [(SrtmPcrs.main_reports hrun).out, SrtmPcrs.valuesText, hsame.eventLog, hsummary,
      haggregate, hjson]
    cases opts.format <;> rfl
  obtain ⟨hsound, hcomplete⟩ := values_agree (calculated_values hrun hsame.calculated)
    (hsame.nums ▸ hpcrs)
  refine ⟨_, hmain.trans (printOutput_aggregate honly hbelow u), ?_, ?_⟩
  · intro hrecorded
    rw [hcalculated, SrtmLog.MainRun.print, hout, hsame.nums,
      aggregated_congr (hsound hrecorded)]
    rfl
  · intro hprinted
    rw [hcalculated, SrtmLog.MainRun.print, hout, hsame.nums] at hprinted
    have hdigests := aggregateOf_inj hprinted
    by_cases hvalues : aggregated opts.pcrNums u.cb.calcPcrs = aggregated opts.pcrNums s.pcr
    · exact Or.inl (hcomplete (aggregated_inj hvalues))
    · exact Or.inr ⟨_, _, hvalues, hdigests, rfl, rfl⟩

end Compare

/-! ## A boot without PCR 0 -/

theorem separatorDigest_length (hash : Digest 32) :
    hash.val.length = SrtmLog.tpm2AlgUtilGetHashSize SrtmLog.tpm2AlgSha256 := hash.property

/-- A separator as the firmware measures it. -/
def measuredSeparator (pcr : Nat) (h : pcr < 2 ^ 32) : SrtmLog.LogEvent :=
  { SrtmLog.separatorEvent pcr h with
    digests :=
      [ { SrtmLog.zeroLogDigest with
          digest := (Sha256.sha256 (zeros 4)).val
          digest_length := separatorDigest_length _ } ] }

/-- Startup locality 3, and the separators of PCR 3 and PCR 6. -/
def separatorsLog : List SrtmLog.LogEvent :=
  [SrtmLog.startupEvent, measuredSeparator 3 (by decide), measuredSeparator 6 (by decide)]

def separatorsBuf : SrtmLog.EventBuf :=
  SrtmLog.shortBuf (SrtmLog.encodeLog SrtmLog.sha256Spec separatorsLog) (by decide +kernel)

theorem measuredSeparator_wellFormed {pcr : Nat} (h : pcr < 2 ^ 32)
    (hpcr : pcr < SrtmLog.maxPcrs) : (measuredSeparator pcr h).WellFormed :=
  have hseparator := SrtmLog.separatorEvent_wellFormed h hpcr
  ⟨hseparator.pcr, hseparator.data, hseparator.locality⟩

theorem separatorsBuf_firmwareLog : FirmwareLog separatorsBuf separatorsLog where
  encoded := ⟨SrtmLog.sha256Spec, rfl⟩
  wellFormed := by
    intro e he
    simp only [separatorsLog, List.mem_cons, List.not_mem_nil, or_false] at he
    rcases he with rfl | rfl | rfl
    · exact SrtmLog.startupEvent_wellFormed
    · exact measuredSeparator_wellFormed _ (by decide)
    · exact measuredSeparator_wellFormed _ (by decide)
  supported := by
    intro e he d hd
    simp only [separatorsLog, List.mem_cons, List.not_mem_nil, or_false] at he
    rcases he with rfl | rfl | rfl <;> obtain rfl := List.mem_singleton.mp hd <;> decide
  flag := by
    have hclean : SrtmLog.CleanFrom false (separatorsLog.map SrtmLog.LogEvent.parsed) :=
      ⟨rfl, nofun, nofun, trivial⟩
    exact ((SrtmLog.cleanFrom_iff _ _).mp hclean).1
  first := SrtmLog.localityFirst_of_unextended rfl

/-- PCR 0, whose locality the log gives, is not asked for. -/
theorem separatorsLog_startsAtZero : StartsAtZero [6, 3] separatorsLog :=
  fun hzero => absurd hzero (by decide)

/-- `--pcrs 6,3`, with the summary or the aggregate as text. -/
def calculatePcr63 (summary : Bool) : SrtmPcrs.Options :=
  { SrtmPcrs.tenOnly with pcrNums := [6, 3], printSummary := summary, printAggregate := !summary }

def parsePcr63 (output : String) : List Bytes := [ascii "-p", ascii "6,3", ascii output]

theorem readOptions_parsePcr63 (output : String) :
    SrtmLog.readOptions (parsePcr63 output) SrtmLog.Options.start =
      SrtmLog.readFlag (ascii output) { SrtmLog.Options.start with pcrNums := [6, 3] } := by
  have hkind : SrtmLog.valueOption (ascii "-p") = some .pcrs := rfl
  have hnums : readPcrNums (ascii "6,3") = [6, 3] := by decide +kernel
  simp only [parsePcr63, SrtmLog.readOptions, hkind, SrtmLog.readValue, hnums]
  rfl

theorem calculatePcr63_same (summary : Bool) {opts' : SrtmLog.Options}
    (h : opts'.pcrNums = [6, 3]) : SameRegisters (calculatePcr63 summary) opts' where
  nums := h
  nonempty := List.cons_ne_nil 6 [3]
  calculated := by
    intro num hnum
    rcases List.mem_pair.mp hnum with rfl | rfl <;> decide
  eventLog := rfl

def calculateRun (summary : Bool) : Except Stop (Int × SrtmPcrs.MainRun) :=
  run (SrtmPcrs.main ⟨Sha256.sha256, fun _ => none, fun _ => .ok none⟩ ⟨true, true, true⟩
    (fun _ => ⟨true, true⟩) (calculatePcr63 summary))
    (SrtmPcrs.MainRun.start fun _ => zeroDigest 32)

/-- Both calculators measure the separator. -/
theorem calculateRun_logs (summary : Bool) :
    (calculateRun summary).toOption.map (fun r => (r.1, r.2.evlog)) =
      some (0, [SrtmPcrs.separatorEntry 3, SrtmPcrs.separatorEntry 6]) := by
  cases summary <;> decide +kernel

theorem predicted_separators (summary : Bool) {num : UInt32} (h : num ∈ ([6, 3] : List UInt32)) :
    predicted Sha256.sha256 (calculatePcr63 summary)
        [SrtmPcrs.separatorEntry 3, SrtmPcrs.separatorEntry 6] num.toNat =
      recorded separatorsLog num.toNat := by
  rcases List.mem_pair.mp h with rfl | rfl <;> cases summary <;> decide +kernel

/-- What is calculated is what the log of the firmware records. -/
theorem calculateRun_records (summary : Bool) : ∃ s, calculateRun summary = .ok (0, s) ∧
    ∀ num ∈ (calculatePcr63 summary).pcrNums,
      predicted Sha256.sha256 (calculatePcr63 summary) s.evlog num.toNat =
        recorded separatorsLog num.toNat := by
  obtain ⟨⟨ret, s⟩, hrun, hvalues⟩ := exists_of_toOption_map (calculateRun_logs summary)
  obtain ⟨rfl, hevlog⟩ := Prod.mk.inj hvalues
  refine ⟨s, hrun, fun num hnum => ?_⟩
  rw [show s.evlog = _ from hevlog]
  exact predicted_separators summary hnum

theorem summaries_agree_pcr63 :
    ∃ (s : SrtmPcrs.MainRun) (t : SrtmLog.MainRun), calculateRun true = .ok (0, s) ∧
      run (SrtmLog.main none Sha256.sha256 (fun _ => some separatorsBuf) (parsePcr63 "-s"))
        SrtmLog.MainRun.start = .ok (0, t) ∧
      t.out = s.out ∧
      (t.out = s.out → ∀ num ∈ (calculatePcr63 true).pcrNums,
        predicted Sha256.sha256 (calculatePcr63 true) s.evlog num.toNat =
            recorded separatorsLog num.toNat ∨
          HashBreaks Sha256.sha256
            (predicted Sha256.sha256 (calculatePcr63 true) s.evlog num.toNat)
            (recorded separatorsLog num.toNat)) := by
  let opts' : SrtmLog.Options := ⟨true, false, false, .text, [6, 3], none⟩
  have hargv : SrtmLog.readOptions (parsePcr63 "-s") SrtmLog.Options.start = some opts' :=
    readOptions_parsePcr63 "-s"
  obtain ⟨s, hrun, hrecorded⟩ := calculateRun_records true
  have hsame : SameRegisters (calculatePcr63 true) opts' := calculatePcr63_same true rfl
  obtain ⟨t, hparsed, hsound, hcomplete⟩ := @summaries_agree _ _ _ (calculatePcr63 true) opts' _ s
    (fun _ => some separatorsBuf) _ _ _ hrun rfl rfl rfl hsame hargv ⟨rfl, rfl, rfl, rfl⟩ rfl
    separatorsBuf_firmwareLog separatorsLog_startsAtZero
  exact ⟨s, t, hrun, hparsed, hsound hrecorded, hcomplete⟩

theorem aggregates_agree_pcr63 :
    ∃ (s : SrtmPcrs.MainRun) (t : SrtmLog.MainRun), calculateRun false = .ok (0, s) ∧
      run (SrtmLog.main none Sha256.sha256 (fun _ => some separatorsBuf) (parsePcr63 "-a"))
        SrtmLog.MainRun.start = .ok (0, t) ∧
      t.out = s.out ∧
      (t.out = s.out →
        (∀ num ∈ (calculatePcr63 false).pcrNums,
          predicted Sha256.sha256 (calculatePcr63 false) s.evlog num.toNat =
              recorded separatorsLog num.toNat ∨
            HashBreaks Sha256.sha256
              (predicted Sha256.sha256 (calculatePcr63 false) s.evlog num.toNat)
              (recorded separatorsLog num.toNat)) ∨
        ∃ xs ys, xs ≠ ys ∧ Sha256.sha256 xs = Sha256.sha256 ys ∧
          xs = aggregated [6, 3] t.cb.calcPcrs ∧ ys = aggregated [6, 3] s.pcr) := by
  let opts' : SrtmLog.Options := ⟨false, false, true, .text, [6, 3], none⟩
  have hargv : SrtmLog.readOptions (parsePcr63 "-a") SrtmLog.Options.start = some opts' :=
    readOptions_parsePcr63 "-a"
  obtain ⟨s, hrun, hrecorded⟩ := calculateRun_records false
  have hsame : SameRegisters (calculatePcr63 false) opts' := calculatePcr63_same false rfl
  have hformat : (calculatePcr63 false).format ≠ .json := by decide
  have hformat' : opts'.format ≠ .json := by decide
  obtain ⟨t, hparsed, hsound, hcomplete⟩ := @aggregates_agree _ _ _ (calculatePcr63 false) opts' _
    s (fun _ => some separatorsBuf) _ _ _ hrun (iff_of_false hformat hformat') rfl rfl hsame hargv
    ⟨rfl, rfl, rfl⟩ rfl separatorsBuf_firmwareLog separatorsLog_startsAtZero
  exact ⟨s, t, hrun, hparsed, hsound hrecorded, hcomplete⟩

end MeasuredBoot
