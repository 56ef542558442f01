import MeasuredBoot.Common.EvlogAdd
import MeasuredBoot.Lib.JsonScalars
import MeasuredBoot.Tdx.BuildTime
import MeasuredBoot.Tdx.Runtime

/-! # The printed event log

The texts `evlog_add` collects for each register and the loop of `main` that
prints them in request order. In JSON the last comma is turned into the closing
bracket inside the stored text; the loop picks the text by the register's index.
-/

namespace MeasuredBoot.Tdx

open Binary Imperative Imperative.Proc

/-! ## Collecting texts -/

inductive Format where
  | json
  | text
  deriving DecidableEq

def mrLen : Nat := 6

def indexToMr (index : Nat) : Bytes :=
  if index = indexMrtd then ascii "MRTD"
  else if index = indexRtmr0 then ascii "RTMR0"
  else if index = indexRtmr1 then ascii "RTMR1"
  else if index = indexRtmr2 then ascii "RTMR2"
  else if index = indexRtmr3 then ascii "RTMR3"
  else if index = indexMrseam then ascii "MRSEAM"
  else ascii "unknown"

/-- The text `snprintf` formats. -/
def formatRecord (e : LogEntry 48) : Format → Bytes
  | .json =>
      ascii "\x7b" ++ ascii "\n\t\"type\":\"TDX Reference Value\"," ++
        (ascii "\n\t\"subtype\":\"" ++ e.name ++ ascii "\",") ++
        (ascii "\n\t\"index\":" ++ decText e.index ++ ascii ",") ++
        (ascii "\n\t\"sha384\":\"" ++ hexText e.hash.val ++ ascii "\",") ++
        (ascii "\n\t\"description\":\"" ++ indexToMr e.index ++ ascii ": " ++ e.desc ++
          ascii "\"") ++ ascii "\n\x7d,\n"
  | .text =>
      ascii "subtype: " ++ e.name ++
        (ascii "\n\tindex: " ++ decText e.index) ++
        (ascii "\n\tsha384: " ++ hexText e.hash.val) ++
        (ascii "\n\tdescription: " ++ indexToMr e.index ++ ascii ": " ++ e.desc ++ ascii "\n")

/-- `char s[1024]`. -/
def recordSize : Nat := 1024

def recordText (format : Format) (e : LogEntry 48) : Bytes :=
  (formatRecord e format).take (recordSize - 1)

/-- `evlog->log`: a string for each register something was logged for. -/
abbrev Logs := Nat → Option Bytes

def Logs.empty : Logs := fun _ => none

/-- `evlog_add` of calculate-tdx-mrs. `encode_hex` writes through what `calloc` returned,
and an index behind the array is not checked. -/
def tdxEvlogAdd (format : Format) (alloc : Allocations) (log : Logs) (e : LogEntry 48) :
    Except Stop (Int × Logs) :=
  if !alloc.hex then .error .fault
  else if mrLen ≤ e.index then .error .fault
  else .ok (appendText recordSize (formatRecord e format) alloc log e.index)

theorem formatRecord_ne_nil (format : Format) (e : LogEntry 48) : formatRecord e format ≠ [] := by
  cases format <;> simp [formatRecord, ascii]

theorem tdxEvlogAdd_appends (format : Format) {e : LogEntry 48} (h : e.index < mrLen) :
    Appends (tdxEvlogAdd format) LogEntry.index (recordText format) e where
  nonempty := by
    have hpos := List.length_pos_iff.mpr (formatRecord_ne_nil format e)
    apply List.ne_nil_of_length_pos
    rw [recordText, List.length_take, recordSize]
    omega
  faults alloc log hhex := by
    rw [tdxEvlogAdd, hhex]
    rfl
  appends alloc log hhex := by
    obtain ⟨ret, -, happend⟩ := appendText_eq (by decide : recordSize ≤ 2 ^ 31)
      (formatRecord_ne_nil format e) alloc log e.index
    rw [tdxEvlogAdd, hhex, Bool.not_true, if_neg Bool.false_ne_true, if_neg (Nat.not_le_of_lt h),
      happend]
    cases alloc.log with
    | true => exact ⟨ret, rfl⟩
    | false => exact ⟨-1, rfl⟩

/-- What the calls for these records leave if they all get their memory. -/
def collectLogs (format : Format) (evlog : List (LogEntry 48)) : Logs :=
  appendedLogs LogEntry.index (recordText format) Logs.empty evlog

/-! ## Printing them -/

def lastEntryJson (format : Format) (logs : Logs) (index : Nat) : Bool :=
  if format ≠ .json then false
  else if index = mrLen - 1 then true
  else (List.range mrLen).all fun i => i ≤ index || (logs i).isNone

/-- The stored strings and what was printed. -/
structure PrintRun where
  logs : Logs
  out : Bytes

namespace PrintRun

def print (text : Bytes) (s : PrintRun) : PrintRun := { s with out := s.out ++ text }

def setLog (index : Nat) (text : Bytes) (s : PrintRun) : PrintRun :=
  { s with logs := fun i => if i = index then some text else s.logs i }

end PrintRun

/-- `]` is written over the second last character and the last one is cut off. -/
def closeLog (index : Nat) (text : Bytes) : Proc PrintRun Unit :=
  if text.length < 2 then fault
  else update (PrintRun.setLog index (text.take (text.length - 2) ++ ascii "]"))

def printLog (format : Format) (index : Nat) : Proc PrintRun Unit := do
  let s ← getState
  match s.logs index with
  | none => pure ()
  | some text => do
      when (lastEntryJson format s.logs index) (closeLog index text)
      update fun s => s.print ((s.logs index).getD [])

/-- The event log part of `main`. -/
def printEventLog (format : Format) (mrNums : List Nat) : Proc PrintRun Int := do
  when (format = .json) (update (PrintRun.print (ascii "[")))
  forEach (printLog format) mrNums
  update (PrintRun.print (ascii "\n"))
  pure 0

/-! ## Records as JSON objects -/

/-- The records logged for a register, in order. -/
def loggedFor (evlog : List (LogEntry 48)) (index : Nat) : List (LogEntry 48) :=
  evlog.filter (·.index = index)

/-- What a record says. -/
def recordValue (e : LogEntry 48) : Json.Value :=
  .object [(ascii "type", .string (ascii "TDX Reference Value")),
    (ascii "subtype", .string e.name),
    (ascii "index", .number (decText e.index)),
    (ascii "sha384", .string (hexText e.hash.val)),
    (ascii "description", .string (indexToMr e.index ++ ascii ": " ++ e.desc))]

/-- A record of one of the registers whose texts need no escapes and fit the buffer. -/
structure PlainRecord (e : LogEntry 48) : Prop where
  index_lt : e.index < mrLen
  name : Json.Unescaped e.name
  desc : Json.Unescaped e.desc
  fits : (formatRecord e .json).length < recordSize

/-- The record without the comma and the newline behind it. -/
def recordObject (e : LogEntry 48) : Bytes :=
  let line (key text : Bytes) : Bytes := Json.member (ascii "\n\t") key text
  123 :: line (ascii "type") (Json.quoted (ascii "TDX Reference Value") ++ 44 ::
    line (ascii "subtype") (Json.quoted e.name ++ 44 ::
    line (ascii "index") (decText e.index ++ 44 ::
    line (ascii "sha384") (Json.quoted (hexText e.hash.val) ++ 44 ::
    line (ascii "description")
      (Json.quoted (indexToMr e.index ++ ascii ": " ++ e.desc) ++ ascii "\n" ++ [125])))))

theorem formatRecord_json (e : LogEntry 48) :
    formatRecord e .json = recordObject e ++ 44 :: [10] := by
  simp [formatRecord, recordObject, Json.member, Json.quoted, ascii]

theorem indexToMr_plain (index : Nat) : Json.Plain (indexToMr index) := by
  unfold indexToMr
  split_ifs <;> decide

theorem recordObject_reads {e : LogEntry 48} (h : PlainRecord e) :
    Json.Reads 7 (recordObject e) (recordValue e) := by
  have hline : Json.Blank (ascii "\n\t") := by decide
  have htype : Json.Unescaped (ascii "TDX Reference Value") := by decide
  have hdesc : Json.Unescaped (indexToMr e.index ++ ascii ": " ++ e.desc) :=
    ((indexToMr_plain e.index).unescaped.append (by decide)).append h.desc
  have hone := Json.ReadsMembers.last (ascii "description") (ascii "\n") hline (by decide)
    (Json.Reads.string hdesc) (by decide)
  have htwo := hone.cons (ascii "sha384") hline (by decide)
    ((Json.Reads.string (Json.plain_hexText e.hash.val).unescaped).mono (by decide))
  have hthree := htwo.cons (ascii "index") hline (by decide)
    ((Json.reads_decText e.index).mono (by decide))
  have hfour := hthree.cons (ascii "subtype") hline (by decide)
    ((Json.Reads.string h.name).mono (by decide))
  have hfive := hfour.cons (ascii "type") hline (by decide)
    ((Json.Reads.string htype).mono (by decide))
  exact hfive.object hline

/-- The strings of a record are UTF-8. -/
def Utf8Record (e : LogEntry 48) : Prop :=
  Json.isUtf8 e.name = true ∧ Json.isUtf8 e.desc = true

/-- The rest of an object is ASCII. -/
theorem isUtf8_recordObject (e : LogEntry 48) :
    Json.isUtf8 (recordObject e) = true ↔ Utf8Record e := by
  have hcomma : (44 : UInt8) < 0x80 := by decide
  have hline : Json.isUtf8 (ascii "\n\t") = true := by decide
  have hkeys : Json.isUtf8 (ascii "type") = true ∧ Json.isUtf8 (ascii "subtype") = true ∧
      Json.isUtf8 (ascii "index") = true ∧ Json.isUtf8 (ascii "sha384") = true ∧
      Json.isUtf8 (ascii "description") = true := by decide
  obtain ⟨htype, hsubtype, hindex, hsha384, hdescription⟩ := hkeys
  have hvalue : Json.isUtf8 (ascii "TDX Reference Value") = true := by decide
  have hlabel : Json.isUtf8 (indexToMr e.index ++ ascii ": ") = true :=
    ((indexToMr_plain e.index).append (by decide)).utf8
  have hend : ∀ text : Bytes, Json.isUtf8 (Json.quoted text ++ ascii "\n" ++ [125]) =
      Json.isUtf8 text := by
    intro text
    have hbreak : (10 : UInt8) < 0x80 := by decide
    rw [List.append_assoc]
    show Json.isUtf8 (Json.quoted text ++ 10 :: [125]) = _
    rw [Json.isUtf8_split hbreak, Json.isUtf8_quoted]
    exact Bool.and_true _
  have hopen : ∀ text : Bytes, Json.isUtf8 (123 :: text) = Json.isUtf8 text :=
    Json.isUtf8_cons (by decide)
  rw [recordObject, hopen]
  simp only [Json.isUtf8_member hline, Json.isUtf8_quoted, Json.isUtf8_split hcomma, htype,
    hsubtype, hindex, hsha384, hdescription, hvalue, (Json.plain_decText e.index).utf8,
    (Json.plain_hexText e.hash.val).utf8, hend, Json.isUtf8_append hlabel, Bool.true_and,
    Bool.and_eq_true]
  exact Iff.rfl

theorem recordObject_brace (e : LogEntry 48) : (recordObject e).head? = some 123 := rfl

theorem recordObject_length (e : LogEntry 48) : 7 ≤ (recordObject e).length := by
  simp only [recordObject, Json.member, List.length_cons, List.length_append]
  omega

theorem recordText_json {e : LogEntry 48} (h : PlainRecord e) :
    recordText .json e = recordObject e ++ 44 :: [10] := by
  have hfits := h.fits
  rw [recordText, List.take_of_length_le (by omega), formatRecord_json]

/-! ## The collected texts -/

variable {evlog : List (LogEntry 48)}

theorem collectLogs_apply (format : Format) (evlog : List (LogEntry 48)) (index : Nat) :
    collectLogs format evlog index =
      if loggedFor evlog index = [] then none
      else some ((loggedFor evlog index).flatMap (recordText format)) :=
  appendedLogs_apply Logs.empty evlog index

/-- All records of a register, each with its comma. -/
def registerText (evlog : List (LogEntry 48)) (index : Nat) : Bytes :=
  Json.separated recordObject [10] (loggedFor evlog index)

theorem collectLogs_none {index : Nat} (format : Format) (h : loggedFor evlog index = []) :
    collectLogs format evlog index = none := by
  rw [collectLogs_apply, if_pos h]

theorem collectLogs_json {index : Nat} (hplain : ∀ e ∈ evlog, PlainRecord e)
    (h : loggedFor evlog index ≠ []) :
    collectLogs .json evlog index = some (registerText evlog index) := by
  rw [collectLogs_apply, if_neg h]
  refine congrArg some (List.flatMap_congr fun e he => ?_)
  exact recordText_json (hplain e (List.mem_filter.mp he).1)

theorem loggedFor_beyond {index : Nat} (hplain : ∀ e ∈ evlog, PlainRecord e)
    (h : mrLen ≤ index) : loggedFor evlog index = [] := by
  refine List.filter_eq_nil_iff.mpr fun e he => ?_
  have hlt := (hplain e he).index_lt
  rw [decide_eq_true_eq]
  omega

/-- The register with the highest index of those something was logged for. -/
structure HighestLogged (evlog : List (LogEntry 48)) (index : Nat) : Prop where
  logged : loggedFor evlog index ≠ []
  above : ∀ k, index < k → loggedFor evlog k = []

theorem HighestLogged.unique {i j : Nat} (hi : HighestLogged evlog i)
    (hj : HighestLogged evlog j) : i = j := by
  rcases Nat.lt_trichotomy i j with hlt | heq | hlt
  · exact absurd (hi.above j hlt) hj.logged
  · exact heq
  · exact absurd (hj.above i hlt) hi.logged

theorem lastEntryJson_iff {index : Nat} (hplain : ∀ e ∈ evlog, PlainRecord e)
    (h : loggedFor evlog index ≠ []) :
    lastEntryJson .json (collectLogs .json evlog) index = true ↔ HighestLogged evlog index := by
  have hlt : index < mrLen := by
    by_contra hge
    exact h (loggedFor_beyond hplain (Nat.le_of_not_lt hge))
  have hnone : ∀ i, (collectLogs .json evlog i).isNone = true ↔ loggedFor evlog i = [] := by
    intro i
    rw [collectLogs_apply]
    split_ifs with hi <;> simp [hi]
  unfold lastEntryJson
  rw [if_neg (fun hne => hne rfl)]
  split_ifs with hlast
  · refine ⟨fun _ => ⟨h, fun k hk => loggedFor_beyond hplain ?_⟩, fun _ => rfl⟩
    unfold mrLen at hlast ⊢
    omega
  · simp only [List.all_eq_true, List.mem_range, Bool.or_eq_true, decide_eq_true_eq, hnone]
    constructor
    · intro hall
      refine ⟨h, fun k hk => ?_⟩
      by_cases hk6 : k < mrLen
      · exact (hall k hk6).resolve_left (by omega)
      · exact loggedFor_beyond hplain (Nat.le_of_not_lt hk6)
    · intro hhigh i _
      rcases Nat.lt_or_ge index i with hi | hi
      · exact Or.inr (hhigh.above i hi)
      · exact Or.inl hi

/-! ## One register -/

@[simp] theorem PrintRun.print_logs (text : Bytes) (s : PrintRun) :
    (s.print text).logs = s.logs := rfl
@[simp] theorem PrintRun.print_out (text : Bytes) (s : PrintRun) :
    (s.print text).out = s.out ++ text := rfl

theorem PrintRun.print_print (a b : Bytes) (s : PrintRun) :
    (s.print a).print b = s.print (a ++ b) := by
  unfold PrintRun.print
  rw [List.append_assoc]

theorem PrintRun.print_nil (s : PrintRun) : s.print [] = s := by
  unfold PrintRun.print
  rw [List.append_nil]

theorem printLog_none {format : Format} {index : Nat} {s : PrintRun} (h : s.logs index = none) :
    printLog format index s = .next () s := by
  unfold printLog
  simp only [bind_apply, getState_apply, andThen_next, h, pure_apply]

theorem printLog_some {format : Format} {index : Nat} {text : Bytes} {s : PrintRun}
    (h : s.logs index = some text) : printLog format index s =
      if lastEntryJson format s.logs index then
        if text.length < 2 then .stop .fault
        else
          let closed := text.take (text.length - 2) ++ ascii "]"
          .next () ((s.setLog index closed).print closed)
      else .next () (s.print text) := by
  unfold printLog
  simp only [bind_apply, getState_apply, andThen_next, h]
  cases hlast : lastEntryJson format s.logs index with
  | false =>
      simp only [when, Bool.false_eq_true, if_false, pure_apply, andThen_next, update_apply, h]
      rfl
  | true =>
      by_cases hshort : text.length < 2
      · simp [when, closeLog, hshort]
      · simp [when, closeLog, hshort, PrintRun.setLog]

/-- A register that is not the highest one is printed with all its commas. -/
theorem printLog_open {index : Nat} {s : PrintRun} (hplain : ∀ e ∈ evlog, PlainRecord e)
    (hlogs : s.logs = collectLogs .json evlog) (h : ¬HighestLogged evlog index) :
    printLog .json index s = .next () (s.print (registerText evlog index)) := by
  by_cases hnil : loggedFor evlog index = []
  · rw [printLog_none (hlogs ▸ collectLogs_none .json hnil), registerText, hnil]
    exact congrArg _ (s.print_nil).symm
  · rw [printLog_some (hlogs ▸ collectLogs_json hplain hnil), hlogs,
      if_neg fun hlast => h ((lastEntryJson_iff hplain hnil).mp hlast)]

theorem printLog_forEach_open {mrNums : List Nat} {s : PrintRun}
    (hplain : ∀ e ∈ evlog, PlainRecord e) (hlogs : s.logs = collectLogs .json evlog)
    (h : ∀ m ∈ mrNums, ¬HighestLogged evlog m) : forEach (printLog .json) mrNums s =
      .next () (s.print (Json.separated recordObject [10] (mrNums.flatMap (loggedFor evlog)))) := by
  induction mrNums generalizing s with
  | nil => exact congrArg _ (s.print_nil).symm
  | cons m mrNums ih =>
      have hm := printLog_open hplain hlogs (h m List.mem_cons_self)
      change (printLog .json m >>= fun _ => forEach (printLog .json) mrNums) s = _
      rw [bind_apply, hm, andThen_next,
        ih (by exact hlogs) fun k hk => h k (List.mem_cons_of_mem m hk), PrintRun.print_print,
        List.flatMap_cons, Json.separated_append]
      rfl

/-- The text the highest register leaves: its last comma is the bracket. -/
def closedText (xs : List (LogEntry 48)) (last : LogEntry 48) : Bytes :=
  Json.separated recordObject [10] xs ++ (recordObject last ++ [93])

theorem printLog_closed {index : Nat} {s : PrintRun} {xs : List (LogEntry 48)}
    {last : LogEntry 48} (hplain : ∀ e ∈ evlog, PlainRecord e)
    (hlogs : s.logs = collectLogs .json evlog) (h : HighestLogged evlog index)
    (hxs : loggedFor evlog index = xs ++ [last]) : printLog .json index s =
      .next () ((s.setLog index (closedText xs last)).print (closedText xs last)) := by
  have hlast := (lastEntryJson_iff hplain h.logged).mpr h
  have htext : registerText evlog index =
      Json.separated recordObject [10] xs ++ recordObject last ++ [44, 10] := by
    rw [registerText, hxs, Json.separated_append, Json.separated_cons, List.append_assoc]
    rfl
  have hlength : (registerText evlog index).length =
      (Json.separated recordObject [10] xs ++ recordObject last).length + 2 := by
    rw [htext, List.length_append]
    rfl
  have hclosed : (registerText evlog index).take ((registerText evlog index).length - 2) ++
      ascii "]" = closedText xs last := by
    rw [hlength, Nat.add_sub_cancel, htext, List.take_left, closedText, List.append_assoc]
    rfl
  rw [printLog_some (hlogs ▸ collectLogs_json hplain h.logged), hlogs, if_pos hlast,
    if_neg (by omega), hclosed]

/-- Whatever is printed from a string that begins with a brace begins with one. -/
theorem printLog_brace {format : Format} {index : Nat} {s : PrintRun} {text : Bytes}
    (h : s.logs index = some (123 :: text)) (hlength : 2 ≤ text.length) :
    ∃ t tail, printLog format index s = .next () t ∧ t.out = s.out ++ 123 :: tail := by
  rw [printLog_some h]
  split_ifs with hlast hshort
  · rw [List.length_cons] at hshort
    omega
  · have htake : (123 :: text).take ((123 :: text).length - 2) =
        123 :: text.take (text.length - 2) := by
      rw [List.length_cons, show text.length + 1 - 2 = (text.length - 2) + 1 by omega,
        List.take_succ_cons]
    rw [htake]
    exact ⟨_, _, rfl, rfl⟩
  · exact ⟨_, _, rfl, rfl⟩

/-- The output begins with `done`. -/
def Printed (done : Bytes) (s : PrintRun) : Prop := ∃ tail, s.out = done ++ tail

theorem Printed.print {done : Bytes} {s : PrintRun} (h : Printed done s) (text : Bytes) :
    Printed done (s.print text) := by
  obtain ⟨tail, htail⟩ := h
  exact ⟨tail ++ text, by rw [PrintRun.print_out, htail, List.append_assoc]⟩

/-- What stands in the output stays there. -/
theorem printLog_preserves (format : Format) (index : Nat) (done : Bytes) :
    Preserves (Printed done) (printLog format index) := by
  intro s hs
  unfold wlp
  cases htext : s.logs index with
  | none =>
      rw [printLog_none htext]
      exact hs
  | some text =>
      rw [printLog_some htext]
      split_ifs
      · trivial
      · have hset : Printed done (s.setLog index (text.take (text.length - 2) ++ ascii "]")) := hs
        exact hset.print _
      · exact hs.print text

/-! ## The whole event log -/

/-- The event log is printed as the JSON array of the records of the registers asked
for, in that order. -/
def PrintsArray (evlog : List (LogEntry 48)) (mrNums : List Nat) : Prop :=
  ∃ t, run (printEventLog .json mrNums) ⟨collectLogs .json evlog, []⟩ = .ok (0, t) ∧
    Json.parse t.out = some (.array ((mrNums.flatMap (loggedFor evlog)).map recordValue))

/-- The highest register something was logged for is asked for, and after it no
register with records, so that it comes only once. -/
def HighestRequestedLast (evlog : List (LogEntry 48)) (mrNums : List Nat) : Prop :=
  ∃ pre m post, mrNums = pre ++ m :: post ∧ HighestLogged evlog m ∧ m ∉ pre ∧
    ∀ k ∈ post, loggedFor evlog k = []

theorem printEventLog_eq (mrNums : List Nat) (s : PrintRun) :
    run (printEventLog .json mrNums) s =
      run (do forEach (printLog .json) mrNums; update (PrintRun.print (ascii "\n")); pure 0)
        (s.print (ascii "[")) := rfl

/-- Without the highest register the bracket is never closed. -/
theorem printEventLog_unclosed {mrNums : List Nat} (hplain : ∀ e ∈ evlog, PlainRecord e)
    (h : ∀ m ∈ mrNums, ¬HighestLogged evlog m) : ¬PrintsArray evlog mrNums := by
  rintro ⟨t, hrun, hparse⟩
  have hloop := printLog_forEach_open (s := PrintRun.print (ascii "[")
    ⟨collectLogs .json evlog, []⟩) hplain rfl h
  rw [printEventLog_eq] at hrun
  unfold run at hrun
  rw [bind_apply, hloop] at hrun
  obtain rfl := (Prod.mk.inj (Except.ok.inj hrun)).2
  have hrecord : ∀ e ∈ mrNums.flatMap (loggedFor evlog), PlainRecord e := by
    intro e he
    obtain ⟨m, -, hm⟩ := List.mem_flatMap.mp he
    exact hplain e (List.mem_filter.mp hm).1
  have hnone : Json.document (91 :: (Json.separated recordObject [10]
      (mrNums.flatMap (loggedFor evlog)) ++ [10])) = none :=
    Json.document_unclosed (by decide) (by decide) _ (fun e he => recordObject_reads (hrecord e he))
      (fun e _ => recordObject_brace e) fun e _ => recordObject_length e
  have hdocument := (Json.parse_eq_some.mp hparse).2
  change Json.document (91 :: (Json.separated recordObject [10]
      (mrNums.flatMap (loggedFor evlog)) ++ [10])) = _ at hdocument
  rw [hnone] at hdocument
  cases hdocument

/-- The run behind the first turn of the highest register. -/
def closedRun (evlog : List (LogEntry 48)) (pre : List Nat) (m : Nat) (xs : List (LogEntry 48))
    (last : LogEntry 48) : PrintRun :=
  (PrintRun.setLog m (closedText xs last) ⟨collectLogs .json evlog,
    91 :: Json.separated recordObject [10] (pre.flatMap (loggedFor evlog))⟩).print
      (closedText xs last)

theorem printEventLog_closedRun {pre post : List Nat} {m : Nat} {xs : List (LogEntry 48)}
    {last : LogEntry 48} (hplain : ∀ e ∈ evlog, PlainRecord e) (h : HighestLogged evlog m)
    (hpre : m ∉ pre) (hxs : loggedFor evlog m = xs ++ [last]) :
    run (printEventLog .json (pre ++ m :: post)) ⟨collectLogs .json evlog, []⟩ =
      run (do forEach (printLog .json) post; update (PrintRun.print (ascii "\n")); pure 0)
        (closedRun evlog pre m xs last) := by
  have hopen : ∀ k ∈ pre, ¬HighestLogged evlog k := by
    intro k hk hhigh
    exact hpre (h.unique hhigh ▸ hk)
  have hloop := printLog_forEach_open (s := PrintRun.print (ascii "[")
    ⟨collectLogs .json evlog, []⟩) hplain rfl hopen
  rw [printEventLog_eq]
  refine run_bind_of_eq ?_ _
  rw [forEach_append, bind_apply, hloop, andThen_next]
  change (printLog .json m >>= fun _ => forEach (printLog .json) post) _ = _
  rw [bind_apply, printLog_closed hplain (by rfl) h hxs, andThen_next]
  rfl

section ClosedRun

variable {m : Nat} {xs : List (LogEntry 48)} {last : LogEntry 48}

theorem flatMap_loggedFor (pre : List Nat) (hxs : loggedFor evlog m = xs ++ [last]) :
    (pre ++ [m]).flatMap (loggedFor evlog) = pre.flatMap (loggedFor evlog) ++ xs ++ [last] := by
  rw [List.flatMap_append, List.flatMap_singleton, hxs, List.append_assoc]

theorem closedRun_out (pre : List Nat) (xs : List (LogEntry 48)) (last : LogEntry 48)
    (rest : Bytes) : (closedRun evlog pre m xs last).out ++ rest =
      91 :: (Json.separated recordObject [10] (pre.flatMap (loggedFor evlog) ++ xs) ++
        (recordObject last ++ 93 :: rest)) := by
  simp [closedRun, closedText, PrintRun.setLog, Json.separated_append]

theorem closedRun_document (pre : List Nat) (hplain : ∀ e ∈ evlog, PlainRecord e)
    (hxs : loggedFor evlog m = xs ++ [last]) (rest : Bytes) :
    Json.document ((closedRun evlog pre m xs last).out ++ rest) =
      if Json.skipSpace rest = [] then
        some (.array (((pre ++ [m]).flatMap (loggedFor evlog)).map recordValue)) else none := by
  have hrecord : ∀ e ∈ pre.flatMap (loggedFor evlog) ++ xs ++ [last], PlainRecord e := by
    intro e he
    rw [← flatMap_loggedFor pre hxs] at he
    obtain ⟨k, -, hk⟩ := List.mem_flatMap.mp he
    exact hplain e (List.mem_filter.mp hk).1
  rw [closedRun_out, flatMap_loggedFor pre hxs]
  exact Json.document_separated (by decide) _ last rest
    (fun e he => recordObject_reads (hrecord e he)) (fun e _ => recordObject_brace e)
    (recordObject_length last)

/-- The array is UTF-8 as far as the strings of its records are. -/
theorem closedRun_utf8 (pre : List Nat) (hxs : loggedFor evlog m = xs ++ [last]) :
    Json.isUtf8 ((closedRun evlog pre m xs last).out ++ [10]) = true ↔
      ∀ e ∈ (pre ++ [m]).flatMap (loggedFor evlog), Utf8Record e := by
  have hbracket : (91 : UInt8) < 0x80 := by decide
  have hclose : (93 : UInt8) < 0x80 := by decide
  have hbreak : Json.isUtf8 [10] = true := by decide
  rw [flatMap_loggedFor pre hxs, @List.forall_mem_append _ _ _ [last], List.forall_mem_singleton,
    closedRun_out, Json.isUtf8_cons hbracket, Json.isUtf8_separated hbreak,
    Json.isUtf8_split hclose, hbreak, Bool.and_true, Bool.and_eq_true, List.all_eq_true]
  exact and_congr (forall₂_congr fun e _ => isUtf8_recordObject e) (isUtf8_recordObject last)

end ClosedRun

theorem recordObject_append (e : LogEntry 48) (rest : Bytes) :
    ∃ text, recordObject e ++ rest = 123 :: text ∧ 2 ≤ text.length := by
  have hlength := recordObject_length e
  obtain ⟨tail, htail⟩ := List.head?_eq_some_iff.mp (recordObject_brace e)
  rw [htail, List.length_cons] at hlength
  refine ⟨tail ++ rest, by rw [htail, List.cons_append], ?_⟩
  rw [List.length_append]
  omega

theorem separated_brace (xs : List (LogEntry 48)) (last : LogEntry 48) (rest : Bytes) :
    ∃ text, Json.separated recordObject [10] xs ++ (recordObject last ++ rest) = 123 :: text ∧
      2 ≤ text.length := by
  cases xs with
  | nil => exact recordObject_append last rest
  | cons e xs =>
      rw [Json.separated_cons, List.append_assoc]
      exact recordObject_append e _

/-- The strings with a record still begin with a brace. -/
theorem closedRun_logs {pre : List Nat} {m k : Nat} (xs : List (LogEntry 48))
    (last : LogEntry 48) (hplain : ∀ e ∈ evlog, PlainRecord e) (hk : loggedFor evlog k ≠ []) :
    ∃ text, (closedRun evlog pre m xs last).logs k = some (123 :: text) ∧ 2 ≤ text.length := by
  change ∃ text, (if k = m then some (closedText xs last) else collectLogs .json evlog k) =
    some (123 :: text) ∧ 2 ≤ text.length
  by_cases hkm : k = m
  · obtain ⟨text, htext, hlength⟩ := separated_brace xs last [93]
    exact ⟨text, by rw [if_pos hkm, closedText, htext], hlength⟩
  · obtain ⟨e, es, hes⟩ := List.exists_cons_of_ne_nil hk
    obtain ⟨text, htext, hlength⟩ := recordObject_append e
      (44 :: ([10] ++ Json.separated recordObject [10] es))
    refine ⟨text, ?_, hlength⟩
    rw [if_neg hkm, collectLogs_json hplain hk, registerText, hes, Json.separated_cons, htext]

theorem closedRun_none {pre : List Nat} {m k : Nat} (xs : List (LogEntry 48))
    (last : LogEntry 48) (h : HighestLogged evlog m) (hk : loggedFor evlog k = []) :
    printLog .json k (closedRun evlog pre m xs last) =
      .next () (closedRun evlog pre m xs last) := by
  have hkm : k ≠ m := by
    rintro rfl
    exact h.logged hk
  refine printLog_none ?_
  change (if k = m then some (closedText xs last) else collectLogs .json evlog k) = none
  rw [if_neg hkm, collectLogs_none .json hk]

/-- Registers without records are passed over. -/
theorem closedRun_skip {pre post : List Nat} {m : Nat} (xs : List (LogEntry 48))
    (last : LogEntry 48) (h : HighestLogged evlog m)
    (hpost : ∀ k ∈ post, loggedFor evlog k = []) :
    forEach (printLog .json) post (closedRun evlog pre m xs last) =
      .next () (closedRun evlog pre m xs last) := by
  induction post with
  | nil => rfl
  | cons k post ih =>
      change (printLog .json k >>= fun _ => forEach (printLog .json) post) _ = _
      rw [bind_apply, closedRun_none xs last h (hpost k List.mem_cons_self), andThen_next]
      exact ih fun j hj => hpost j (List.mem_cons_of_mem k hj)

theorem HighestLogged.exists_last {m : Nat} (h : HighestLogged evlog m) :
    ∃ xs last, loggedFor evlog m = xs ++ [last] :=
  ⟨_, _, (List.dropLast_append_getLast h.logged).symm⟩

/-- What is printed where the highest register comes last. -/
theorem printEventLog_closed {pre post : List Nat} {m : Nat}
    (hplain : ∀ e ∈ evlog, PlainRecord e) (h : HighestLogged evlog m) (hpre : m ∉ pre)
    (hpost : ∀ k ∈ post, loggedFor evlog k = []) :
    ∃ t, run (printEventLog .json (pre ++ m :: post)) ⟨collectLogs .json evlog, []⟩ = .ok (0, t) ∧
      Json.document t.out =
        some (.array (((pre ++ m :: post).flatMap (loggedFor evlog)).map recordValue)) ∧
      (Json.isUtf8 t.out = true ↔
        ∀ e ∈ (pre ++ m :: post).flatMap (loggedFor evlog), Utf8Record e) := by
  obtain ⟨xs, last, hxs⟩ := h.exists_last
  have hrequest : (pre ++ m :: post).flatMap (loggedFor evlog) =
      (pre ++ [m]).flatMap (loggedFor evlog) := by
    have hnil : post.flatMap (loggedFor evlog) = [] := List.flatMap_eq_nil_iff.mpr hpost
    rw [List.append_cons, List.flatMap_append, hnil, List.append_nil]
  refine ⟨(closedRun evlog pre m xs last).print (ascii "\n"), ?_, ?_, ?_⟩
  · rw [printEventLog_closedRun hplain h hpre hxs]
    unfold run
    rw [bind_apply, closedRun_skip xs last h hpost]
    rfl
  · rw [hrequest]
    exact closedRun_document pre hplain hxs [10]
  · rw [hrequest]
    exact closedRun_utf8 pre hxs

/-- A register with records behind the highest one is printed after the bracket. -/
theorem closedRun_overrun (pre : List Nat) {post : List Nat} {m : Nat} (xs : List (LogEntry 48))
    (last : LogEntry 48) (hplain : ∀ e ∈ evlog, PlainRecord e) (h : HighestLogged evlog m)
    (hpost : ∃ k ∈ post, loggedFor evlog k ≠ []) :
    wlp (forEach (printLog .json) post)
      (fun _ => Printed ((closedRun evlog pre m xs last).out ++ [123]))
      (fun _ => Printed ((closedRun evlog pre m xs last).out ++ [123]))
      (closedRun evlog pre m xs last) := by
  induction post with
  | nil =>
      obtain ⟨k, hk, -⟩ := hpost
      cases hk
  | cons k post ih =>
      refine wlp_bind ?_
      unfold wlp
      by_cases hk : loggedFor evlog k = []
      · rw [closedRun_none xs last h hk]
        obtain ⟨j, hj, hlogged⟩ := hpost
        rcases List.mem_cons.mp hj with rfl | hj
        · exact absurd hk hlogged
        · exact ih ⟨j, hj, hlogged⟩
      · obtain ⟨text, htext, hlength⟩ := closedRun_logs xs last hplain hk
        obtain ⟨t, tail, ht, hout⟩ := printLog_brace htext hlength
        have hprinted : Printed ((closedRun evlog pre m xs last).out ++ [123]) t :=
          ⟨tail, by rw [hout, List.append_assoc]; rfl⟩
        rw [ht]
        exact (Preserves.forEach post fun j _ => printLog_preserves .json j _) t hprinted

/-- What follows the closing bracket begins with a brace. -/
theorem printEventLog_overrun {pre post : List Nat} {m : Nat}
    (hplain : ∀ e ∈ evlog, PlainRecord e) (h : HighestLogged evlog m) (hpre : m ∉ pre)
    (hpost : ∃ k ∈ post, loggedFor evlog k ≠ []) : ¬PrintsArray evlog (pre ++ m :: post) := by
  obtain ⟨xs, last, hxs⟩ := h.exists_last
  rintro ⟨t, hrun, hparse⟩
  rw [printEventLog_closedRun hplain h hpre hxs] at hrun
  have hloop := closedRun_overrun pre xs last hplain h hpost
  have hend : Printed ((closedRun evlog pre m xs last).out ++ [123]) t := by
    refine run_of_wlp (Q := fun _ => Printed _) (wlp_bind ?_) hrun
    exact wlp_mono hloop (fun _ u hu => hu.print (ascii "\n")) fun _ _ he => he
  obtain ⟨tail, htail⟩ := hend
  have hdocument := (Json.parse_eq_some.mp hparse).2
  rw [htail, List.append_assoc, closedRun_document pre hplain hxs] at hdocument
  cases hdocument

/-- The JSON event log is one array of the records of the registers asked for exactly
when the highest register with records is asked for once and as the last with records, and
the strings of the records are UTF-8. -/
theorem eventlogJson_valid_iff (evlog : List (LogEntry 48)) (mrNums : List Nat)
    (hplain : ∀ e ∈ evlog, PlainRecord e) :
    PrintsArray evlog mrNums ↔ HighestRequestedLast evlog mrNums ∧
      ∀ e ∈ mrNums.flatMap (loggedFor evlog), Utf8Record e := by
  constructor
  · intro hprints
    by_cases hhigh : ∃ m ∈ mrNums, HighestLogged evlog m
    · obtain ⟨m, hm, h⟩ := hhigh
      obtain ⟨pre, post, rfl, hpre⟩ := List.eq_append_cons_of_mem hm
      have hpost : ∀ k ∈ post, loggedFor evlog k = [] := by
        intro k hk
        by_contra hlogged
        exact printEventLog_overrun hplain h hpre ⟨k, hk, hlogged⟩ hprints
      obtain ⟨t, hrun, -, hutf8⟩ := printEventLog_closed hplain h hpre hpost
      obtain ⟨u, hu, hparse⟩ := hprints
      obtain rfl : t = u := (Prod.mk.inj (Except.ok.inj (hrun.symm.trans hu))).2
      exact ⟨⟨pre, m, post, rfl, h, hpre, hpost⟩,
        hutf8.mp (Json.parse_eq_some.mp hparse).1⟩
    · exact absurd hprints (printEventLog_unclosed hplain fun m hm h => hhigh ⟨m, hm, h⟩)
  · rintro ⟨⟨pre, m, post, rfl, h, hpre, hpost⟩, hstrings⟩
    obtain ⟨t, hrun, hdocument, hutf8⟩ := printEventLog_closed hplain h hpre hpost
    exact ⟨t, hrun, Json.parse_eq_some.mpr ⟨hutf8.mpr hstrings, hdocument⟩⟩

/-- The separator's record, with a short description. -/
def separatorRecord : LogEntry 48 :=
  ⟨indexRtmr0, ascii "EV_SEPARATOR", zeroDigest 48, ascii "HASH(0000)"⟩

theorem eventlogJson_valid_iff_separator :
    PrintsArray [separatorRecord] [indexRtmr0, indexRtmr3] ↔
      HighestRequestedLast [separatorRecord] [indexRtmr0, indexRtmr3] ∧
        ∀ e ∈ [indexRtmr0, indexRtmr3].flatMap (loggedFor [separatorRecord]), Utf8Record e := by
  refine eventlogJson_valid_iff [separatorRecord] [indexRtmr0, indexRtmr3] fun e he => ?_
  obtain rfl := List.mem_singleton.mp he
  exact ⟨by decide, by decide, by decide, by decide +kernel⟩

/-- RTMR3 alone: nothing is logged, and the bracket stays open. -/
theorem eventlogJson_invalid_rtmr3 :
    run calculateRtmr3 ⟨zeroDigest 48, []⟩ = .ok (0, ⟨zeroDigest 48, []⟩) ∧
      ¬PrintsArray [] [indexRtmr3] := by
  refine ⟨rfl, ?_⟩
  rintro ⟨t, hrun, hparse⟩
  have hout : t = ⟨Logs.empty, ascii "[\n"⟩ := (Prod.mk.inj (Except.ok.inj hrun)).2.symm
  subst hout
  have hnone : Json.parse (ascii "[\n") = none := by decide
  rw [hnone] at hparse
  cases hparse

end MeasuredBoot.Tdx
