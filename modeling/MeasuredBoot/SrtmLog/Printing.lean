import MeasuredBoot.SrtmLog.Program

/-! # Printing the event logs

The block of `main` for `--eventlog`, over event logs made of complete records. In front
of the last one it prints, `main` replaces the second last character by a newline and cuts
off the last one, in both formats.
-/

namespace MeasuredBoot.SrtmLog

open Binary Imperative Imperative.Proc

/-! ## What the loop prints -/

section Loop

/-- No register of the list has an event log. -/
def AllEmpty (log : Nat → Option Bytes) (nums : List UInt32) : Prop :=
  ∀ num ∈ nums, log num.toNat = none

/-- The event logs of the registers, one after the other. -/
def logTexts (log : Nat → Option Bytes) (nums : List UInt32) : Bytes :=
  nums.flatMap fun num => (log num.toNat).getD []

/-- What is left of the last text. -/
def ended (text : Bytes) : Bytes := text.take (text.length - 2) ++ ascii "\n"

variable {nums : List UInt32}

theorem isLast_eq (h : ∀ num ∈ nums, num.toNat < maxPcrs) (s : MainRun) :
    isLast none nums s = .next (nums.all fun num => (s.cb.eventlog num.toNat).isNone) s := by
  induction nums with
  | nil => rfl
  | cons num nums ih =>
      have hrest := ih fun other hother => h other (List.mem_cons_of_mem num hother)
      rw [isLast, subscript_of_lt none (h num List.mem_cons_self), pure_bind, bind_apply,
        getState_apply, andThen_next, bind_apply, hrest, andThen_next, List.all_cons]
      rfl

theorem all_isNone {log : Nat → Option Bytes} :
    (nums.all fun num => (log num.toNat).isNone) = true ↔ AllEmpty log nums := by
  simp [AllEmpty, List.all_eq_true]

theorem printLogs_allEmpty (h : ∀ num ∈ nums, num.toNat < maxPcrs) {s : MainRun}
    (hempty : AllEmpty s.cb.eventlog nums) : printLogs none nums s = .next () s := by
  induction nums with
  | nil => rfl
  | cons num nums ih =>
      have hrest := ih (fun other hother => h other (List.mem_cons_of_mem num hother))
        fun other hother => hempty other (List.mem_cons_of_mem num hother)
      rw [printLogs, subscript_of_lt none (h num List.mem_cons_self), bind_apply,
        isLast_eq fun other hother => h other (List.mem_cons_of_mem num hother), andThen_next,
        pure_bind, bind_apply, getState_apply, andThen_next, hempty num List.mem_cons_self]
      exact hrest

/-- Some event log is the last one, unless there is none. -/
theorem lastLog (log : Nat → Option Bytes) (nums : List UInt32) :
    AllEmpty log nums ∨ ∃ pre num post text, nums = pre ++ num :: post ∧
      log num.toNat = some text ∧ AllEmpty log post := by
  induction nums with
  | nil => exact Or.inl fun num hnum => absurd hnum List.not_mem_nil
  | cons num nums ih =>
      rcases ih with hempty | ⟨pre, last, post, text, rfl, htext, hpost⟩
      · cases hlog : log num.toNat with
        | none =>
            left
            intro other hother
            rcases List.mem_cons.mp hother with rfl | hother
            · exact hlog
            · exact hempty other hother
        | some text => exact Or.inr ⟨[], num, nums, text, rfl, hlog, hempty⟩
      · exact Or.inr ⟨num :: pre, last, post, text, rfl, htext, hpost⟩

theorem not_allEmpty {log : Nat → Option Bytes} {pre post : List UInt32} {num : UInt32}
    {text : Bytes} (htext : log num.toNat = some text) :
    ¬AllEmpty log (pre ++ num :: post) := by
  intro hempty
  have hnone := hempty num (List.mem_append_right pre List.mem_cons_self)
  rw [htext] at hnone
  cases hnone

/-- The registers without an event log have none after another one has changed. -/
theorem AllEmpty.update {log : Nat → Option Bytes} {num : UInt32} {text : Bytes}
    (h : AllEmpty log nums) (htext : log num.toNat = some text) (new : Option Bytes) :
    AllEmpty (Function.update log num.toNat new) nums := by
  intro other hother
  have hne : other.toNat ≠ num.toNat := by
    intro heq
    have hnone := h other hother
    rw [heq, htext] at hnone
    cases hnone
  rw [Function.update_of_ne hne]
  exact h other hother

theorem printLogs_last {post : List UInt32} {num : UInt32} {s : MainRun} {text : Bytes}
    (h : ∀ other ∈ num :: post, other.toNat < maxPcrs)
    (htext : s.cb.eventlog num.toNat = some text) (hpost : AllEmpty s.cb.eventlog post) :
    printLogs none (num :: post) s =
      if text.length < 2 then .stop .fault
      else .next () ((s.setLog num.toNat (ended text)).print (ended text)) := by
  have hpost' : ∀ other ∈ post, other.toNat < maxPcrs := fun other hother =>
    h other (List.mem_cons_of_mem num hother)
  have hlast : (post.all fun other => (s.cb.eventlog other.toNat).isNone) = true :=
    all_isNone.mpr hpost
  rw [printLogs, subscript_of_lt none (h num List.mem_cons_self), bind_apply, isLast_eq hpost',
    andThen_next, pure_bind, bind_apply, getState_apply, andThen_next, htext, hlast]
  dsimp only
  rw [Proc.when, if_pos rfl, endLog]
  split
  · rfl
  · have hrest : AllEmpty (s.setLog num.toNat (ended text)).cb.eventlog post :=
      hpost.update htext (some (ended text))
    have hget : ((s.setLog num.toNat (ended text)).cb.eventlog num.toNat).getD [] = ended text := by
      simp [MainRun.setLog]
    rw [bind_apply, update_apply, andThen_next, bind_apply, update_apply, andThen_next]
    rw [show text.take (text.length - 2) ++ ascii "\n" = ended text from rfl, hget]
    exact printLogs_allEmpty hpost' hrest

/-- In front of another event log, the one of a register is printed as it is. -/
theorem printLogs_front {rest : List UInt32} {num : UInt32} {s : MainRun}
    (h : ∀ other ∈ num :: rest, other.toNat < maxPcrs) (hrest : ¬AllEmpty s.cb.eventlog rest) :
    printLogs none (num :: rest) s =
      printLogs none rest (s.print (logTexts s.cb.eventlog [num])) := by
  have hrest' : ∀ other ∈ rest, other.toNat < maxPcrs := fun other hother =>
    h other (List.mem_cons_of_mem num hother)
  have hlast : (rest.all fun other => (s.cb.eventlog other.toNat).isNone) = false := by
    rw [Bool.eq_false_iff]
    exact mt all_isNone.mp hrest
  rw [printLogs, subscript_of_lt none (h num List.mem_cons_self), bind_apply, isLast_eq hrest',
    andThen_next, pure_bind, bind_apply, getState_apply, andThen_next]
  cases hlog : s.cb.eventlog num.toNat with
  | none => simp [logTexts, hlog, MainRun.print]
  | some text =>
      dsimp only
      rw [Proc.when, if_neg (by rw [hlast]; decide), pure_bind, bind_apply, update_apply,
        andThen_next]
      simp [logTexts, hlog]

/-- Every text but the last one is printed as it is. -/
theorem printLogs_eq {pre post : List UInt32} {num : UInt32} {s : MainRun} {text : Bytes}
    (h : ∀ other ∈ pre ++ num :: post, other.toNat < maxPcrs)
    (htext : s.cb.eventlog num.toNat = some text) (hpost : AllEmpty s.cb.eventlog post) :
    printLogs none (pre ++ num :: post) s =
      if text.length < 2 then .stop .fault
      else .next () (((s.print (logTexts s.cb.eventlog pre)).setLog num.toNat (ended text)).print
        (ended text)) := by
  induction pre generalizing s with
  | nil =>
      have hprint : s.print (logTexts s.cb.eventlog []) = s := by
        simp [MainRun.print, logTexts]
      rw [hprint]
      exact printLogs_last h htext hpost
  | cons other pre ih =>
      have hrest : ∀ x ∈ pre ++ num :: post, x.toNat < maxPcrs := fun x hx =>
        h x (List.mem_cons_of_mem other hx)
      have hsame : (s.print (logTexts s.cb.eventlog [other])).cb = s.cb := rfl
      rw [List.cons_append] at h ⊢
      rw [printLogs_front h (not_allEmpty htext),
        ih (s := s.print (logTexts s.cb.eventlog [other])) hrest htext hpost, hsame]
      simp [logTexts, MainRun.print, List.append_assoc]

end Loop

/-! ## Records -/

/-- An object that is read as this value, whatever follows it. -/
structure IsObject (object : Bytes) (value : Json.Value) : Prop where
  isObject : ∃ fields, value = .object fields
  reads : Json.Reads object.length object value
  opens : object.head? = some 123

/-- A complete record: in JSON an object with what follows each object. -/
def CompleteRecord (format : Format) (record : Bytes) : Prop :=
  match format with
  | .json => ∃ object value, IsObject object value ∧ record = object ++ objectClose
  | .text => record ≠ []

/-- What the block prints from: the registers asked for and the records in their event
logs. -/
structure PrintJob where
  format : Format
  nums : List UInt32
  records : Nat → List Bytes
  nums_lt : ∀ num ∈ nums, num.toNat < maxPcrs
  complete : ∀ pcr, ∀ record ∈ records pcr, CompleteRecord format record
  no_nul : ∀ pcr, ∀ record ∈ records pcr, (0 : UInt8) ∉ record

namespace PrintJob

/-- The event log of a register without records was never allocated. -/
def log (job : PrintJob) (pcr : Nat) : Option Bytes :=
  if job.records pcr = [] then none else some (job.records pcr).flatten

/-- The records of the registers asked for, in the order they were asked for. -/
def requested (job : PrintJob) : List Bytes := job.nums.flatMap fun num => job.records num.toNat

theorem log_getD (job : PrintJob) (pcr : Nat) :
    (job.log pcr).getD [] = (job.records pcr).flatten := by
  unfold log
  split
  · next hempty => rw [hempty]; rfl
  · rfl

theorem logTexts_log (job : PrintJob) (nums : List UInt32) :
    logTexts job.log nums = (nums.flatMap fun num => job.records num.toNat).flatten := by
  induction nums with
  | nil => rfl
  | cons num nums ih =>
      rw [logTexts, List.flatMap_cons, List.flatMap_cons, List.flatten_append, log_getD]
      exact congrArg _ ih

theorem allEmpty_log (job : PrintJob) (nums : List UInt32) :
    AllEmpty job.log nums ↔ ∀ num ∈ nums, job.records num.toNat = [] := by
  unfold AllEmpty log
  refine forall₂_congr fun num _ => ?_
  split <;> simp_all

end PrintJob

/-- The objects, with a comma behind each but the last. -/
def jsonLines : List Bytes → Bytes
  | [] => []
  | [object] => object ++ ascii "\n"
  | object :: rest => object ++ objectClose ++ jsonLines rest

/-- The output has every record asked for, in order: in JSON as the items of one array, which
is UTF-8 if they are, in text format as they stand in the event logs. -/
def Printed (job : PrintJob) (out : Bytes) : Prop :=
  match job.format with
  | .json => ∃ objects : List (Bytes × Json.Value),
      (∀ object ∈ objects, IsObject object.1 object.2) ∧
      job.requested = objects.map (fun object => object.1 ++ objectClose) ∧
      out = ascii "[" ++ jsonLines (objects.map Prod.fst) ++ ascii "]\n" ∧
      Json.document out = some (.array (objects.map Prod.snd)) ∧
      Json.isUtf8 out = (objects.map Prod.fst).all Json.isUtf8
  | .text => out = job.requested.flatten

/-- From every state with these event logs, the block prints every record. -/
def PrintsAll (job : PrintJob) : Prop :=
  ∀ (opts : Options) (s : MainRun), opts.format = job.format → opts.pcrNums = job.nums →
    s.cb.eventlog = job.log → s.out = [] →
      ∃ t, printEventlog none opts s = .next () t ∧ Printed job t.out

/-! ## JSON -/

theorem ended_append (before : Bytes) {text : Bytes} (h : 2 ≤ text.length) :
    ended (before ++ text) = before ++ ended text := by
  have hlen : (before ++ text).length - 2 = before.length + (text.length - 2) := by
    rw [List.length_append]
    omega
  rw [ended, hlen, List.take_append, List.take_of_length_le (by omega), Nat.add_sub_cancel_left,
    List.append_assoc]
  rfl

theorem ended_close (object : Bytes) : ended (object ++ objectClose) = object ++ ascii "\n" := by
  rw [ended_append object (by decide)]
  rfl

/-- Without the last comma the records are the items of an array. -/
theorem jsonLines_eq {objects : List Bytes} (h : objects ≠ []) :
    jsonLines objects = ended (objects.map (· ++ objectClose)).flatten := by
  induction objects with
  | nil => exact absurd rfl h
  | cons object rest ih =>
      cases rest with
      | nil =>
          rw [List.map_cons, List.map_nil, List.flatten_singleton, ended_close]
          rfl
      | cons next rest =>
          have hlong : 2 ≤ (((next :: rest).map (· ++ objectClose)).flatten).length := by
            rw [List.map_cons, List.flatten_cons, List.length_append, List.length_append]
            have hclose : objectClose.length = 2 := rfl
            omega
          rw [List.map_cons, List.flatten_cons, ended_append _ hlong,
            ← ih (List.cons_ne_nil next rest)]
          rfl

theorem jsonLines_concat (objects : List Bytes) (last : Bytes) :
    jsonLines (objects ++ [last])
      = Json.separated id [10] objects ++ (last ++ ascii "\n") := by
  induction objects with
  | nil => rfl
  | cons object objects ih =>
      have hstep : jsonLines (object :: (objects ++ [last]))
          = object ++ objectClose ++ jsonLines (objects ++ [last]) := by
        cases objects <;> rfl
      rw [List.cons_append, hstep, ih, Json.separated_cons]
      simp [objectClose, ascii]

theorem length_le_separated {objects : List (Bytes × Json.Value)} {object : Bytes × Json.Value}
    (h : object ∈ objects) :
    object.1.length ≤ (Json.separated Prod.fst [10] objects).length := by
  induction objects with
  | nil => exact absurd h List.not_mem_nil
  | cons first rest ih =>
      rw [Json.separated_cons, List.length_append, List.length_cons, List.length_append]
      rcases List.mem_cons.mp h with rfl | hrest
      · omega
      · have hle := ih hrest
        omega

theorem document_jsonLines (objects : List (Bytes × Json.Value))
    (h : ∀ object ∈ objects, IsObject object.1 object.2) :
    Json.document (ascii "[" ++ jsonLines (objects.map Prod.fst) ++ ascii "]\n")
      = some (.array (objects.map Prod.snd)) := by
  rcases List.eq_nil_or_concat objects with rfl | ⟨front, last, rfl⟩
  · rfl
  · rw [List.concat_eq_append] at h ⊢
    let k := (Json.separated Prod.fst [10] front).length + last.1.length
    have hlf : Json.Blank [10] := by decide
    have hreads : ∀ object ∈ front ++ [last], Json.Reads k object.1 object.2 := by
      intro object hobject
      apply (h object hobject).reads.mono
      rcases List.mem_append.mp hobject with hfront | hlast
      · exact Nat.le_add_right_of_le (length_le_separated hfront)
      · rw [List.mem_singleton.mp hlast]
        exact Nat.le_add_left _ _
    have hopens : ∀ object ∈ front ++ [last], object.1.head? = some 123 := fun object hobject =>
      (h object hobject).opens
    have hparse := Json.document_separated_of_le hlf hlf front last [10] hreads hopens
      (Nat.le_refl k)
    have hfront : Json.separated id [10] (front.map Prod.fst)
        = Json.separated Prod.fst [10] front := by
      rw [Json.separated, List.flatMap_map]
      rfl
    have hshape : ascii "[" ++ jsonLines ((front ++ [last]).map Prod.fst) ++ ascii "]\n"
        = 91 :: (Json.separated Prod.fst [10] front ++ (last.1 ++ ([10] ++ 93 :: [10]))) := by
      rw [List.map_append, List.map_cons, List.map_nil, jsonLines_concat, hfront]
      simp [ascii]
    rw [hshape, hparse]
    rfl

theorem isUtf8_jsonLines (objects : List Bytes) :
    Json.isUtf8 (ascii "[" ++ jsonLines objects ++ ascii "]\n") = objects.all Json.isUtf8 := by
  have hbracket : (91 : UInt8) < 0x80 := by decide
  have hbreak : (10 : UInt8) < 0x80 := by decide
  rcases List.eq_nil_or_concat objects with rfl | ⟨front, last, rfl⟩
  · rfl
  · have hshape : ascii "[" ++ jsonLines (front.concat last) ++ ascii "]\n" =
        91 :: (Json.separated id [10] front ++ (last ++ 10 :: [93, 10])) := by
      rw [List.concat_eq_append, jsonLines_concat]
      simp [ascii]
    rw [hshape, Json.isUtf8_cons hbracket, Json.isUtf8_separated (by decide),
      Json.isUtf8_split hbreak, List.concat_eq_append, List.all_append, List.all_cons]
    rfl

/-- The objects of complete JSON records. -/
theorem objects_of_complete {records : List Bytes}
    (h : ∀ record ∈ records, CompleteRecord .json record) :
    ∃ objects : List (Bytes × Json.Value), (∀ object ∈ objects, IsObject object.1 object.2) ∧
      records = objects.map fun object => object.1 ++ objectClose := by
  induction records with
  | nil => exact ⟨[], fun object hobject => absurd hobject List.not_mem_nil, rfl⟩
  | cons record records ih =>
      obtain ⟨objects, hobjects, hrecords⟩ :=
        ih fun other hother => h other (List.mem_cons_of_mem record hother)
      obtain ⟨object, value, hobject, hrecord⟩ := h record List.mem_cons_self
      have hall : ∀ other ∈ (object, value) :: objects, IsObject other.1 other.2 := by
        intro other hother
        rcases List.mem_cons.mp hother with rfl | hother
        · exact hobject
        · exact hobjects other hother
      exact ⟨(object, value) :: objects, hall, by rw [hrecords, hrecord, List.map_cons]⟩

/-! ## The block -/

namespace PrintJob

variable {job : PrintJob}

theorem requested_complete (job : PrintJob) :
    ∀ record ∈ job.requested, CompleteRecord job.format record := by
  intro record hrecord
  obtain ⟨num, _, hmem⟩ := List.mem_flatMap.mp hrecord
  exact job.complete num.toNat record hmem

theorem requested_eq_nil : job.requested = [] ↔ ∀ num ∈ job.nums, job.records num.toNat = [] :=
  List.flatMap_eq_nil_iff

/-- What the loop does with the texts of the records. -/
theorem printLogs_requested (job : PrintJob) :
    (job.requested = [] ∧ ∀ s : MainRun, s.cb.eventlog = job.log →
      printLogs none job.nums s = .next () s) ∨
    ∃ (before : Bytes) (pcr : Nat), job.requested.flatten = before ++ (job.records pcr).flatten ∧
      job.records pcr ≠ [] ∧ ∀ s : MainRun, s.cb.eventlog = job.log →
        printLogs none job.nums s =
          if (job.records pcr).flatten.length < 2 then .stop .fault
          else .next () (((s.print before).setLog pcr (ended (job.records pcr).flatten)).print
            (ended (job.records pcr).flatten)) := by
  rcases lastLog job.log job.nums with hempty | ⟨pre, num, post, text, hnums, htext, hpost⟩
  · left
    have hrequested := requested_eq_nil.mpr ((job.allEmpty_log job.nums).mp hempty)
    have hrun : ∀ s : MainRun, s.cb.eventlog = job.log →
        printLogs none job.nums s = .next () s := by
      intro s hlog
      exact printLogs_allEmpty job.nums_lt (hlog ▸ hempty)
    exact ⟨hrequested, hrun⟩
  · right
    have hrecords : job.records num.toNat ≠ [] ∧ (job.records num.toNat).flatten = text := by
      unfold log at htext
      split at htext
      · cases htext
      · next hne => exact ⟨hne, Option.some.inj htext⟩
    have hempty : (post.flatMap fun other => job.records other.toNat) = [] :=
      List.flatMap_eq_nil_iff.mpr ((job.allEmpty_log post).mp hpost)
    have hflat : job.requested.flatten = logTexts job.log pre ++ text := by
      rw [requested, hnums, List.flatMap_append, List.flatMap_cons, hempty, List.append_nil,
        List.flatten_append, hrecords.2, logTexts_log]
    have hrun : ∀ s : MainRun, s.cb.eventlog = job.log →
        printLogs none job.nums s =
          if text.length < 2 then .stop .fault
          else .next () (((s.print (logTexts job.log pre)).setLog num.toNat (ended text)).print
            (ended text)) := by
      intro s hlog
      have hnums_lt := job.nums_lt
      rw [hnums] at hnums_lt ⊢
      rw [← hlog] at htext hpost ⊢
      exact printLogs_eq hnums_lt htext hpost
    rw [← hrecords.2] at hflat hrun
    exact ⟨logTexts job.log pre, num.toNat, hflat, hrecords.1, hrun⟩

/-- The options and the state of `main` in front of the block. -/
def options (job : PrintJob) : Options :=
  { Options.start with format := job.format, pcrNums := job.nums }

def start (job : PrintJob) : MainRun where
  cb := { CbData.start job.format job.options.nums with eventlog := job.log }
  out := []

end PrintJob

theorem CompleteRecord.two_le {record : Bytes} (h : CompleteRecord .json record) :
    2 ≤ record.length := by
  obtain ⟨object, value, _, rfl⟩ := h
  rw [List.length_append]
  exact Nat.le_add_left 2 object.length

theorem printsAll_json {job : PrintJob} (h : job.format = .json) : PrintsAll job := by
  intro opts s hformat hnums hlog hout
  have hjson : opts.format = .json := hformat.trans h
  have hcomplete := job.requested_complete
  rw [h] at hcomplete
  obtain ⟨objects, hobjects, hrequested⟩ := objects_of_complete hcomplete
  have hparse := document_jsonLines objects hobjects
  have hprinted : ∀ t : MainRun, t.out = ascii "[" ++ jsonLines (objects.map Prod.fst) ++
      ascii "]\n" → Printed job t.out := by
    intro t ht
    rw [Printed, h, ht]
    exact ⟨objects, hobjects, hrequested, rfl, hparse, isUtf8_jsonLines _⟩
  have hblock : ∀ t, printLogs none job.nums (s.print (ascii "[")) = .next () t →
      printEventlog none opts s = .next () (t.print (ascii "]\n")) := by
    intro t ht
    rw [printEventlog, hjson, Proc.when, if_pos rfl, bind_apply, update_apply, andThen_next,
      hnums, bind_apply, ht]
    rfl
  rcases job.printLogs_requested with ⟨hnone, hrun⟩ | ⟨before, pcr, hflat, hne, hrun⟩
  · have hobjects : objects = [] := by
      rw [hnone] at hrequested
      exact List.map_eq_nil_iff.mp hrequested.symm
    have hout' : ((s.print (ascii "[")).print (ascii "]\n")).out
        = ascii "[" ++ jsonLines (objects.map Prod.fst) ++ ascii "]\n" := by
      rw [hobjects]
      simp [MainRun.print, hout, jsonLines]
    exact ⟨_, hblock _ (hrun _ hlog), hprinted _ hout'⟩
  · have hlong : 2 ≤ (job.records pcr).flatten.length := by
      obtain ⟨record, rest, hrecords⟩ := List.exists_cons_of_ne_nil hne
      have hrecord : CompleteRecord job.format record :=
        job.complete pcr record (hrecords ▸ List.mem_cons_self)
      rw [h] at hrecord
      rw [hrecords, List.flatten_cons, List.length_append]
      exact Nat.le_add_right_of_le hrecord.two_le
    have hlines : jsonLines (objects.map Prod.fst)
        = before ++ ended (job.records pcr).flatten := by
      have hobjects : objects.map Prod.fst ≠ [] := by
        intro hnil
        rw [List.map_eq_nil_iff.mp hnil] at hrequested
        rw [hrequested] at hflat
        have hlength := congrArg List.length hflat
        rw [List.length_append] at hlength
        simp only [List.map_nil, List.flatten_nil, List.length_nil] at hlength
        omega
      rw [jsonLines_eq hobjects, ← ended_append before hlong, ← hflat, hrequested, List.map_map]
      rfl
    have hnext := hrun (s.print (ascii "[")) hlog
    rw [if_neg (by omega)] at hnext
    refine ⟨_, hblock _ hnext, hprinted _ ?_⟩
    rw [hlines]
    simp [MainRun.print, MainRun.setLog, hout]

/-- Where a text is printed, its last character is lost. -/
theorem not_printsAll_text {job : PrintJob} (h : job.format = .text) {num : UInt32}
    (hnum : num ∈ job.nums) (hrecords : job.records num.toNat ≠ []) : ¬PrintsAll job := by
  intro hall
  obtain ⟨t, hrun, hprinted⟩ := hall job.options job.start rfl rfl rfl rfl
  have hblock : printEventlog none job.options job.start
      = Outcome.andThen (printLogs none job.nums job.start) fun _ => return () := by
    have htext : job.options.format = .text := h
    rw [printEventlog, htext]
    rfl
  rw [hblock] at hrun
  rw [Printed, h] at hprinted
  rcases job.printLogs_requested with ⟨hnone, _⟩ | ⟨before, pcr, hflat, _, hloop⟩
  · exact hrecords (PrintJob.requested_eq_nil.mp hnone num hnum)
  · rw [hloop job.start rfl] at hrun
    split at hrun
    · cases hrun
    · next hlong =>
      obtain rfl := (Outcome.next.inj hrun).2
      have hout : job.start.out.length = 0 := rfl
      have hnewline : (ascii "\n").length = 1 := rfl
      have hlength := congrArg List.length hprinted
      rw [hflat] at hlength
      simp only [MainRun.print, MainRun.setLog, ended, List.length_append, List.length_take,
        hout, hnewline] at hlength
      omega

theorem printsAll_text {job : PrintJob} (h : job.format = .text)
    (hempty : ∀ num ∈ job.nums, job.records num.toNat = []) : PrintsAll job := by
  intro opts s hformat hnums hlog hout
  have htext : opts.format = .text := hformat.trans h
  have hnone : AllEmpty s.cb.eventlog job.nums := hlog ▸ (job.allEmpty_log job.nums).mpr hempty
  have hrun : printEventlog none opts s = .next () s := by
    rw [printEventlog, htext, hnums, Proc.when, if_neg (by decide), pure_bind, bind_apply,
      printLogs_allEmpty job.nums_lt hnone]
    rfl
  have hprinted : Printed job s.out := by
    rw [Printed, h, hout, PrintJob.requested_eq_nil.mpr hempty]
    rfl
  exact ⟨s, hrun, hprinted⟩

/-- Every record is printed with all its characters in JSON, and in text format only where
there is none. -/
theorem printsAll_iff (job : PrintJob) :
    PrintsAll job ↔ job.format = .json ∨ ∀ num ∈ job.nums, job.records num.toNat = [] := by
  constructor
  · intro h
    cases hformat : job.format with
    | json => exact Or.inl rfl
    | text =>
        right
        intro num hnum
        by_contra hrecords
        exact not_printsAll_text hformat hnum hrecords h
  · intro h
    cases hformat : job.format with
    | json => exact printsAll_json hformat
    | text =>
        rcases h with hjson | hempty
        · rw [hformat] at hjson
          cases hjson
        · exact printsAll_text hformat hempty

/-- `-e -f text -p 0` with one record in the event log. -/
def textJob : PrintJob where
  format := .text
  nums := [0]
  records := fun _ => [ascii "record\n"]
  nums_lt := by
    intro num hnum
    rw [List.mem_singleton.mp hnum]
    decide
  complete := by
    intro _ record hrecord
    rw [List.mem_singleton.mp hrecord]
    exact List.cons_ne_nil _ _
  no_nul := by
    intro _ record hrecord
    rw [List.mem_singleton.mp hrecord]
    decide

theorem not_printsAll_textJob : ¬PrintsAll textJob :=
  not_printsAll_text rfl List.mem_cons_self (List.cons_ne_nil _ _)

end MeasuredBoot.SrtmLog
