import MeasuredBoot.Ima.Reading

/-! # Logs the parser accepts

`ima_parse_binary_runtime_measurements` ignores that a read inside a record ran
short: the bytes it did not get are zero. It takes any short header for the end of
the log. An accepted log is made of complete records unless what is left behind the
last of them is passed over in one of these ways.
-/

namespace MeasuredBoot.Ima

open Binary Imperative Imperative.Proc

/-! ## Accepted runs -/

section Rounds

variable (libs : ImaLibs)

/-- One round of the loop that goes on to the next. -/
structure Round (s t : ImaRun) : Prop where
  header : 28 ≤ s.rest.length
  passes : parseRecord libs (s.rest.take 28) { s with rest := s.rest.drop 28 } = .next () t

/-- The rounds up to a header that is not read. -/
inductive Accepts : ImaRun → ImaRun → Prop where
  | done {s : ImaRun} (h : s.rest.length < 28) : Accepts s s
  | round {s t u : ImaRun} (h : Round libs s t) (hrest : Accepts t u) : Accepts s u

variable {libs}

theorem Round.consumes {s t : ImaRun} (h : Round libs s t) : t.rest.length < s.rest.length := by
  have hheader := h.header
  have hconsumes := next_of_wlp (consumes_parseRecord libs (s.rest.take 28)
    { s with rest := s.rest.drop 28 }) h.passes
  simp only [List.length_drop] at hconsumes
  omega

theorem Round.unique {s t t' : ImaRun} (h : Round libs s t) (h' : Round libs s t') : t = t' := by
  have heq := h.passes.symm.trans h'.passes
  cases heq
  rfl

/-- A run with a header left starts with a round. -/
theorem accepts_header_iff {s u : ImaRun} (h : 28 ≤ s.rest.length) :
    Accepts libs s u ↔ ∃ t, Round libs s t ∧ Accepts libs t u := by
  constructor
  · intro hu
    cases hu with
    | done hshort => omega
    | round hround haccepts => exact ⟨_, hround, haccepts⟩
  · rintro ⟨t, hround, haccepts⟩
    exact .round hround haccepts

/-- A run without ends. -/
theorem accepts_short_iff {s u : ImaRun} (h : s.rest.length < 28) :
    Accepts libs s u ↔ u = s := by
  constructor
  · intro hu
    cases hu with
    | done _ => rfl
    | round hround _ =>
        have hheader := hround.header
        omega
  · rintro rfl
    exact .done h

theorem bufRead_yields {E : Int → Prop} (size : Nat) :
    Yields (fun _ => True) E (bufRead size) := by
  intro s
  unfold bufRead wlp
  by_cases h : size ≤ s.rest.length
  · simp [h]
  · simp [h]

theorem readTemplateData_yields {E : Int → Prop} (name : Bytes) :
    Yields (fun _ => True) E (readTemplateData name) := by
  refine .ite (fun _ => ?_) fun _ => ?_
  · refine .bind (.update _) fun _ _ => .bind (bufRead_yields _) fun _ _ => ?_
    refine .bind (bufRead_yields _) fun _ _ => .bind (bufRead_yields _) fun field _ => ?_
    cases field with
    | none => exact .pure trivial
    | some field => exact .ite (fun _ => .pure trivial) fun _ => .fault
  · refine .bind (bufRead_yields _) fun _ _ => .bind (.update _) fun _ _ => ?_
    refine .bind (P := fun _ => True) (fun _ => trivial) fun s _ => ?_
    exact .bind (bufRead_yields _) fun _ _ => .pure trivial

theorem templateFmt_yields {E : Int → Prop} (name : Bytes) :
    Yields (fun _ => True) E (templateFmt name) := by
  intro s
  unfold templateFmt wlp
  cases knownTemplates.find? (fun entry => entry.1 = name) with
  | none => trivial
  | some entry =>
      by_cases h : s.fmtIsName ∧ name = ascii "ima-modsig"
      · simp [h]
      · simp [h]

/-- A record that is turned down ends the parser with `-1`. -/
theorem parseRecord_yields (header : Bytes) :
    Yields (fun _ => True) (fun r => r = -1) (parseRecord libs header) := by
  refine .bind (P := fun _ => True) (.when (fun _ => .fault) fun _ => trivial) fun _ _ => ?_
  refine .bind (bufRead_yields _) fun nameBuf _ => ?_
  refine .bind (readTemplateData_yields _) fun data _ => ?_
  refine .bind (P := fun _ => True) (.exitIf (fun _ => rfl) fun _ => trivial) fun _ _ => ?_
  refine .bind (P := fun _ => True) ?_ fun moduleName _ => ?_
  · exact .bind (templateFmt_yields _) fun _ _ => .lift fun _ _ => trivial
  · cases moduleName with
    | none => exact .exit rfl
    | some moduleName => exact .update _

theorem parseLoop_zero_iff {fuel : Nat} {s u : ImaRun} (h : s.rest.length < fuel) :
    run (parseLoop libs fuel) s = .ok (0, u) ↔ Accepts libs s u := by
  induction fuel generalizing s with
  | zero => omega
  | succ fuel ih =>
      by_cases hheader : 28 ≤ s.rest.length
      · have hread : bufRead 28 s =
            .next (some (s.rest.take 28)) { s with rest := s.rest.drop 28 } := if_pos hheader
        have hrun : run (parseLoop libs (fuel + 1)) s =
            run (do parseRecord libs (s.rest.take 28); parseLoop libs fuel)
              { s with rest := s.rest.drop 28 } := by
          unfold run
          rw [parseLoop, bind_apply, hread]
          rfl
        rw [hrun]
        unfold run
        rw [bind_apply]
        cases hround : parseRecord libs (s.rest.take 28) { s with rest := s.rest.drop 28 } with
        | next _ t =>
            have hs : Round libs s t := ⟨hheader, hround⟩
            have hconsumes := hs.consumes
            rw [accepts_header_iff hheader]
            refine (ih (s := t) (by omega)).trans ⟨fun ht => ⟨t, hs, ht⟩, ?_⟩
            rintro ⟨t', hs', ht'⟩
            rwa [hs.unique hs']
        | exit r t =>
            have hr : r = -1 := exit_of_wlp (E := fun r _ => r = -1)
              (parseRecord_yields (s.rest.take 28) _) hround
            rw [accepts_header_iff hheader]
            refine iff_of_false (by simp [hr]) ?_
            rintro ⟨t', hs', -⟩
            cases hs'.passes.symm.trans hround
        | stop w =>
            rw [accepts_header_iff hheader]
            refine iff_of_false (by simp) ?_
            rintro ⟨t', hs', -⟩
            cases hs'.passes.symm.trans hround
      · have hread : bufRead 28 s = .next none s := if_neg hheader
        have hrun : run (parseLoop libs (fuel + 1)) s = .ok (0, s) := by
          unfold run
          rw [parseLoop, bind_apply, hread]
          rfl
        rw [hrun, accepts_short_iff (Nat.lt_of_not_le hheader)]
        simp [eq_comm]

/-- The parser returns 0 exactly at the end of an accepted run. -/
theorem parse_zero_iff {buf : Bytes} {s u : ImaRun} :
    run (imaParseBinaryRuntimeMeasurements libs buf) s = .ok (0, u) ↔
      Accepts libs { s with rest := buf } u :=
  parseLoop_zero_iff (Nat.lt_succ_self _)

end Rounds

/-! ## Complete logs -/

/-- The log is made of complete records, each with its digest. -/
def Complete (sha1 : Md 20) (buf : Bytes) : Prop :=
  ∃ records : List ImaRecord, buf = PrefixCode.stream ImaRecord.bytes records ∧
    ∀ r ∈ records, r.Valid sha1

/-- The buffer starts with a complete record. -/
def HoldsRecord (buf : Bytes) : Prop := ∃ (r : ImaRecord) (rest : Bytes), buf = r.bytes ++ rest

section Complete

variable {libs : ImaLibs}

/-- The run behind a complete record. -/
def afterRecord (s : ImaRun) (r : ImaRecord) (rest : Bytes) : ImaRun :=
  { s with
    rest := rest
    templateDataLen := r.dataLen
    fmtIsName := s.fmtIsName || unknownTemplate (cString r.name) }

/-- The fields of the format lie in the template data and give a name. -/
def ImaRecord.GivesName (libs : ImaLibs) (fmtIsName : Bool) (r : ImaRecord) : Prop :=
  let fields := strsepAll 124 (fmtOf fmtIsName (cString r.name))
  WalkInside libs.modsig (cString r.name) r.body.templateData fields 0 none ∧
    HasName (cString r.name) fields

/-- A round on a complete record checks its digest and takes it off the buffer. -/
theorem round_record_iff {s t : ImaRun} {r : ImaRecord} {rest : Bytes}
    (hs : s.rest = r.bytes ++ rest) : Round libs s t ↔ r.Valid libs.sha1 ∧
      ∃ text, fieldLoop libs.modsig (cString r.name) r.body.templateData
          (strsepAll 124 (fmtOf s.fmtIsName (cString r.name))) 0 none = .ok (some text) ∧
        t = printEntry libs text r.body.templateData (afterRecord s r rest) := by
  have hsplit : s.rest = r.header ++ (r.name ++ (r.body.bytes ++ rest)) := by
    rw [hs, ImaRecord.bytes]
    simp only [List.append_assoc]
  have hheader : 28 ≤ s.rest.length := by
    have hge := r.bytes_length_ge
    rw [hs, List.length_append]
    omega
  have hround : Round libs s t ↔ finishRecord libs r.header (cString r.name) r.body.templateData
      { s with rest := rest, templateDataLen := r.dataLen } = .next () t := by
    rw [← parseRecord_record libs r { s with rest := r.name ++ (r.body.bytes ++ rest) } rfl]
    constructor
    · intro h
      have hpasses := h.passes
      rwa [hsplit, List.take_left' r.header_length, List.drop_left' r.header_length] at hpasses
    · intro h
      refine ⟨hheader, ?_⟩
      rwa [hsplit, List.take_left' r.header_length, List.drop_left' r.header_length]
  rw [hround, finishRecord_next_iff, r.header_digest]
  rfl

theorem Round.of_record {s t : ImaRun} (h : Round libs s t) {r : ImaRecord} {rest : Bytes}
    (hs : s.rest = r.bytes ++ rest) : r.Valid libs.sha1 ∧ r.GivesName libs s.fmtIsName ∧
      t = { afterRecord s r rest with printed := t.printed } := by
  obtain ⟨hvalid, text, htext, rfl⟩ := (round_record_iff hs).mp h
  exact ⟨hvalid, fieldLoop_some_iff.mp ⟨text, htext⟩, rfl⟩

theorem holdsRecord_length {buf : Bytes} (h : HoldsRecord buf) : 28 ≤ buf.length := by
  obtain ⟨r, rest, rfl⟩ := h
  have hlen := r.bytes_length_ge
  rw [List.length_append]
  omega

/-- What is behind the first record of a complete log is complete. -/
theorem Complete.behind {sha1 : Md 20} {r : ImaRecord} {rest : Bytes}
    (h : Complete sha1 (r.bytes ++ rest)) : Complete sha1 rest := by
  obtain ⟨records, hrecords, hall⟩ := h
  cases records with
  | nil =>
      have hlen := congrArg List.length hrecords
      have hge := r.bytes_length_ge
      rw [List.length_append, PrefixCode.stream_nil, List.length_nil] at hlen
      omega
  | cons x records =>
      rw [PrefixCode.stream_cons] at hrecords
      obtain rfl := ImaRecord.decodable.first r x _ _ hrecords
      exact ⟨records, List.append_cancel_left hrecords,
        fun y hy => hall y (List.mem_cons_of_mem r hy)⟩

theorem Complete.cons {sha1 : Md 20} {r : ImaRecord} {rest : Bytes} (hvalid : r.Valid sha1)
    (h : Complete sha1 rest) : Complete sha1 (r.bytes ++ rest) := by
  obtain ⟨records, rfl, hall⟩ := h
  refine ⟨r :: records, (PrefixCode.stream_cons _ r records).symm, fun y hy => ?_⟩
  rcases List.mem_cons.mp hy with rfl | hy
  · exact hvalid
  · exact hall y hy

/-- A complete log is empty or starts with a record. -/
theorem Complete.starts {sha1 : Md 20} {buf : Bytes} (h : Complete sha1 buf) :
    buf = [] ∨ HoldsRecord buf := by
  obtain ⟨records, rfl, -⟩ := h
  cases records with
  | nil => exact Or.inl rfl
  | cons r records => exact Or.inr ⟨r, _, PrefixCode.stream_cons _ r records⟩

/-! ## What is passed over -/

/-- From here to the end the bytes are taken for records, read with zeros where the log ends
before; fewer than a header are taken for the end of the log. -/
inductive ReadsThrough (libs : ImaLibs) : ImaRun → Prop where
  | short {s : ImaRun} (h : s.rest.length < 28) : ReadsThrough libs s
  | record {s : ImaRun} (h : GoesThrough libs s) (hrest : ReadsThrough libs (behindRecord s)) :
      ReadsThrough libs s

/-- The complete records have their digests and give their names. -/
def RecordsPass (libs : ImaLibs) : Bool → List ImaRecord → Prop
  | _, [] => True
  | fmtIsName, r :: records => r.Valid libs.sha1 ∧ r.GivesName libs fmtIsName ∧
      RecordsPass libs (fmtIsName || unknownTemplate (cString r.name)) records

/-- The run behind complete records. -/
def afterRecords (s : ImaRun) (records : List ImaRecord) (rest : Bytes) : ImaRun :=
  { s with
    rest := rest
    templateDataLen := records.foldl (fun _ r => r.dataLen) s.templateDataLen
    fmtIsName := records.foldl (fun b r => b || unknownTemplate (cString r.name)) s.fmtIsName }

/-- Something is left behind the complete records of the log that starts no complete record
and reads through all the same. -/
structure Torn (libs : ImaLibs) (s : ImaRun) (records : List ImaRecord) (tail : Bytes) : Prop where
  split : s.rest = PrefixCode.stream ImaRecord.bytes records ++ tail
  front : RecordsPass libs s.fmtIsName records
  nonempty : tail ≠ []
  incomplete : ¬HoldsRecord tail
  through : ReadsThrough libs (afterRecords s records tail)

/-- What was printed plays no part. -/
theorem GoesThrough.reprint {s : ImaRun} (h : GoesThrough libs s) (printed : List ImaEntry) :
    GoesThrough libs { s with printed := printed } :=
  ⟨⟨h.front.header, h.front.name_le⟩, h.copied, h.digest, h.inside, h.name⟩

theorem behindTemplate_reprint (name : Bytes) (s : ImaRun) (printed : List ImaEntry) :
    behindTemplate name { s with printed := printed } =
      { behindTemplate name s with printed := printed } := by
  by_cases hname : name = ascii "ima"
  · simp only [behindTemplate, if_pos hname]
  · simp only [behindTemplate, if_neg hname]
    rfl

theorem behindRecord_reprint (s : ImaRun) (printed : List ImaEntry) :
    behindRecord { s with printed := printed } = { behindRecord s with printed := printed } := by
  have htemplate := behindTemplate_reprint (recordName s) (behindName s) printed
  exact congrArg (fun t : ImaRun =>
    { t with fmtIsName := s.fmtIsName || unknownTemplate (recordName s) }) htemplate

theorem ReadsThrough.reprint {s : ImaRun} (h : ReadsThrough libs s) (printed : List ImaEntry) :
    ReadsThrough libs { s with printed := printed } := by
  induction h with
  | short h => exact .short h
  | @record s h hrest ih =>
      refine .record (h.reprint printed) ?_
      rw [behindRecord_reprint]
      exact ih

/-- Bytes that read through are accepted. -/
theorem ReadsThrough.accepts {s : ImaRun} (h : ReadsThrough libs s) (printed : List ImaEntry) :
    ∃ u, Accepts libs { s with printed := printed } u := by
  induction h generalizing printed with
  | short h => exact ⟨_, .done h⟩
  | @record s h hrest ih =>
      have hthrough := h.reprint printed
      obtain ⟨text, htext⟩ := fieldLoop_some_iff.mpr ⟨h.inside, h.name⟩
      have hnext := (parseRecord_next_iff (s := { s with printed := printed })
        h.front.header).mpr ⟨hthrough, text, htext, rfl⟩
      rw [behindRecord_reprint] at hnext
      obtain ⟨u, hu⟩ := ih _
      exact ⟨u, .round ⟨h.front.header, hnext⟩ hu⟩

theorem Accepts.readsThrough {s u : ImaRun} (h : Accepts libs s u) : ReadsThrough libs s := by
  induction h with
  | done hshort => exact .short hshort
  | @round s t u hround haccepts ih =>
      obtain ⟨hthrough, text, htext, rfl⟩ :=
        (parseRecord_next_iff hround.header).mp hround.passes
      exact .record hthrough (ih.reprint _)

theorem Torn.accepts {s : ImaRun} {records : List ImaRecord} {tail : Bytes}
    (h : Torn libs s records tail) : ∃ u, Accepts libs s u := by
  induction records generalizing s with
  | nil =>
      have hsame : afterRecords s [] tail = s := by
        have hsplit := h.split
        rw [PrefixCode.stream_nil, List.nil_append] at hsplit
        rw [afterRecords, ← hsplit]
        rfl
      have hthrough := h.through
      rw [hsame] at hthrough
      exact hthrough.accepts s.printed
  | cons r records ih =>
      obtain ⟨hvalid, hgives, hrecords⟩ := h.front
      obtain ⟨text, htext⟩ := fieldLoop_some_iff.mpr hgives
      have hsplit : s.rest = r.bytes ++ (PrefixCode.stream ImaRecord.bytes records ++ tail) := by
        rw [h.split, PrefixCode.stream_cons, List.append_assoc]
      have hround := (round_record_iff hsplit).mpr ⟨hvalid, text, htext, rfl⟩
      have htorn : Torn libs (printEntry libs text r.body.templateData (afterRecord s r
          (PrefixCode.stream ImaRecord.bytes records ++ tail))) records tail :=
        ⟨rfl, hrecords, h.nonempty, h.incomplete, h.through.reprint _⟩
      obtain ⟨u, hu⟩ := ih htorn
      exact ⟨u, .round hround hu⟩

/-- An accepted log is complete or torn. -/
theorem Accepts.complete_or_torn {s u : ImaRun} (h : Accepts libs s u) :
    Complete libs.sha1 s.rest ∨ ∃ records tail, Torn libs s records tail := by
  induction h with
  | @done s hshort =>
      by_cases hrest : s.rest = []
      · exact Or.inl ⟨[], hrest, by simp⟩
      · refine Or.inr ⟨[], s.rest, rfl, trivial, hrest, fun hholds => ?_, .short hshort⟩
        have hlen := holdsRecord_length hholds
        omega
  | @round s t u hround haccepts ih =>
      by_cases hholds : HoldsRecord s.rest
      · obtain ⟨r, rest, hrest⟩ := hholds
        obtain ⟨hvalid, hgives, ht⟩ := hround.of_record hrest
        rw [ht] at ih
        rcases ih with hcomplete | ⟨records, tail, htorn⟩
        · rw [hrest]
          exact Or.inl (hcomplete.cons hvalid)
        · refine Or.inr ⟨r :: records, tail, ?_, ⟨hvalid, hgives, htorn.front⟩, htorn.nonempty,
            htorn.incomplete, htorn.through.reprint s.printed⟩
          rw [hrest, PrefixCode.stream_cons, List.append_assoc]
          exact congrArg (r.bytes ++ ·) htorn.split
      · refine Or.inr ⟨[], s.rest, rfl, trivial, ?_, hholds,
          (Accepts.round hround haccepts).readsThrough⟩
        intro hempty
        have hheader := hround.header
        rw [hempty] at hheader
        simp at hheader

/-- A log with an incomplete part at its end is not complete. -/
theorem not_complete_of_tail {sha1 : Md 20} (records : List ImaRecord) {tail : Bytes}
    (hnonempty : tail ≠ []) (hincomplete : ¬HoldsRecord tail) :
    ¬Complete sha1 (PrefixCode.stream ImaRecord.bytes records ++ tail) := by
  induction records with
  | nil =>
      intro hcomplete
      rcases hcomplete.starts with hempty | hholds
      · exact hnonempty hempty
      · exact hincomplete hholds
  | cons r records ih =>
      rw [PrefixCode.stream_cons, List.append_assoc]
      exact fun hcomplete => ih hcomplete.behind

/-- No record starts another one. -/
theorem not_holdsRecord_take (r : ImaRecord) {k : Nat} (hlt : k < r.bytes.length) :
    ¬HoldsRecord (r.bytes.take k) := by
  rintro ⟨x, rest, hx⟩
  have hsplit : r.bytes ++ [] = x.bytes ++ (rest ++ r.bytes.drop k) := by
    rw [List.append_nil, ← List.append_assoc, ← hx, List.take_append_drop]
  obtain rfl := ImaRecord.decodable.first r x _ _ hsplit
  have hlen := congrArg List.length hx
  rw [List.length_take, List.length_append] at hlen
  omega

/-- The parser accepts only complete logs exactly where nothing is torn off at the end that
reads through, whatever the template length starts as; and a log cut off inside a record is
not complete. -/
theorem accepts_complete_iff (libs : ImaLibs) (s : ImaRun) (buf : Bytes) :
    ((∀ u, run (imaParseBinaryRuntimeMeasurements libs buf) s = .ok (0, u) →
        Complete libs.sha1 buf) ↔
      ¬∃ records tail, Torn libs { s with rest := buf } records tail) ∧
    ∀ (records : List ImaRecord) (r : ImaRecord) (k : Nat), 0 < k → k < r.bytes.length →
      buf = PrefixCode.stream ImaRecord.bytes records ++ r.bytes.take k →
      ¬Complete libs.sha1 buf := by
  refine ⟨⟨?_, ?_⟩, ?_⟩
  · rintro hproperty ⟨records, tail, htorn⟩
    obtain ⟨u, hu⟩ := htorn.accepts
    have hcomplete := hproperty u (parse_zero_iff.mpr hu)
    rw [show buf = _ from htorn.split] at hcomplete
    exact not_complete_of_tail records htorn.nonempty htorn.incomplete hcomplete
  · intro hnot u hrun
    exact (parse_zero_iff.mp hrun).complete_or_torn.resolve_right hnot
  · rintro records r k hpos hlt rfl
    refine not_complete_of_tail records ?_ (not_holdsRecord_take r hlt)
    intro hempty
    have hlen := congrArg List.length hempty
    rw [List.length_take, List.length_nil] at hlen
    omega

/-- A single byte is accepted as a log, whatever the hash functions. -/
theorem trailing_byte_accepted :
    ¬∃ libs : ImaLibs, ∀ (s : ImaRun) (buf : Bytes) (u : ImaRun),
      run (imaParseBinaryRuntimeMeasurements libs buf) s = .ok (0, u) →
        Complete libs.sha1 buf := by
  rintro ⟨libs, h⟩
  have hcomplete := h (ImaRun.start 0) [0] _ rfl
  rcases hcomplete.starts with hempty | hholds
  · cases hempty
  · have hlen := holdsRecord_length hholds
    simp at hlen

end Complete

end MeasuredBoot.Ima
