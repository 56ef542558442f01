import MeasuredBoot.SrtmLog.Reading

/-! # Logs that are cut off

A log whose reading failed is parsed up to there. Cut between two events, it is the log of
the events in front; cut inside one, it is turned down.
-/

namespace MeasuredBoot.SrtmLog

open Binary Imperative Imperative.Proc

/-! ## Sizes read from a prefix -/

theorem slice_front {front : Bytes} (rest rest' : Bytes) {off count : Nat}
    (h : off + count ≤ front.length) :
    slice (front ++ rest) off count = slice (front ++ rest') off count := by
  rw [slice_append_left rest h, slice_append_left rest' h]

theorem drop_front {front : Bytes} (rest : Bytes) {off : Nat} (h : off ≤ front.length) :
    (front ++ rest).drop off = front.drop off ++ rest := by
  rw [List.drop_append_of_le_length h]

/-- Digests that end in a prefix are read from it. -/
theorem digestsAt_front {count : Nat} {front : Bytes} (rest rest' : Bytes)
    (h : totalSize (digestsAt count (front ++ rest)) ≤ front.length) :
    digestsAt count (front ++ rest) = digestsAt count (front ++ rest') := by
  induction count generalizing front with
  | zero => rfl
  | succ count ih =>
      have hsplit : totalSize (digestsAt (count + 1) (front ++ rest)) =
          (digest2At (front ++ rest)).size +
            totalSize
              (digestsAt count ((front ++ rest).drop (digest2At (front ++ rest)).size)) := by
        simp [digestsAt, totalSize]
      have hsize : (digest2At (front ++ rest)).size =
          2 + tpm2AlgUtilGetHashSize (ofLE (slice (front ++ rest) 0 2)) := rfl
      rw [hsplit] at h
      have hid : slice (front ++ rest) 0 2 = slice (front ++ rest') 0 2 :=
        slice_front rest rest' (by omega)
      have hbytes := @slice_front front rest rest' 2
        (tpm2AlgUtilGetHashSize (ofLE (slice (front ++ rest) 0 2))) (by omega)
      have hdigest : digest2At (front ++ rest) = digest2At (front ++ rest') := by
        rw [digest2At, hbytes, hid, digest2At]
      have hfront : (digest2At (front ++ rest)).size ≤ front.length := by omega
      have hnext : totalSize (digestsAt count
          (front.drop (digest2At (front ++ rest)).size ++ rest)) ≤
            (front.drop (digest2At (front ++ rest)).size).length := by
        rw [drop_front rest hfront] at h
        rw [List.length_drop]
        omega
      rw [digestsAt, digestsAt, ← hdigest, drop_front rest hfront, drop_front rest' hfront,
        ih hnext]

theorem header2At_front {front : Bytes} (rest rest' : Bytes) (h : 12 ≤ front.length) :
    header2At (front ++ rest) = header2At (front ++ rest') := by
  unfold header2At
  rw [slice_front rest rest' (by omega), slice_front rest rest' (by omega),
    slice_front rest rest' (by omega)]

/-- An event that ends in a prefix has its size there. -/
theorem eventSizeAt_front {front : Bytes} (rest rest' : Bytes)
    (h : eventSizeAt (front ++ rest) ≤ front.length) :
    eventSizeAt (front ++ rest) = eventSizeAt (front ++ rest') := by
  have hbody := bodyOffset_le_eventSizeAt (front ++ rest)
  have htwelve : 12 ≤ bodyOffset (front ++ rest) := Nat.le_add_right _ _
  have hheader := header2At_front rest rest' (show 12 ≤ front.length by omega)
  have hoffset : bodyOffset (front ++ rest) = bodyOffset (front ++ rest') := by
    have hdigests : totalSize (digestsAt (header2At (front ++ rest)).digestCount
        (front.drop 12 ++ rest)) ≤ (front.drop 12).length := by
      have heq : bodyOffset (front ++ rest) = 12 + totalSize (digestsAt
          (header2At (front ++ rest)).digestCount ((front ++ rest).drop 12)) := rfl
      rw [drop_front rest (by omega)] at heq
      rw [List.length_drop]
      omega
    unfold bodyOffset
    rw [← hheader, drop_front rest (by omega), drop_front rest' (by omega),
      digestsAt_front rest rest' hdigests]
  unfold eventSizeAt
  rw [← hoffset, slice_front rest rest' (by omega)]

/-! ## A cut event -/

/-- A part of an event, and nothing of the next one. -/
structure CutOff (e : LogEvent) (part : Bytes) : Prop where
  nonempty : part ≠ []
  proper : ∃ more, more ≠ [] ∧ e.bytes = part ++ more

theorem foreachDigest2_settles {σ : Type} {cb : Digest2 → Proc σ Bool} (hcb : ∀ d, Settles (cb d))
    (pcrIndex : Nat) (digest : Bytes) (count size : Nat) :
    Settles (foreachDigest2 cb pcrIndex digest count size) := by
  refine .bind (.exitIf _ _) fun _ => ?_
  induction count generalizing digest size with
  | zero => exact .pure ()
  | succ count ih =>
      exact .bind (.exitIf _ _) fun _ => .bind (.exitIf _ _) fun _ => .bind (hcb _) fun _ =>
        .bind (.exitIf _ _) fun _ => ih _ _

theorem parseEvent2_settles {σ : Type} (eventhdr : Bytes) (bufSize : Nat) :
    Settles (parseEvent2 eventhdr bufSize : Proc σ Layout) := by
  have hcount : ∀ d, Settles (digest2Accumulator d) :=
    fun d => .bind (.update _) fun _ => .pure true
  refine .bind (.exitIf _ _) fun _ => .bind (.inner ?_ 0) fun counted => ?_
  · exact .bind (foreachDigest2_settles hcount _ _ _ _) fun _ => .pure 1
  · exact .bind (.exitIf _ _) fun _ => .bind (.exitIf _ _) fun _ => .bind (.exitIf _ _) fun _ =>
      .pure _

/-- `parse_event2` wants the whole event. -/
theorem parseEvent2_cut {σ : Type} {e : LogEvent} {part : Bytes} (h : CutOff e part)
    (rest : Bytes) (I : σ → Prop) :
    Fails I 0 (parseEvent2 (part ++ rest) part.length : Proc σ Layout) := by
  obtain ⟨more, hmore, hbytes⟩ := h.proper
  apply (parseEvent2_settles _ _).fails
  intro s
  refine wlp_mono (parseEvent2_spec (part ++ rest) part.length s) ?_ fun _ _ hr => hr
  rintro layout t ⟨-, -, -, -, hfits⟩
  have hsize := eventSizeAt_front rest more hfits
  have hwhole := e.eventSizeAt_bytes []
  have hlength : e.bytes.length = part.length + more.length := by
    rw [hbytes, List.length_append]
  rw [List.append_nil, hbytes, ← hsize, ← hbytes] at hwhole
  have hpos := List.length_pos_of_ne_nil hmore
  omega

/-- The events in front of a cut are walked through, and the cut one is turned down. -/
theorem event2Loop_cut (md : Md 32) {events : List LogEvent} {e : LogEvent} {part : Bytes}
    (hcut : CutOff e part) (rest : Bytes) (h : ∀ e ∈ events, e.WellFormed) (vars : LoopVars)
    {fuel : Nat} (hfuel : (encodeEvents events ++ part).length < fuel) :
    Fails Active 0 (event2Loop (programContext md) fuel vars
      (encodeEvents events ++ (part ++ rest)) (encodeEvents events ++ part).length) := by
  have hpos := List.length_pos_of_ne_nil hcut.nonempty
  induction events generalizing vars fuel with
  | nil =>
      obtain ⟨fuel, rfl⟩ := Nat.exists_eq_succ_of_ne_zero (by omega : fuel ≠ 0)
      show Fails Active 0
        (event2Loop (programContext md) (fuel + 1) vars (part ++ rest) part.length)
      rw [event2Loop, if_neg (Nat.ne_of_gt hpos)]
      exact ((parseEvent2_cut hcut rest Active).bind _).bind _
  | cons first events ih =>
      obtain ⟨fuel, rfl⟩ := Nat.exists_eq_succ_of_ne_zero (by omega : fuel ≠ 0)
      obtain ⟨hfirst, hevents⟩ := List.forall_mem_cons.mp h
      have hfirstPos := first.bytes_pos
      have hlength : (encodeEvents (first :: events) ++ part).length =
          first.bytes.length + (encodeEvents events ++ part).length := by
        rw [encodeEvents_cons, List.append_assoc, List.length_append]
      rw [hlength] at hfuel ⊢
      rw [encodeEvents_cons, List.append_assoc, event2Loop, if_neg (by omega)]
      refine .bind_of_succeeds (event2Step_succeeds _ md hfirst vars (Nat.le_add_right _ _))
        fun next hnext => ?_
      rw [hnext, Nat.add_sub_cancel_left]
      exact ih hevents next.1 (by omega)

/-! ## A cut specification event -/

theorem SpecId.specidEvent_cut {s : SpecId} {part more : Bytes} (h : s.bytes = part ++ more)
    (hmore : more ≠ []) (rest : Bytes) : specidEvent (part ++ rest) part.length = none := by
  have hlength : s.bytes.length = part.length + more.length := by
    rw [h, List.length_append]
  have hbytes := s.bytes_length
  have hpos := List.length_pos_of_ne_nil hmore
  have hdata := s.data_length
  have halgorithms := s.algorithms_lt
  have hvendor := s.vendorInfo_lt
  unfold specidEvent
  by_cases hshort : part.length < 32
  · rw [if_pos hshort]
  · have hsize : ofLE (slice (part ++ rest) 28 4) = s.data.length := by
      have hmem : part ++ more = (toLE 4 0 ++ toLE 4 evNoAction ++ zeros 20) ++
          toLE 4 s.data.length ++ s.data := by
        rw [← h]
        rfl
      rw [slice_front rest more (by omega)]
      exact ofLE_slice_toLE hmem rfl (by omega)
    simp only [hsize]
    rw [if_neg hshort]
    split_ifs <;> first | rfl | omega

/-! ## Where a log is cut -/

/-- In front of the cut are whole events, and maybe a part of the next one. -/
theorem encodeEvents_cut {events : List LogEvent} {front rest : Bytes}
    (h : encodeEvents events = front ++ rest) :
    ∃ done, done <+: events ∧ (front = encodeEvents done ∨
      ∃ e part, CutOff e part ∧ front = encodeEvents done ++ part) := by
  induction events generalizing front with
  | nil =>
      obtain ⟨rfl, -⟩ := List.append_eq_nil_iff.mp h.symm
      exact ⟨[], List.nil_prefix, Or.inl rfl⟩
  | cons e events ih =>
      rw [encodeEvents_cons] at h
      rcases List.append_eq_append_iff.mp h with ⟨front', rfl, hrest⟩ | ⟨more, hbytes, hrest⟩
      · obtain ⟨done, hdone, hcut⟩ := ih hrest
        refine ⟨e :: done, List.cons_prefix_cons.mpr ⟨rfl, hdone⟩, ?_⟩
        rcases hcut with rfl | ⟨e', part, hpart, rfl⟩
        · exact Or.inl rfl
        · exact Or.inr ⟨e', part, hpart, by rw [encodeEvents_cons, List.append_assoc]⟩
      · by_cases hfront : front = []
        · exact ⟨[], List.nil_prefix, Or.inl hfront⟩
        · by_cases hmore : more = []
          · refine ⟨[e], List.cons_prefix_cons.mpr ⟨rfl, List.nil_prefix⟩, Or.inl ?_⟩
            rw [encodeEvents_cons, hbytes, hmore, List.append_nil]
            exact (List.append_nil front).symm
          · exact ⟨[], List.nil_prefix, Or.inr ⟨e, front, ⟨hfront, more, hmore, hbytes⟩, rfl⟩⟩

theorem encodeLog_cut {s : SpecId} {events : List LogEvent} {front rest : Bytes}
    (h : encodeLog s events = front ++ rest) :
    (∃ more, more ≠ [] ∧ s.bytes = front ++ more) ∨
      ∃ done, done <+: events ∧ (front = encodeLog s done ∨
        ∃ e part, CutOff e part ∧ front = encodeLog s done ++ part) := by
  rcases List.append_eq_append_iff.mp h with ⟨front', rfl, hrest⟩ | ⟨more, hbytes, hrest⟩
  · obtain ⟨done, hdone, hcut⟩ := encodeEvents_cut hrest
    refine Or.inr ⟨done, hdone, ?_⟩
    rcases hcut with rfl | ⟨e, part, hpart, rfl⟩
    · exact Or.inl rfl
    · exact Or.inr ⟨e, part, hpart, by rw [encodeLog, List.append_assoc]⟩
  · by_cases hmore : more = []
    · refine Or.inr ⟨[], List.nil_prefix, Or.inl ?_⟩
      rw [hmore, List.append_nil] at hbytes
      rw [encodeLog, hbytes]
      exact (List.append_nil front).symm
    · exact Or.inl ⟨more, hmore, hbytes⟩

/-! ## Parsing it -/

section Parse

variable (md : Md 32) {b : EventBuf} {s : SpecId}

theorem tpmParseEventlog_specidCut {more : Bytes} (hmore : more ≠ [])
    (h : s.bytes = b.log ++ more) (t : CbData) :
    ∃ u, run (tpmParseEventlog md b) t = .ok (0, u) := by
  unfold tpmParseEventlog parseEventlog
  by_cases hshort : b.log.length < 32
  · rw [exitIf_pos hshort]
    exact ⟨t, rfl⟩
  · have htype : ofLE (slice b.memory 4 4) = evNoAction := by
      have hspec := s.eventType_bytes []
      rw [List.append_nil, h] at hspec
      rw [EventBuf.memory, slice_front b.slack more (by omega)]
      exact hspec
    have hnone : specidEvent b.memory b.log.length = none :=
      SpecId.specidEvent_cut h hmore b.slack
    rw [exitIf_neg hshort, pure_bind, if_pos htype, hnone]
    exact ⟨t, rfl⟩

theorem tpmParseEventlog_eventCut {events : List LogEvent} {e : LogEvent} {part : Bytes}
    (hcut : CutOff e part) (hlog : b.log = encodeLog s events ++ part)
    (h : ∀ e ∈ events, e.WellFormed) (format : Format) (pcrNums : List Nat) :
    ∃ t, run (tpmParseEventlog md b) (CbData.start format pcrNums) = .ok (0, t) := by
  have hbytes := s.bytes_length
  have hlength : b.log.length = s.bytes.length + (encodeEvents events ++ part).length := by
    rw [hlog, encodeLog, List.append_assoc, List.length_append]
  have hmemory : b.memory = s.bytes ++ (encodeEvents events ++ (part ++ b.slack)) := by
    rw [EventBuf.memory, hlog, encodeLog]
    simp only [List.append_assoc]
  have htype := s.eventType_bytes (encodeEvents events ++ (part ++ b.slack))
  have hspecid : (programContext md).specidCb
      (s.bytes ++ (encodeEvents events ++ (part ++ b.slack))) = pure () :=
    eventSpecidCb_noAction htype
  have hfails : Fails Active 0 (tpmParseEventlog md b) := by
    unfold tpmParseEventlog parseEventlog
    rw [exitIf_neg (by omega), pure_bind, hmemory, htype, if_pos rfl,
      s.specidEvent_bytes _ (by omega)]
    simp only [hspecid, pure_bind]
    rw [List.drop_left, hlength, Nat.add_sub_cancel_left]
    exact (event2Loop_cut md hcut b.slack h LoopVars.start (Nat.lt_succ_self _)).bind _
  exact hfails.run (Nat.succ_pos 23)

end Parse

/-! ## From the open file -/

/-- `tpm_parse_eventlog`, with the reads of the log, or none where `fopen` fails. -/
def tpmParseEventlogFile (md : Md 32) (heap : Nat → Chunk) (file : Option (List LogRead)) :
    Proc CbData Int :=
  match file with
  | none => return -1
  | some reads => do
      let log ← lift (readEventlog heap reads)
      let ret ← call (parseEventlog (programContext md) log.1 log.2)
      exitIf (ret = 0) (-1)
      return 0

theorem tpmParseEventlogFile_run {md : Md 32} {heap : Nat → Chunk} {reads : List LogRead}
    {b : EventBuf} (hread : readEventlog heap reads = .ok (b.memory, b.log.length)) {s t : CbData}
    {ret : Int} (hrun : run (tpmParseEventlog md b) s = .ok (ret, t)) :
    run (tpmParseEventlogFile md heap (some reads)) s = .ok (if ret = 0 then -1 else 0, t) := by
  have hcall := call_of_run hrun
  unfold run tpmParseEventlogFile
  simp only [hread, lift_ok_bind]
  rw [bind_apply]
  unfold tpmParseEventlog at hcall
  rw [hcall, andThen_next]
  by_cases hret : ret = 0
  · rw [exitIf_pos hret, if_pos hret]
    rfl
  · rw [exitIf_neg hret, if_neg hret]
    rfl

/-- What holds of a log holds of its first events. -/
theorem FlagClean.front {done events : List Event} (h : FlagClean events)
    (hdone : done <+: events) : FlagClean done := by
  obtain ⟨rest, rfl⟩ := hdone
  have hclean := (cleanFrom_iff (done ++ rest) false).mpr ⟨h, Bool.noConfusion⟩
  have hfront : ∀ pending, CleanFrom pending (done ++ rest) → CleanFrom pending done := by
    clear h hclean
    induction done with
    | nil => exact fun _ _ => trivial
    | cons e done ih => exact fun _ hall => ⟨hall.1, ih _ hall.2⟩
  exact ((cleanFrom_iff done false).mp (hfront false hclean)).1

theorem LocalityFirst.front {done events : List Event} (h : LocalityFirst events)
    (hdone : done <+: events) : LocalityFirst done := by
  obtain ⟨rest, rfl⟩ := hdone
  intro before e after hsplit
  refine h before e (after ++ rest) ?_
  rw [hsplit, List.append_assoc, List.cons_append]

/-- Whatever happens while a log is read, the status is 0 exactly if the bytes in front of
the first read that fails are the log of its first events, and these are all that the
registers tell about. -/
theorem tpmParseEventlogFile_reads (md : Md 32) (heap : Nat → Chunk) {s : SpecId}
    {events : List LogEvent} {reads : List LogRead} (hreads : contentOf reads = encodeLog s events)
    (h : ∀ e ∈ events, e.WellFormed) (hflag : FlagClean (events.map LogEvent.parsed))
    (hlocality : LocalityFirst (events.map LogEvent.parsed)) (format : Format)
    (pcrNums : List Nat) :
    (∀ done, done <+: events → arrived reads = encodeLog s done →
      ∃ t, run (tpmParseEventlogFile md heap (some reads)) (CbData.start format pcrNums) =
          .ok (0, t) ∧
        ∀ pcr, t.calcPcrs pcr = replayFrom md (initialValue (done.map LogEvent.parsed) pcr)
          (extendedInto (done.map LogEvent.parsed) pcr)) ∧
    ((∀ done, done <+: events → arrived reads ≠ encodeLog s done) →
      ∃ t, run (tpmParseEventlogFile md heap (some reads)) (CbData.start format pcrNums) =
        .ok (-1, t)) := by
  obtain ⟨b, hlog, hread⟩ := readEventlog_eq heap reads
  constructor
  · intro done hdone harrived
    have hwhole : ∀ e ∈ done, e.WellFormed := fun e he => h e (hdone.subset he)
    have hparsed := hdone.map LogEvent.parsed
    rw [← hlog] at harrived
    obtain ⟨t, hrun⟩ := tpmParseEventlog_encodeLog md harrived hwhole format pcrNums
    exact ⟨t, tpmParseEventlogFile_run hread hrun, calcPcrs_encodeLog harrived hwhole
      (hflag.front hparsed) (hlocality.front hparsed) hrun⟩
  · intro hcut
    obtain ⟨rest, hrest⟩ := arrived_isPrefix reads
    rw [hreads] at hrest
    have hfails : ∃ t, run (tpmParseEventlog md b) (CbData.start format pcrNums) = .ok (0, t) := by
      rcases encodeLog_cut hrest.symm with ⟨more, hmore, hbytes⟩ | ⟨done, hdone, hwhole | hpart⟩
      · exact tpmParseEventlog_specidCut md hmore (hlog ▸ hbytes) _
      · exact absurd hwhole (hcut done hdone)
      · obtain ⟨e, part, hcutOff, harrived⟩ := hpart
        exact tpmParseEventlog_eventCut md hcutOff (hlog.trans harrived)
          (fun e he => h e (hdone.subset he)) format pcrNums
    obtain ⟨t, hrun⟩ := hfails
    exact ⟨t, tpmParseEventlogFile_run hread hrun⟩

/-- The log that tells the startup locality, with a read that fails behind its first
event. -/
def startupReads : List LogRead :=
  [.data (encodeLog sha256Spec [startupEvent]), .interrupted, .failed,
    .data (encodeEvents startupLog.tail)]

theorem tpmParseEventlogFile_reads_startup :
    ∃ t, run (tpmParseEventlogFile Sha256.sha256 (fun _ => zeroChunk) (some startupReads))
        (CbData.start .json [0, 7]) = .ok (0, t) ∧
      ∀ pcr, t.calcPcrs pcr = replayFrom Sha256.sha256
        (initialValue ([startupEvent].map LogEvent.parsed) pcr)
        (extendedInto ([startupEvent].map LogEvent.parsed) pcr) := by
  have hreads : contentOf startupReads = encodeLog sha256Spec startupLog := by
    simp only [startupReads, contentOf, encodeLog, startupLog, encodeEvents, List.tail_cons,
      List.flatMap_cons, List.append_assoc, List.flatMap_nil, List.append_nil]
  have harrived : arrived startupReads = encodeLog sha256Spec [startupEvent] :=
    List.append_nil _
  obtain ⟨hwhole, -⟩ := tpmParseEventlogFile_reads Sha256.sha256 (fun _ => zeroChunk) hreads
    startupLog_wellFormed startupLog_flagClean startupLog_localityFirst .json [0, 7]
  exact hwhole [startupEvent] (List.prefix_append _ _) harrived

end MeasuredBoot.SrtmLog
