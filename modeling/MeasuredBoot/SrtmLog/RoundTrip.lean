import MeasuredBoot.SrtmLog.Acceptance

/-! # Replay of encoded logs

What parse-srtm-pcrs calculates from a log that firmware writes: no log of well-formed
events is refused, and each PCR is the extension of the SHA-256 digests of its events.
-/

namespace MeasuredBoot.SrtmLog

open Binary Imperative Imperative.Proc

/-- The event the parser sees, whatever follows it. -/
def LogEvent.parsed (e : LogEvent) : Event := e.toEvent []

namespace LogEvent

/-- The startup locality lies in the data of the event. -/
theorem toEvent_startupLocality {e : LogEvent} (h : e.WellFormed) (rest : Bytes) :
    (e.toEvent rest).startupLocality = e.parsed.startupLocality := by
  unfold Event.startupLocality
  by_cases hcase : e.eventType = evNoAction ∧ e.pcrIndex = 0
  · have hlong := h.locality hcase.1 hcase.2
    have hwindow : (e.toEvent rest).window = e.parsed.window := by
      show (e.data ++ rest).take 17 = (e.data ++ []).take 17
      rw [List.take_append_of_le_length hlong, List.append_nil]
    rw [hwindow]
    rfl
  · rw [if_neg, if_neg]
    · rintro ⟨hno, hpcr, -⟩
      exact hcase ⟨of_decide_eq_true hno, hpcr⟩
    · rintro ⟨hno, hpcr, -⟩
      exact hcase ⟨of_decide_eq_true hno, hpcr⟩

theorem idealEvent_toEvent (md : Md 32) {e : LogEvent} (h : e.WellFormed) (rest : Bytes)
    (state : Bool × (Nat → Digest 32)) :
    idealEvent md state (e.toEvent rest) = idealEvent md state e.parsed := by
  unfold idealEvent Event.locality
  rw [toEvent_startupLocality h rest]
  rfl

end LogEvent

theorem foldl_parsedEvents (md : Md 32) {events : List LogEvent}
    (h : ∀ e ∈ events, e.WellFormed) (rest : Bytes) (state : Bool × (Nat → Digest 32)) :
    (parsedEvents events rest).foldl (idealEvent md) state =
      (events.map LogEvent.parsed).foldl (idealEvent md) state := by
  induction events generalizing state with
  | nil => rfl
  | cons e events ih =>
      obtain ⟨he, hevents⟩ := List.forall_mem_cons.mp h
      rw [parsedEvents, List.map_cons, List.foldl_cons, List.foldl_cons,
        LogEvent.idealEvent_toEvent md he, ih hevents]

theorem cleanFrom_parsedEvents (events : List LogEvent) (rest : Bytes) (pending : Bool) :
    CleanFrom pending (parsedEvents events rest) ↔
      CleanFrom pending (events.map LogEvent.parsed) := by
  induction events generalizing pending with
  | nil => exact Iff.rfl
  | cons e events ih => exact and_congr Iff.rfl (ih _)

theorem exists_of_mem_parsedEvents {events : List LogEvent} {last : Bytes} {e : Event}
    (h : e ∈ parsedEvents events last) : ∃ l ∈ events, ∃ rest, e = l.toEvent rest := by
  induction events with
  | nil => cases h
  | cons l events ih =>
      rcases List.mem_cons.mp h with rfl | hrest
      · exact ⟨l, List.mem_cons_self, _, rfl⟩
      · obtain ⟨l', hl', hexists⟩ := ih hrest
        exact ⟨l', List.mem_cons_of_mem l hl', hexists⟩

/-- The registers of an encoded log. -/
theorem calcPcrs_encodeLog {md : Md 32} {b : EventBuf} {s : SpecId} {events : List LogEvent}
    (hlog : b.log = encodeLog s events) (h : ∀ e ∈ events, e.WellFormed)
    (hflag : FlagClean (events.map LogEvent.parsed))
    (hlocality : LocalityFirst (events.map LogEvent.parsed)) {format : Format}
    {pcrNums : List Nat} {t : CbData}
    (hrun : run (tpmParseEventlog md b) (CbData.start format pcrNums) = .ok (1, t)) (pcr : Nat) :
    t.calcPcrs pcr = replayFrom md (initialValue (events.map LogEvent.parsed) pcr)
      (extendedInto (events.map LogEvent.parsed) pcr) := by
  obtain ⟨hagile, hevents⟩ := b.events_encodeLog hlog
  have hregisters := tpmParseEventlog_replay hagile hrun
  have hclean : CleanFrom false (parsedEvents events b.slack) := by
    rw [cleanFrom_parsedEvents, cleanFrom_iff]
    exact ⟨hflag, Bool.noConfusion⟩
  show t.registers.pcrs pcr = _
  rw [hregisters, hevents, foldl_applyEvent_of_clean md _ _ _ hclean]
  show ((parsedEvents events b.slack).foldl (idealEvent md) (false, fun _ => zeroDigest 32)).2
    pcr = _
  rw [foldl_parsedEvents md h, foldl_idealEvent md _ hlocality]

/-- Nothing is printed while a log is parsed whose algorithms all have a name. -/
theorem messages_encodeLog {md : Md 32} {b : EventBuf} {s : SpecId} {events : List LogEvent}
    (hlog : b.log = encodeLog s events)
    (h : ∀ e ∈ events, ∀ d ∈ e.digests, d.algorithmId ∈ supportedAlgorithms) {format : Format}
    {pcrNums : List Nat} {t : CbData}
    (hrun : run (tpmParseEventlog md b) (CbData.start format pcrNums) = .ok (1, t)) :
    t.messages = [] := by
  obtain ⟨hagile, hevents⟩ := b.events_encodeLog hlog
  have hregisters := tpmParseEventlog_replay hagile hrun
  have hsupported : ∀ e ∈ b.events, ∀ d ∈ e.digests, d.algorithmId ∈ supportedAlgorithms := by
    intro e he d hd
    rw [hevents] at he
    obtain ⟨l, hl, rest, rfl⟩ := exists_of_mem_parsedEvents he
    obtain ⟨x, hx, rfl⟩ := List.mem_map.mp hd
    exact h l hl x hx
  show t.registers.messages = _
  rw [hregisters, foldl_applyEvent_messages md hsupported]
  rfl

/-- A log that firmware writes is accepted, whichever registers are printed, and each PCR is
the extension of the digests of its events. -/
theorem tpmParseEventlog_roundTrip (md : Md 32) {b : EventBuf} {s : SpecId}
    {events : List LogEvent} (hlog : b.log = encodeLog s events)
    (h : ∀ e ∈ events, e.WellFormed) (hflag : FlagClean (events.map LogEvent.parsed))
    (hlocality : LocalityFirst (events.map LogEvent.parsed)) (format : Format)
    (pcrNums : List Nat) :
    ∃ t, run (tpmParseEventlog md b) (CbData.start format pcrNums) = .ok (1, t) ∧
      ∀ pcr, t.calcPcrs pcr = replayFrom md (initialValue (events.map LogEvent.parsed) pcr)
        (extendedInto (events.map LogEvent.parsed) pcr) := by
  obtain ⟨t, hrun⟩ := tpmParseEventlog_encodeLog md hlog h format pcrNums
  exact ⟨t, hrun, calcPcrs_encodeLog hlog h hflag hlocality hrun⟩

/-! ## A short log -/

theorem specPreamble_length : (zeros 24).length = 24 := zeros_length 24

/-- A specification event for SHA-256. -/
def sha256Spec : SpecId where
  preamble := zeros 24
  algorithms := [(tpm2AlgSha256, 32)]
  vendorInfo := []
  preamble_length := specPreamble_length
  algorithms_pos := Nat.one_pos
  algorithms_lt := Nat.one_lt_two_pow (Nat.succ_ne_zero 15)
  vendorInfo_lt := Nat.succ_pos 255

def zeroLogDigest : LogDigest where
  algorithmId := tpm2AlgSha256
  digest := zeros 32
  algorithmId_lt := Nat.lt_of_lt_of_le (Nat.lt_succ_self 0xb) (Nat.le_of_ble_eq_true rfl)
  digest_length := zeros_length 32

/-- An `EV_NO_ACTION` or separator event with a digest of zeros. -/
def plainEvent (pcr type : Nat) (data : Bytes) (hpcr : pcr < 2 ^ 32) (htype : type < 2 ^ 32)
    (hdata : data.length < 2 ^ 32) : LogEvent where
  pcrIndex := pcr
  eventType := type
  digests := [zeroLogDigest]
  data := data
  pcrIndex_lt := hpcr
  eventType_lt := htype
  digests_lt := Nat.one_lt_two_pow (Nat.succ_ne_zero 31)
  data_lt := hdata

/-- The firmware was started at locality 3. -/
def startupEvent : LogEvent :=
  plainEvent 0 evNoAction (startupLocalitySignature ++ [3]) (by decide) (by decide) (by decide)

def separatorEvent (pcr : Nat) (h : pcr < 2 ^ 32) : LogEvent :=
  plainEvent pcr 4 (zeros 4) h (by decide) (by decide)

theorem startupEvent_wellFormed : startupEvent.WellFormed where
  pcr := by decide
  data := ⟨by decide, by decide, by decide, by decide, by decide, by decide⟩
  locality := by decide

theorem separatorData_wellFormed : WellFormedData 4 (zeros 4) :=
  ⟨by decide, by decide, by decide, by decide, by decide, by decide⟩

theorem separatorEvent_wellFormed {pcr : Nat} (h : pcr < 2 ^ 32) (hpcr : pcr < maxPcrs) :
    (separatorEvent pcr h).WellFormed where
  pcr := hpcr
  data := separatorData_wellFormed
  locality hno := absurd (show 4 = evNoAction from hno) (by decide)

/-- Nothing comes before the locality of a PCR 0 that is not extended. -/
theorem localityFirst_of_unextended {events : List Event} (h : extendedInto events 0 = []) :
    LocalityFirst events := by
  rintro before e after rfl -
  unfold extendedInto at h ⊢
  rw [List.flatMap_append] at h
  exact (List.append_eq_nil_iff.mp h).1

/-- Startup locality 3, and a separator in PCR 7. -/
def startupLog : List LogEvent := [startupEvent, separatorEvent 7 (by decide)]

def startupBuf : EventBuf := shortBuf (encodeLog sha256Spec startupLog) (by decide +kernel)

theorem startupLog_wellFormed : ∀ e ∈ startupLog, e.WellFormed := by
  intro e he
  rcases List.mem_pair.mp he with rfl | rfl
  · exact startupEvent_wellFormed
  · exact separatorEvent_wellFormed _ (by decide)

theorem startupLog_flagClean : FlagClean (startupLog.map LogEvent.parsed) := by
  have hclean : CleanFrom false (startupLog.map LogEvent.parsed) := ⟨rfl, nofun, trivial⟩
  exact ((cleanFrom_iff _ _).mp hclean).1

theorem startupLog_localityFirst : LocalityFirst (startupLog.map LogEvent.parsed) :=
  localityFirst_of_unextended rfl

theorem tpmParseEventlog_roundTrip_startup :
    ∃ t, run (tpmParseEventlog Sha256.sha256 startupBuf) (CbData.start .json [0, 7]) =
        .ok (1, t) ∧
      ∀ pcr, t.calcPcrs pcr = replayFrom Sha256.sha256
        (initialValue (startupLog.map LogEvent.parsed) pcr)
        (extendedInto (startupLog.map LogEvent.parsed) pcr) := by
  have hlog : startupBuf.log = encodeLog sha256Spec startupLog := rfl
  exact tpmParseEventlog_roundTrip Sha256.sha256 hlog startupLog_wellFormed startupLog_flagClean
    startupLog_localityFirst .json [0, 7]

end MeasuredBoot.SrtmLog
