import MeasuredBoot.SrtmLog.SkipFlag

/-! # Encoded logs

A crypto-agile log as firmware writes it: the specification event, and events with their
digests and data. The events the parser walks through are the ones that were encoded.
-/

namespace MeasuredBoot.SrtmLog

open Binary Imperative Imperative.Proc

/-- A number that fits its field is read back. -/
theorem ofLE_slice_toLE {mem pre post : Bytes} {off width value : Nat}
    (hmem : mem = pre ++ toLE width value ++ post) (hoff : off = pre.length)
    (hvalue : value < 256 ^ width) : ofLE (slice mem off width) = value := by
  rw [hmem, slice_middle hoff (toLE_length width value).symm, ofLE_toLE_of_lt hvalue]

/-! ## Digests -/

/-- A digest with the length of its algorithm. -/
structure LogDigest where
  algorithmId : Nat
  digest : Bytes
  algorithmId_lt : algorithmId < 2 ^ 16
  digest_length : digest.length = tpm2AlgUtilGetHashSize algorithmId

namespace LogDigest

def toDigest2 (d : LogDigest) : Digest2 := ⟨d.algorithmId, d.digest⟩

def bytes (d : LogDigest) : Bytes := toLE 2 d.algorithmId ++ d.digest

theorem bytes_length (d : LogDigest) : d.bytes.length = d.toDigest2.size := by
  simp only [bytes, List.length_append, toLE_length, d.digest_length]
  rfl

theorem digest2At_bytes (d : LogDigest) (rest : Bytes) :
    digest2At (d.bytes ++ rest) = d.toDigest2 := by
  have hid : ofLE (slice (d.bytes ++ rest) 0 2) = d.algorithmId := by
    have hmem : d.bytes ++ rest = [] ++ toLE 2 d.algorithmId ++ (d.digest ++ rest) := by
      simp [bytes]
    exact ofLE_slice_toLE hmem rfl d.algorithmId_lt
  have hdigest : slice (d.bytes ++ rest) 2 (tpm2AlgUtilGetHashSize d.algorithmId) = d.digest :=
    slice_middle (toLE_length ..).symm d.digest_length.symm
  rw [digest2At, hid, hdigest]
  rfl

end LogDigest

def encodeDigests (digests : List LogDigest) : Bytes := digests.flatMap LogDigest.bytes

theorem encodeDigests_length (digests : List LogDigest) :
    (encodeDigests digests).length = totalSize (digests.map LogDigest.toDigest2) := by
  induction digests with
  | nil => rfl
  | cons d digests ih =>
      simp only [encodeDigests, totalSize, List.flatMap_cons, List.length_append, List.map_cons,
        List.sum_cons, d.bytes_length] at ih ⊢
      rw [ih]

theorem digestsAt_encodeDigests (digests : List LogDigest) (rest : Bytes) :
    digestsAt digests.length (encodeDigests digests ++ rest) =
      digests.map LogDigest.toDigest2 := by
  induction digests with
  | nil => rfl
  | cons d digests ih =>
      have hmem : encodeDigests (d :: digests) ++ rest =
          d.bytes ++ (encodeDigests digests ++ rest) := by
        simp [encodeDigests]
      rw [List.length_cons, digestsAt, hmem, d.digest2At_bytes, ← d.bytes_length,
        List.drop_left, ih, List.map_cons]

/-! ## Events -/

structure LogEvent where
  pcrIndex : Nat
  eventType : Nat
  digests : List LogDigest
  data : Bytes
  pcrIndex_lt : pcrIndex < 2 ^ 32
  eventType_lt : eventType < 2 ^ 32
  digests_lt : digests.length < 2 ^ 32
  data_lt : data.length < 2 ^ 32

namespace LogEvent

def header (e : LogEvent) : Bytes :=
  toLE 4 e.pcrIndex ++ toLE 4 e.eventType ++ toLE 4 e.digests.length

def bytes (e : LogEvent) : Bytes :=
  e.header ++ encodeDigests e.digests ++ toLE 4 e.data.length ++ e.data

/-- The event the parser sees, with the bytes that follow it. -/
def toEvent (e : LogEvent) (rest : Bytes) : Event where
  pcrIndex := e.pcrIndex
  eventType := e.eventType
  digests := e.digests.map LogDigest.toDigest2
  data := e.data
  window := (e.data ++ rest).take 17

theorem header_length (e : LogEvent) : e.header.length = 12 := by
  simp only [header, List.length_append, toLE_length]

theorem bytes_length (e : LogEvent) :
    e.bytes.length = 12 + (encodeDigests e.digests).length + 4 + e.data.length := by
  simp only [bytes, List.length_append, e.header_length, toLE_length]

section At

variable (e : LogEvent) (rest : Bytes)

theorem header2At_bytes :
    header2At (e.bytes ++ rest) = ⟨e.pcrIndex, e.eventType, e.digests.length⟩ := by
  have hpcr : ofLE (slice (e.bytes ++ rest) 0 4) = e.pcrIndex := by
    have hmem : e.bytes ++ rest = [] ++ toLE 4 e.pcrIndex ++ (toLE 4 e.eventType ++
        toLE 4 e.digests.length ++ encodeDigests e.digests ++ toLE 4 e.data.length ++ e.data ++
        rest) := by
      simp [bytes, header]
    exact ofLE_slice_toLE hmem rfl e.pcrIndex_lt
  have htype : ofLE (slice (e.bytes ++ rest) 4 4) = e.eventType := by
    have hmem : e.bytes ++ rest = toLE 4 e.pcrIndex ++ toLE 4 e.eventType ++
        (toLE 4 e.digests.length ++ encodeDigests e.digests ++ toLE 4 e.data.length ++ e.data ++
        rest) := by
      simp [bytes, header]
    exact ofLE_slice_toLE hmem (toLE_length ..).symm e.eventType_lt
  have hcount : ofLE (slice (e.bytes ++ rest) 8 4) = e.digests.length := by
    have hmem : e.bytes ++ rest = (toLE 4 e.pcrIndex ++ toLE 4 e.eventType) ++
        toLE 4 e.digests.length ++ (encodeDigests e.digests ++ toLE 4 e.data.length ++ e.data ++
        rest) := by
      simp [bytes, header]
    exact ofLE_slice_toLE hmem (by simp) e.digests_lt
  rw [header2At, hpcr, htype, hcount]

theorem drop_header : (e.bytes ++ rest).drop 12 =
    encodeDigests e.digests ++ (toLE 4 e.data.length ++ e.data ++ rest) := by
  have hmem : e.bytes ++ rest =
      e.header ++ (encodeDigests e.digests ++ (toLE 4 e.data.length ++ e.data ++ rest)) := by
    simp [bytes]
  rw [hmem, ← e.header_length, List.drop_left]

theorem digestsAt_bytes : digestsAt (header2At (e.bytes ++ rest)).digestCount
    ((e.bytes ++ rest).drop 12) = e.digests.map LogDigest.toDigest2 := by
  rw [e.header2At_bytes, e.drop_header, digestsAt_encodeDigests]

theorem bodyOffset_bytes :
    bodyOffset (e.bytes ++ rest) = 12 + (encodeDigests e.digests).length := by
  rw [bodyOffset, e.digestsAt_bytes, encodeDigests_length]

theorem dataSize_bytes :
    ofLE (slice (e.bytes ++ rest) (bodyOffset (e.bytes ++ rest)) 4) = e.data.length := by
  have hmem : e.bytes ++ rest = (e.header ++ encodeDigests e.digests) ++ toLE 4 e.data.length ++
      (e.data ++ rest) := by
    simp [bytes]
  have hoff : bodyOffset (e.bytes ++ rest) = (e.header ++ encodeDigests e.digests).length := by
    rw [e.bodyOffset_bytes, List.length_append, e.header_length]
  exact ofLE_slice_toLE hmem hoff e.data_lt

theorem eventSizeAt_bytes : eventSizeAt (e.bytes ++ rest) = e.bytes.length := by
  rw [eventSizeAt, e.dataSize_bytes, e.bodyOffset_bytes, e.bytes_length]

theorem eventAt_bytes : eventAt (e.bytes ++ rest) = e.toEvent rest := by
  have hoff : bodyOffset (e.bytes ++ rest) + 4 =
      (e.header ++ encodeDigests e.digests ++ toLE 4 e.data.length).length := by
    rw [e.bodyOffset_bytes]
    simp only [List.length_append, e.header_length, toLE_length]
  have hdata : slice (e.bytes ++ rest) (bodyOffset (e.bytes ++ rest) + 4) e.data.length =
      e.data :=
    slice_middle hoff rfl
  have hwindow : slice (e.bytes ++ rest) (bodyOffset (e.bytes ++ rest) + 4) 17 =
      (e.data ++ rest).take 17 := by
    have hmem : e.bytes ++ rest = (e.header ++ encodeDigests e.digests ++
        toLE 4 e.data.length) ++ (e.data ++ rest) := by
      simp [bytes]
    rw [slice, hoff, hmem, List.drop_left]
  rw [eventAt, e.dataSize_bytes, hdata, hwindow, e.digestsAt_bytes, e.header2At_bytes]
  rfl

end At

end LogEvent

def encodeEvents (events : List LogEvent) : Bytes := events.flatMap LogEvent.bytes

/-- The events of the parser, with the bytes that follow the last one. -/
def parsedEvents : List LogEvent → Bytes → List Event
  | [], _ => []
  | e :: events, rest => e.toEvent (encodeEvents events ++ rest) :: parsedEvents events rest

theorem encodeEvents_cons (e : LogEvent) (events : List LogEvent) :
    encodeEvents (e :: events) = e.bytes ++ encodeEvents events := rfl

theorem LogEvent.bytes_pos (e : LogEvent) : 0 < e.bytes.length := by
  rw [e.bytes_length]
  omega

theorem eventsFrom_encodeEvents {events : List LogEvent} {rest : Bytes} {fuel : Nat}
    (h : (encodeEvents events).length < fuel) :
    eventsFrom fuel (encodeEvents events ++ rest) (encodeEvents events).length =
      parsedEvents events rest := by
  induction events generalizing fuel with
  | nil =>
      obtain ⟨fuel, rfl⟩ := Nat.exists_eq_succ_of_ne_zero (by omega : fuel ≠ 0)
      rfl
  | cons e events ih =>
      obtain ⟨fuel, rfl⟩ := Nat.exists_eq_succ_of_ne_zero (by omega : fuel ≠ 0)
      have hpos := e.bytes_pos
      rw [encodeEvents_cons, List.length_append] at h ⊢
      have hrest : e.bytes.length + (encodeEvents events).length - e.bytes.length =
          (encodeEvents events).length := by omega
      rw [eventsFrom, if_neg (by omega), List.append_assoc, e.eventAt_bytes, e.eventSizeAt_bytes,
        List.drop_left, hrest, ih (by omega)]
      rfl

/-! ## Logs -/

/-- A specification event: what stands in front of the number of algorithms, the
algorithms with their digest sizes, and the vendor's data. -/
structure SpecId where
  preamble : Bytes
  algorithms : List (Nat × Nat)
  vendorInfo : Bytes
  preamble_length : preamble.length = 24
  algorithms_pos : 0 < algorithms.length
  algorithms_lt : algorithms.length < 2 ^ 16
  vendorInfo_lt : vendorInfo.length < 256

namespace SpecId

def algorithmBytes (algorithms : List (Nat × Nat)) : Bytes :=
  algorithms.flatMap fun a => toLE 2 a.1 ++ toLE 2 a.2

def data (s : SpecId) : Bytes :=
  s.preamble ++ toLE 4 s.algorithms.length ++ algorithmBytes s.algorithms ++
    toLE 1 s.vendorInfo.length ++ s.vendorInfo

def bytes (s : SpecId) : Bytes :=
  toLE 4 0 ++ toLE 4 evNoAction ++ zeros 20 ++ toLE 4 s.data.length ++ s.data

theorem algorithmBytes_length (algorithms : List (Nat × Nat)) :
    (algorithmBytes algorithms).length = 4 * algorithms.length := by
  induction algorithms with
  | nil => rfl
  | cons a algorithms ih =>
      simp only [algorithmBytes, List.flatMap_cons, List.length_append, toLE_length,
        List.length_cons] at ih ⊢
      omega

theorem data_length (s : SpecId) :
    s.data.length = 29 + 4 * s.algorithms.length + s.vendorInfo.length := by
  simp only [data, List.length_append, toLE_length, s.preamble_length, algorithmBytes_length]
  omega

theorem bytes_length (s : SpecId) : s.bytes.length = 32 + s.data.length := by
  simp only [bytes, List.length_append, toLE_length, zeros_length]

section At

variable (s : SpecId) (rest : Bytes)

theorem eventType_bytes : ofLE (slice (s.bytes ++ rest) 4 4) = evNoAction := by
  have hmem : s.bytes ++ rest = toLE 4 0 ++ toLE 4 evNoAction ++
      (zeros 20 ++ toLE 4 s.data.length ++ s.data ++ rest) := by
    simp [bytes]
  exact ofLE_slice_toLE hmem (toLE_length ..).symm (by decide)

theorem specidEvent_bytes {size : Nat} (h : s.bytes.length ≤ size) :
    specidEvent (s.bytes ++ rest) size = some s.bytes.length := by
  have hlength := s.bytes_length
  have hdata := s.data_length
  have halgorithms := s.algorithms_lt
  have hvendorLt := s.vendorInfo_lt
  have hpcr : ofLE (slice (s.bytes ++ rest) 0 4) = 0 := by
    have hmem : s.bytes ++ rest = [] ++ toLE 4 0 ++ (toLE 4 evNoAction ++ zeros 20 ++
        toLE 4 s.data.length ++ s.data ++ rest) := by
      simp [bytes]
    exact ofLE_slice_toLE hmem rfl (by decide)
  have hdigest : slice (s.bytes ++ rest) 8 20 = zeros 20 := by
    have hmem : s.bytes ++ rest = (toLE 4 0 ++ toLE 4 evNoAction) ++ zeros 20 ++
        (toLE 4 s.data.length ++ s.data ++ rest) := by
      simp [bytes]
    rw [hmem]
    exact slice_middle rfl rfl
  have hsize : ofLE (slice (s.bytes ++ rest) 28 4) = s.data.length := by
    have hmem : s.bytes ++ rest = (toLE 4 0 ++ toLE 4 evNoAction ++ zeros 20) ++
        toLE 4 s.data.length ++ (s.data ++ rest) := by
      simp [bytes]
    exact ofLE_slice_toLE hmem rfl (by omega)
  have hcount : ofLE (slice (s.bytes ++ rest) 56 4) = s.algorithms.length := by
    have hmem : s.bytes ++ rest = (toLE 4 0 ++ toLE 4 evNoAction ++ zeros 20 ++
        toLE 4 s.data.length ++ s.preamble) ++ toLE 4 s.algorithms.length ++
        (algorithmBytes s.algorithms ++ toLE 1 s.vendorInfo.length ++ s.vendorInfo ++ rest) := by
      simp [bytes, data]
    exact ofLE_slice_toLE hmem (by simp [s.preamble_length]) (by omega)
  have hvendor : ofLE (slice (s.bytes ++ rest) (60 + 4 * s.algorithms.length) 1) =
      s.vendorInfo.length := by
    have hmem : s.bytes ++ rest = (toLE 4 0 ++ toLE 4 evNoAction ++ zeros 20 ++
        toLE 4 s.data.length ++ s.preamble ++ toLE 4 s.algorithms.length ++
        algorithmBytes s.algorithms) ++ toLE 1 s.vendorInfo.length ++
        (s.vendorInfo ++ rest) := by
      simp [bytes, data]
    have hoff : 60 + 4 * s.algorithms.length = (toLE 4 0 ++ toLE 4 evNoAction ++ zeros 20 ++
        toLE 4 s.data.length ++ s.preamble ++ toLE 4 s.algorithms.length ++
        algorithmBytes s.algorithms).length := by
      simp only [List.length_append, toLE_length, zeros_length, s.preamble_length,
        algorithmBytes_length]
    exact ofLE_slice_toLE hmem hoff (by omega)
  have hpos := s.algorithms_pos
  unfold specidEvent
  simp only [hsize, hcount, hvendor, s.eventType_bytes, hpcr, hdigest]
  rw [if_neg (by omega), if_neg (not_not.mpr rfl), if_neg (not_not.mpr rfl),
    if_neg (not_not.mpr rfl), if_neg (by omega), if_neg (by omega), if_neg (by omega),
    if_neg (by omega), if_neg (by omega), if_neg (by omega)]
  congr 1
  omega

end At

end SpecId

def encodeLog (s : SpecId) (events : List LogEvent) : Bytes := s.bytes ++ encodeEvents events

/-- The parser walks through the events that were encoded. -/
theorem EventBuf.events_encodeLog {b : EventBuf} {s : SpecId} {events : List LogEvent}
    (h : b.log = encodeLog s events) :
    b.CryptoAgile ∧ b.events = parsedEvents events b.slack := by
  have hlength : b.log.length = s.bytes.length + (encodeEvents events).length := by
    rw [h, encodeLog, List.length_append]
  have hbytes := s.bytes_length
  have hmemory : b.memory = s.bytes ++ (encodeEvents events ++ b.slack) := by
    rw [memory, h, encodeLog, List.append_assoc]
  constructor
  · refine ⟨by omega, ?_⟩
    rw [h, encodeLog, s.eventType_bytes]
  · have hspec : specidEvent b.memory b.log.length = some s.bytes.length := by
      rw [hmemory]
      exact s.specidEvent_bytes _ (by omega)
    have hrest : b.log.length - s.bytes.length = (encodeEvents events).length := by omega
    unfold EventBuf.events
    rw [hspec]
    dsimp only
    rw [hrest, hmemory, List.drop_left]
    exact eventsFrom_encodeEvents (Nat.lt_succ_self _)

end MeasuredBoot.SrtmLog
