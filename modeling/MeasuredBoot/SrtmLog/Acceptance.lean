import MeasuredBoot.Lib.Success
import MeasuredBoot.SrtmLog.Encode
import MeasuredBoot.SrtmLog.IplText
import MeasuredBoot.SrtmLog.Objects

/-! # Accepted logs

Every log that is encoded from well-formed events is accepted, whichever registers are
printed: no callback stops the parser, and no loop leaves the log.
-/

namespace MeasuredBoot.SrtmLog

open Binary Imperative Imperative.Proc

/-! ## What is printed -/

/-- The callbacks work on a register of the arrays. -/
def Active (s : CbData) : Prop := s.activePcr < maxPcrs

/-- The text is formatted, and its length is an `int`. -/
def Formats (text : Except Stop Bytes) : Prop := ∃ raw, text = .ok raw ∧ raw.length < 2 ^ 31

theorem Formats.ok {raw : Bytes} (h : raw.length < 2 ^ 31) : Formats (.ok raw) := ⟨raw, rfl, h⟩

theorem appendActive_succeeds (text : Bytes) :
    Succeeds Active (fun _ => True) (appendActive text) := by
  refine .bind .getState fun s hs => .bind (.when fun hbeyond => ?_) fun _ _ => .update ?_
  · exact absurd hs (Nat.not_lt.mpr hbeyond)
  · intro t ht
    exact ht

theorem addEvlog_succeeds {text : Except Stop Bytes} (h : Formats text) :
    Succeeds Active (fun _ => True) (addEvlog text) := by
  obtain ⟨raw, htext, hlength⟩ := h
  have hprinted : snprintf raw = .ok (raw.take 4095) := if_pos hlength
  refine .bind .getState fun s _ => .when fun _ => ?_
  exact .lift_bind htext (.lift_bind hprinted (appendActive_succeeds _))

theorem descriptionText_length (format : Format) (description : Bytes) :
    (descriptionText format description).length ≤ description.length + 30 := by
  cases format with
  | json => simp [descriptionText, ascii]
  | text => simp [descriptionText, ascii]

theorem addEvlogDescription_succeeds {description : Except Stop Bytes} {raw : Bytes}
    (h : description = .ok raw) (hlength : raw.length < 2 ^ 30) :
    Succeeds Active (fun _ => True) (addEvlogDescription description) := by
  refine .bind .getState fun s _ => addEvlog_succeeds ⟨descriptionText s.format raw, ?_, ?_⟩
  · rw [h]
    rfl
  · have hbound := descriptionText_length s.format raw
    omega

/-! ## Headers and digests -/

theorem eventInitvalCb_succeeds (locality : UInt8) {pcr : Nat} (h : pcr < maxPcrs) :
    Succeeds Active (fun _ => True) (eventInitvalCb locality pcr) := by
  have hlt : pcr < 24 := h
  refine .bind (.update fun _ _ => h) fun _ _ => .bind .getState fun s _ => ?_
  have hshort := initvalText_short s.format locality (show pcr < 2 ^ 32 by omega)
  exact addEvlog_succeeds (.ok (by omega))

theorem headerText_short (format : Format) (type : Nat) {pcr : Nat} (h : pcr < maxPcrs) :
    (headerText format type pcr).length ≤ 4095 := by
  have hlt : pcr < 24 := h
  have hname := (eventtypeToString_spec type).2
  have hpcr := decText_length (show pcr < 256 by omega)
  cases format with
  | json => exact headerText_length type (by omega)
  | text =>
      simp [headerText, ascii]
      omega

theorem event2HeaderCb_succeeds {hdr : Header2} (h : hdr.pcrIndex < maxPcrs) :
    Succeeds Active (fun _ => True) (event2HeaderCb hdr) := by
  refine .bind (.update fun _ _ => h) fun _ _ => .ite (fun _ => .update fun _ hs => hs) fun _ => ?_
  refine .bind .getState fun s _ => addEvlog_succeeds (.ok ?_)
  have hshort := headerText_short s.format hdr.eventType h
  omega

theorem digestText_short (format : Format) {d : Digest2} (h : d.digest.length ≤ 64) :
    (digestText format d).length ≤ 4095 := by
  have hname := (getAlgoStr_spec d.algorithmId).2
  have hhex := hexText_length d.digest
  cases format with
  | json => exact digestText_length h
  | text =>
      simp [digestText, ascii]
      omega

theorem eventDigestCb_succeeds (md : Md 32) {d : Digest2} (h : d.digest.length ≤ 64) :
    Succeeds Active (· = true) (eventDigestCb md d) := by
  refine .bind .getState fun s hs => .ite (fun _ => ?_) fun _ => ?_
  · exact .bind (.update fun _ hs => hs) fun _ _ => .bind (.update fun _ hs => hs) fun _ _ =>
      .pure rfl
  · refine .bind (.update fun _ hs => hs) fun _ _ => ?_
    refine .bind .getState fun t ht => .bind (addEvlog_succeeds (.ok ?_)) fun _ _ => ?_
    · have hshort := digestText_short t.format h
      omega
    refine .ite (fun hbeyond => absurd ht (Nat.not_lt.mpr hbeyond)) fun _ => ?_
    refine .ite (fun _ => ?_) fun _ => ?_
    · exact .bind (.update fun _ hs => hs) fun _ _ => .bind (.update fun _ hs => hs) fun _ _ =>
        .pure rfl
    · exact .bind (.update fun _ hs => hs) fun _ _ => .pure rfl

/-! ## Event data -/

/-- The data is long enough for the structure its type announces, the variable's lengths
add up, and a text has its NUL. -/
structure WellFormedData (type : Nat) (data : Bytes) : Prop where
  small : data.length < 2 ^ 28
  variable' : isVariableEvent type = true → 32 ≤ data.length ∧
    (32 + ofLE (slice data 16 8) * 2 + ofLE (slice data 24 8)) % 2 ^ 64 ≤ data.length
  blob : isBlobEvent type = true → 16 ≤ data.length
  imageLoad : isImageLoadEvent type = true → 32 ≤ data.length
  ipl : type = evIpl → data ≠ [] → 0 ∈ data
  gpt : type = evEfiGptEvent → data ≠ [] → 100 ≤ data.length

section Data

variable {type : Nat} {data : Bytes} (rest : Bytes)

/-- The `TCG_EVENT2` with the data, and what follows it. -/
def bodyBytes (data rest : Bytes) : Bytes := toLE 4 data.length ++ data ++ rest

theorem bodyBytes_size (h : data.length < 2 ^ 28) :
    ofLE (slice (bodyBytes data rest) 0 4) = data.length := by
  have hmem : bodyBytes data rest = [] ++ toLE 4 data.length ++ (data ++ rest) := by
    simp [bodyBytes]
  exact ofLE_slice_toLE hmem rfl (by omega)

theorem bodyBytes_data : (bodyBytes data rest).drop 4 = data ++ rest := by
  rw [bodyBytes, List.append_assoc]
  exact List.drop_left' (toLE_length ..)

theorem bodyBytes_drop : (bodyBytes data rest).drop (4 + data.length) = rest := by
  apply List.drop_left'
  rw [List.length_append, toLE_length]

theorem parseEvent2body_bodyBytes (h : WellFormedData type data) :
    parseEvent2body (bodyBytes data rest) type = true := by
  unfold parseEvent2body
  simp only [bodyBytes_size rest h.small, bodyBytes_data]
  split
  · next hvariable =>
    obtain ⟨hlong, hsum⟩ := h.variable' hvariable
    rw [slice_append_left rest (by omega), slice_append_left rest (by omega),
      Bool.and_eq_true, decide_eq_true_eq, decide_eq_true_eq]
    exact ⟨hlong, hsum⟩
  · split
    · next hblob => exact decide_eq_true (h.blob hblob)
    · split
      · next himage => exact decide_eq_true (h.imageLoad himage)
      · rfl

end Data

/-! ## Descriptions -/

theorem ofLE_slice_lt (mem : Bytes) (off width : Nat) : ofLE (slice mem off width) < 256 ^ width :=
  Nat.lt_of_lt_of_le (ofLE_lt _) (Nat.pow_le_pow_right (by decide) (List.length_take_le ..))

/-- A field of `width` bytes has at most twice as many digits. -/
theorem hexNumber_field (mem : Bytes) (off : Nat) {width : Nat} (h : 0 < width) :
    (hexNumber (ofLE (slice mem off width))).length ≤ 2 * width := by
  apply hexNumber_length_le (by omega)
  rw [Nat.pow_mul]
  exact ofLE_slice_lt mem off width

theorem decText_field (mem : Bytes) (off : Nat) {width : Nat} (h : 0 < width) :
    (decText (ofLE (slice mem off width))).length ≤ 3 * width := by
  apply decText_length_le (by omega)
  rw [Nat.pow_mul]
  exact (ofLE_slice_lt mem off width).trans_le (Nat.pow_le_pow_left (by decide) width)

theorem hexPadded_field (mem : Bytes) (off : Nat) {width : Nat} (h : 0 < width) :
    (hexPadded (2 * width) (ofLE (slice mem off width))).length = 2 * width := by
  have hdigits := hexNumber_field mem off h
  rw [hexPadded, List.length_append, List.length_replicate]
  omega

theorem hexText_slice (mem : Bytes) (off count : Nat) :
    (hexText (slice mem off count)).length ≤ 2 * count := by
  have hcount : (slice mem off count).length ≤ count := List.length_take_le ..
  rw [hexText_length]
  omega

theorem guidUnparseLower_length (mem : Bytes) : (guidUnparseLower mem).length ≤ 36 := by
  have htimeLow : (hexPadded 8 (ofLE (slice mem 0 4))).length = 8 :=
    hexPadded_field mem 0 (show 0 < 4 by decide)
  have htimeMid : (hexPadded 4 (ofLE (slice mem 4 2))).length = 4 :=
    hexPadded_field mem 4 (show 0 < 2 by decide)
  have htimeHigh : (hexPadded 4 (ofLE (slice mem 6 2))).length = 4 :=
    hexPadded_field mem 6 (show 0 < 2 by decide)
  have hclock := hexText_slice mem 8 2
  have hnode := hexText_slice mem 10 6
  simp [guidUnparseLower, ascii]
  omega

theorem variableDescription_length (mem : Bytes) : (variableDescription mem).length ≤ 45 := by
  have hguid := guidUnparseLower_length mem
  simp [variableDescription, ascii]
  omega

theorem gptDescription_length (mem : Bytes) : (gptDescription mem).length ≤ 1000 := by
  have hsignature : (cString (slice mem 0 8)).length ≤ 8 :=
    (List.takeWhile_prefix _).length_le.trans (List.length_take_le ..)
  have hguid := guidUnparseLower_length (slice mem 56 16)
  have hrevision := hexNumber_field mem 8 (show 0 < 4 by decide)
  have hheaderSize := decText_field mem 12 (show 0 < 4 by decide)
  have hcrc := hexNumber_field mem 16 (show 0 < 4 by decide)
  have hmyLba := hexNumber_field mem 24 (show 0 < 8 by decide)
  have halternate := hexNumber_field mem 32 (show 0 < 8 by decide)
  have hfirst := hexNumber_field mem 40 (show 0 < 8 by decide)
  have hlast := hexNumber_field mem 48 (show 0 < 8 by decide)
  have hentryLba := hexNumber_field mem 72 (show 0 < 8 by decide)
  have hentries := decText_field mem 80 (show 0 < 4 by decide)
  have hentrySize := decText_field mem 84 (show 0 < 4 by decide)
  have harrayCrc := hexNumber_field mem 88 (show 0 < 4 by decide)
  have hpartitions := decText_field mem 92 (show 0 < 8 by decide)
  unfold gptDescription
  simp only [List.length_append]
  simp [ascii]
  omega

theorem blobDescription_length (mem : Bytes) : (blobDescription mem).length ≤ 80 := by
  have hbase := hexNumber_field mem 0 (show 0 < 8 by decide)
  have hlength := hexNumber_field mem 8 (show 0 < 8 by decide)
  simp [blobDescription, ascii]
  omega

theorem imageLoadDescription_length (mem : Bytes) (size : Nat) :
    (imageLoadDescription mem size).length ≤ 2 * size + 300 := by
  have hlocation := hexNumber_field mem 0 (show 0 < 8 by decide)
  have hlength := decText_field mem 8 (show 0 < 8 by decide)
  have haddress := hexNumber_field mem 16 (show 0 < 8 by decide)
  have hdevicePath := decText_field mem 24 (show 0 < 8 by decide)
  have hpath := hexText_slice mem 32 (size - 32)
  simp [imageLoadDescription, ascii]
  omega

theorem precisionText_short {size : Nat} (h : size < 2 ^ 31) (mem : Bytes) :
    ∃ raw, precisionText size mem = .ok raw ∧ raw.length ≤ size := by
  have hmod : size % 2 ^ 32 = size := Nat.mod_eq_of_lt (by omega)
  refine ⟨cString (mem.take size), ?_, ?_⟩
  · rw [precisionText, hmod, if_pos h]
  · exact (List.takeWhile_prefix _).length_le.trans (List.length_take_le ..)

theorem plainDescription_short (type : Nat) {size : Nat} (h : size < 2 ^ 28) (mem : Bytes) :
    ∃ raw, plainDescription type size mem = .ok raw ∧ raw.length < 2 ^ 30 := by
  have hblob := blobDescription_length mem
  have himage := imageLoadDescription_length mem size
  obtain ⟨text, htext, hlength⟩ := precisionText_short (show size < 2 ^ 31 by omega) mem
  unfold plainDescription
  split_ifs
  · exact ⟨_, rfl, by omega⟩
  · exact ⟨text, htext, by omega⟩
  · exact ⟨_, rfl, by omega⟩
  · exact ⟨text, htext, by omega⟩
  · exact ⟨_, rfl, by omega⟩
  · exact ⟨[], rfl, by decide⟩

/-! ## The data callback -/

theorem printIpl_succeeds {data : Bytes} (rest : Bytes) (h : data.length < 2 ^ 28) :
    Succeeds Active (fun _ => True)
      (printIpl data.length (spacesForTabs (data ++ rest))) := by
  have hlines := iplLines_spacesForTabs data rest
  refine .bind .getState fun s _ => .bind (.forEach _ fun line hline => ?_) fun _ _ =>
    .when fun _ => addEvlog_succeeds (.ok (by decide))
  have hsize := (hlines.isLine line hline).le_size
  rw [spacesForTabs_length] at hsize
  obtain ⟨raw, hraw, hlength⟩ := precisionText_short (show line.1 < 2 ^ 31 by omega) line.2
  exact addEvlog_succeeds ⟨raw, hraw, by omega⟩

/-- The loop over tabs ends inside a text that has a NUL. -/
theorem spacesForTabs_behind {data : Bytes} (h : 0 ∈ data) (rest : Bytes) :
    (spacesForTabs (data ++ rest)).drop data.length = rest := by
  have hstring : (cString (data ++ rest)).length ≤ data.length := by
    obtain ⟨text, behind, hsplit, hnul⟩ := List.eq_append_cons_of_mem h
    rw [hsplit, List.append_assoc, List.cons_append, cString_append_nul hnul, List.length_append]
    omega
  rw [(spacesForTabs_drop _ _).mpr, List.drop_left]
  rw [List.drop_of_length_le hstring]
  exact List.not_mem_nil

theorem eventIpl_succeeds {data : Bytes} (rest : Bytes) (h : data.length < 2 ^ 28)
    (hnul : 0 ∈ data) :
    Succeeds Active (fun left => left.1 = true ∧ left.2.drop data.length = rest)
      (eventIpl data.length (data ++ rest)) := by
  have htabs := replaceTabs_of_nul (List.mem_append_left rest hnul)
  refine .bind .getState fun s _ => .bind (addEvlog_succeeds (.ok ?_)) fun _ _ =>
    .lift_bind htabs (.bind (printIpl_succeeds rest h) fun _ _ => .pure ⟨rfl, ?_⟩)
  · cases s.format <;> decide
  · exact spacesForTabs_behind hnul rest

theorem eventDataCb_succeeds {type : Nat} {data : Bytes} (rest : Bytes)
    (h : WellFormedData type data) :
    Succeeds Active (fun left => left.1 = true ∧ left.2.drop (4 + data.length) = rest)
      (eventDataCb (bodyBytes data rest) type) := by
  have hsmall := h.small
  have hbehind := @bodyBytes_drop data rest
  unfold eventDataCb eventDataCbWith
  simp only [bodyBytes_size rest hsmall, bodyBytes_data]
  refine .ite (fun _ => .pure ⟨rfl, hbehind⟩) fun hsize => ?_
  have hne : data ≠ [] := fun hnil => hsize (by rw [hnil]; rfl)
  refine .ite (fun hvariable => ?_) fun _ => .ite (fun hipl => ?_) fun _ =>
    .ite (fun hgpt => ?_) fun _ => .ite (fun _ => .pure ⟨rfl, hbehind⟩) fun _ => ?_
  · have hlong := (h.variable' hvariable).1
    have hshort := variableDescription_length (data ++ rest)
    refine .bind (P := (· = true)) ?_ fun ret hret => .pure ⟨hret, hbehind⟩
    refine .ite (fun hless => absurd hlong (by omega)) fun _ => ?_
    exact .bind (addEvlogDescription_succeeds rfl (by omega)) fun _ _ => .pure rfl
  · refine .bind (eventIpl_succeeds rest hsmall (h.ipl hipl hne)) fun left hleft =>
      .pure ⟨hleft.1, ?_⟩
    have hsizeField : ((bodyBytes data rest).take 4).length = 4 := by
      rw [bodyBytes, List.append_assoc, List.take_left' (toLE_length ..), toLE_length]
    rw [List.drop_append, hsizeField, List.drop_of_length_le (by omega), Nat.add_sub_cancel_left,
      List.nil_append]
    exact hleft.2
  · have hlong := h.gpt hgpt hne
    have hshort := gptDescription_length (data ++ rest)
    refine .bind (P := (· = true)) ?_ fun ret hret => .pure ⟨hret, hbehind⟩
    refine .ite (fun hless => absurd hlong (by omega)) fun _ => ?_
    exact .bind (addEvlogDescription_succeeds rfl (by omega)) fun _ _ => .pure rfl
  · obtain ⟨raw, hraw, hlength⟩ := plainDescription_short type hsmall (data ++ rest)
    exact .bind (addEvlogDescription_succeeds hraw hlength) fun _ _ => .pure ⟨rfl, hbehind⟩

/-! ## One event -/

/-- An event on a register of the arrays, with data as its type announces it. An event
that may tell the startup locality is as long as `EV_NO_ACTION_STRUCT`. -/
structure LogEvent.WellFormed (e : LogEvent) : Prop where
  pcr : e.pcrIndex < maxPcrs
  data : WellFormedData e.eventType e.data
  locality : e.eventType = evNoAction → e.pcrIndex = 0 → 17 ≤ e.data.length

theorem digest2Accumulator_succeeds (d : Digest2) :
    Succeeds (fun _ => True) (fun _ => True) (digestRound digest2Accumulator d) :=
  .bind (P := (· = true)) (.bind (.update fun _ h => h) fun _ _ => .pure rfl) fun _ hret =>
    .exitIf (by simp [hret])

section Event

variable {e : LogEvent} (rest : Bytes)

theorem foreachDigest2_bytes {σ : Type} (cb : Digest2 → Proc σ Bool) {size : Nat}
    (hpcr : e.pcrIndex < maxPcrs) (h : (encodeDigests e.digests).length ≤ size) :
    foreachDigest2 cb e.pcrIndex ((e.bytes ++ rest).drop 12) e.digests.length size =
      forEach (digestRound cb) (e.digests.map LogDigest.toDigest2) := by
  have hlt : e.pcrIndex < 24 := hpcr
  have hdigests := e.digestsAt_bytes rest
  rw [e.header2At_bytes] at hdigests
  have hsize : totalSize (digestsAt e.digests.length ((e.bytes ++ rest).drop 12)) ≤ size := by
    rw [hdigests, ← encodeDigests_length]
    exact h
  unfold foreachDigest2
  rw [exitIf_neg (by unfold tpm2MaxPcrs; omega), pure_bind, digestLoop_eq cb _ _ _ hsize,
    hdigests]

/-- The counting pass adds up the digests that were encoded. -/
theorem countDigests_bytes (hpcr : e.pcrIndex < maxPcrs) {size : Nat}
    (h : (encodeDigests e.digests).length ≤ size) :
    run (do
      foreachDigest2 digest2Accumulator e.pcrIndex ((e.bytes ++ rest).drop 12) e.digests.length
        size
      return (1 : Int)) 0 = .ok (1, (encodeDigests e.digests).length) := by
  have hcount : Succeeds (fun _ => True) (· = (1 : Int)) (do
      foreachDigest2 digest2Accumulator e.pcrIndex ((e.bytes ++ rest).drop 12) e.digests.length
        size
      return (1 : Int)) := by
    rw [foreachDigest2_bytes rest _ hpcr h]
    exact .bind (.forEach _ fun d _ => digest2Accumulator_succeeds d) fun _ _ => .pure rfl
  obtain ⟨r, total, hrun, hone, -⟩ := hcount.run (s := 0) trivial
  have hspec := countDigests_spec (e.bytes ++ rest) size
  rw [e.header2At_bytes, e.bodyOffset_bytes] at hspec
  have htotal := (run_of_wlp hspec hrun hone).2
  rw [hrun, hone, show total = (encodeDigests e.digests).length by omega]

theorem parseEvent2_bytes {σ : Type} (hpcr : e.pcrIndex < maxPcrs) {size : Nat}
    (h : e.bytes.length ≤ size) :
    (parseEvent2 (e.bytes ++ rest) size : Proc σ Layout) =
      pure ⟨e.bytes.length, (encodeDigests e.digests).length⟩ := by
  have hlength := e.bytes_length
  have hdata := e.dataSize_bytes rest
  rw [e.bodyOffset_bytes] at hdata
  have hcount := countDigests_bytes rest hpcr
    (show (encodeDigests e.digests).length ≤ size - 12 by omega)
  unfold parseEvent2
  simp only [e.header2At_bytes]
  rw [exitIf_neg (by omega), pure_bind, inner_of_run hcount, pure_bind,
    exitIf_neg (by simp), pure_bind, exitIf_neg (by simp only; omega), pure_bind]
  simp only [hdata]
  rw [exitIf_neg (by omega), pure_bind, hlength]

theorem localityAt_long {data : Bytes} (h : 17 ≤ data.length) :
    ∃ locality, localityAt data = .ok locality := by
  unfold localityAt
  rw [copyFrom_ok (by omega), copyFrom_ok (by omega)]
  by_cases hsignature : slice data 0 16 = startupLocalitySignature
  · exact ⟨_, if_pos hsignature⟩
  · exact ⟨_, if_neg hsignature⟩

variable (md : Md 32)

theorem localityStep_succeeds (h : e.WellFormed) (vars : LoopVars) (count : Nat) :
    Succeeds Active (fun _ => True) (localityStep (programContext md) vars
      ⟨e.pcrIndex, e.eventType, count⟩ e.bytes.length (e.data ++ rest)) := by
  have hlength := e.bytes_length
  refine .ite (fun _ => ?_) fun _ => .ite (fun hlocality => ?_) fun _ => .pure trivial
  · exact .bind (.update fun _ hs => hs) fun _ _ => .pure trivial
  · have hlong := h.locality hlocality.2.1 hlocality.2.2
    obtain ⟨locality, hread⟩ := localityAt_long (show 17 ≤ (e.data ++ rest).length by
      rw [List.length_append]
      omega)
    refine .bind (.exitIf (by omega)) fun _ _ => .lift_bind hread ?_
    cases locality with
    | none => exact .pure trivial
    | some locality => exact .bind (.update fun _ hs => hs) fun _ _ => .pure trivial

theorem initvalStep_succeeds (vars : LoopVars) {pcr : Nat} (h : pcr < maxPcrs) :
    Succeeds Active (fun _ => True) (initvalStep (programContext md) vars pcr) := by
  refine .ite (fun _ => ?_) fun _ => .pure trivial
  exact .bind (eventInitvalCb_succeeds _ h) fun _ _ => .pure trivial

theorem digestRound_succeeds {d : Digest2} (h : d.digest.length ≤ 64) :
    Succeeds Active (fun _ => True) (digestRound (eventDigestCb md) d) :=
  .bind (eventDigestCb_succeeds md h) fun _ hret => .exitIf (by simp [hret])

theorem LogDigest.short (d : LogDigest) : d.toDigest2.digest.length ≤ 64 := by
  show d.digest.length ≤ 64
  rw [d.digest_length]
  unfold tpm2AlgUtilGetHashSize
  split_ifs <;> omega

/-- The `TCG_EVENT2` behind the digests. -/
theorem LogEvent.body_bytes (e : LogEvent) (rest : Bytes) :
    (e.bytes ++ rest).drop (12 + (encodeDigests e.digests).length) = bodyBytes e.data rest := by
  rw [← List.drop_drop, e.drop_header, List.drop_left]
  rfl

theorem event2Head_succeeds (h : e.WellFormed) (vars : LoopVars) :
    Succeeds Active (fun _ => True) (event2Head (programContext md) vars (e.bytes ++ rest)
      ⟨e.bytes.length, (encodeDigests e.digests).length⟩) := by
  unfold event2Head
  simp only [e.header2At_bytes, e.body_bytes, bodyBytes_data]
  refine .bind (localityStep_succeeds rest md h vars _) fun vars _ =>
    .bind (initvalStep_succeeds md vars h.pcr) fun vars _ =>
    .bind (event2HeaderCb_succeeds h.pcr) fun _ _ => .bind (P := fun _ => True) ?_ fun _ _ =>
    .bind (.exitIf ?_) fun _ _ => .pure trivial
  · rw [foreachDigest2_bytes rest _ h.pcr (Nat.le_refl _)]
    refine .forEach _ fun d hd => ?_
    obtain ⟨d, -, rfl⟩ := List.mem_map.mp hd
    exact digestRound_succeeds md d.short
  · rw [e.body_bytes, e.header2At_bytes, parseEvent2body_bodyBytes rest h.data]
    exact Bool.noConfusion

theorem deliverData_succeeds {type : Nat} {data : Bytes} (h : WellFormedData type data) :
    Succeeds Active (· = rest)
      (deliverData (programContext md) (bodyBytes data rest) type (4 + data.length)) := by
  have hcallback : (programContext md).event2Cb (bodyBytes data rest) type =
      eventDataCb (bodyBytes data rest) type := rfl
  unfold deliverData
  rw [hcallback]
  exact .bind (eventDataCb_succeeds rest h) fun left hleft =>
    .bind (.exitIf (by simp [hleft.1])) fun _ _ => .pure hleft.2

theorem event2Step_succeeds (h : e.WellFormed) (vars : LoopVars) {size : Nat}
    (hsize : e.bytes.length ≤ size) :
    Succeeds Active (fun next => next.2 = (rest, size - e.bytes.length))
      (event2Step (programContext md) vars (e.bytes ++ rest) size) := by
  have hlength := e.bytes_length
  have hdata : e.bytes.length - (12 + (encodeDigests e.digests).length) = 4 + e.data.length := by
    omega
  unfold event2Step
  rw [parseEvent2_bytes rest h.pcr hsize, pure_bind]
  simp only [e.header2At_bytes, e.body_bytes, hdata]
  exact .bind (event2Head_succeeds rest md h vars) fun vars _ =>
    .bind (deliverData_succeeds rest md h.data) fun next hnext => .pure (by rw [hnext])

end Event

/-! ## The log -/

/-- Nothing is printed for the specification event. -/
theorem eventSpecidCb_noAction {event : Bytes} (h : ofLE (slice event 4 4) = evNoAction) :
    eventSpecidCb event = pure () := by
  unfold eventSpecidCb Proc.when
  exact if_neg (not_not.mpr h)

theorem event2Loop_succeeds (md : Md 32) {events : List LogEvent} (rest : Bytes)
    (h : ∀ e ∈ events, e.WellFormed) (vars : LoopVars) {fuel : Nat}
    (hfuel : (encodeEvents events).length < fuel) :
    Succeeds Active (fun _ => True) (event2Loop (programContext md) fuel vars
      (encodeEvents events ++ rest) (encodeEvents events).length) := by
  induction events generalizing vars fuel with
  | nil =>
      obtain ⟨fuel, rfl⟩ := Nat.exists_eq_succ_of_ne_zero (by omega : fuel ≠ 0)
      exact .pure trivial
  | cons e events ih =>
      obtain ⟨fuel, rfl⟩ := Nat.exists_eq_succ_of_ne_zero (by omega : fuel ≠ 0)
      have hpos := e.bytes_pos
      have hrest := ih fun e' he' => h e' (List.mem_cons_of_mem e he')
      rw [encodeEvents_cons, List.length_append] at hfuel ⊢
      rw [List.append_assoc]
      refine .ite (fun hzero => absurd hzero (by omega)) fun _ =>
        .bind (event2Step_succeeds _ md (h e List.mem_cons_self) vars (by omega))
          fun next hnext => ?_
      rw [hnext, Nat.add_sub_cancel_left]
      exact hrest next.1 (by omega)

/-- Every log that is encoded from well-formed events is accepted. -/
theorem tpmParseEventlog_encodeLog (md : Md 32) {b : EventBuf} {s : SpecId}
    {events : List LogEvent} (hlog : b.log = encodeLog s events)
    (h : ∀ e ∈ events, e.WellFormed) (format : Format) (pcrNums : List Nat) :
    ∃ t, run (tpmParseEventlog md b) (CbData.start format pcrNums) = .ok (1, t) := by
  have hbytes := s.bytes_length
  have hlength : b.log.length = s.bytes.length + (encodeEvents events).length := by
    rw [hlog, encodeLog, List.length_append]
  have hmemory : b.memory = s.bytes ++ (encodeEvents events ++ b.slack) := by
    rw [EventBuf.memory, hlog, encodeLog, List.append_assoc]
  have htype := s.eventType_bytes (encodeEvents events ++ b.slack)
  have hspecid : (programContext md).specidCb (s.bytes ++ (encodeEvents events ++ b.slack)) =
      pure () := eventSpecidCb_noAction htype
  have hsucceeds : Succeeds Active (· = (1 : Int)) (tpmParseEventlog md b) := by
    unfold tpmParseEventlog parseEventlog
    rw [exitIf_neg (by omega), pure_bind, hmemory, htype, if_pos rfl,
      s.specidEvent_bytes _ (by omega)]
    simp only [hspecid, pure_bind]
    refine .bind (P := fun _ => True) ?_ fun _ _ => .pure rfl
    rw [List.drop_left, hlength, Nat.add_sub_cancel_left]
    exact event2Loop_succeeds md b.slack h LoopVars.start (Nat.lt_succ_self _)
  have hstart : Active (CbData.start format pcrNums) := Nat.succ_pos 23
  obtain ⟨r, t, hrun, hone, -⟩ := hsucceeds.run hstart
  exact ⟨t, by rw [hrun, hone]⟩

end MeasuredBoot.SrtmLog
