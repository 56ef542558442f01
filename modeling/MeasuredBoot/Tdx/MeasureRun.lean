import MeasuredBoot.Common.Sha2
import MeasuredBoot.Tdx.RecordStream

/-! # Whole runs of the firmware measurement

Every run of `measureOvmf` is one of three: turned down before the sections, an
accepted image hashed record by record, or abandoned on the way with the digest
unwritten. From this follow the agreement of the two QEMU orders and that the
digest binds the records.
-/

namespace MeasuredBoot.Tdx

open Binary Imperative Imperative.Proc

/-! ## Accepted images -/

/-- The metadata an image describes: where it is, and its valid descriptor. -/
structure Describes (rawImage : Buffer) (metadataOffset : UInt64) (d : TdxMetadataDescriptor) :
    Prop where
  found : getOvmfMetadataOffset rawImage = .ok (some metadataOffset)
  descriptor : readDescriptor rawImage metadataOffset = .ok d
  valid : isValidDescriptor d = true

theorem Describes.unique {rawImage : Buffer} {off off' : UInt64} {d d' : TdxMetadataDescriptor}
    (h : Describes rawImage off d) (h' : Describes rawImage off' d') : off' = off ∧ d' = d := by
  have hoff : off' = off := by
    have hsame := h'.found.symm.trans h.found
    simpa using hsame
  subst hoff
  have hsame := h'.descriptor.symm.trans h.descriptor
  exact ⟨rfl, by simpa using hsame⟩

/-- The metadata and its section table lie in the image. -/
structure TableInside (rawImage : Buffer) (metadataOffset : UInt64) (d : TdxMetadataDescriptor) :
    Prop where
  metadata : metadataOffset.toNat + 16 + d.length.toNat ≤ rawImage.bytes.length
  sections : 16 + 32 * d.numberOfSectionEntry.toNat ≤ d.length.toNat

/-- The sections of the metadata, in descriptor order. -/
def sectionsOf (rawImage : Buffer) (metadataOffset : UInt64) (d : TdxMetadataDescriptor) :
    List TdxMetadataSection :=
  (List.range d.numberOfSectionEntry.toNat).map (sectionAt rawImage metadataOffset)

/-- The complete record sequence of an image under a QEMU version. -/
def recordsOf (rawImage : Buffer) (qemuVersion : Bytes) (metadataOffset : UInt64)
    (d : TdxMetadataDescriptor) : List TdxRecord :=
  (sectionsOf rawImage metadataOffset d).flatMap (sectionRecords rawImage qemuVersion)

/-- The section loop of an image whose table lies inside it. -/
theorem sectionLoop_emits (ret : Int) {rawImage : Buffer} (qemuVersion : Bytes)
    {metadataBuf : Bytes} {metadataOffset : UInt64} {d : TdxMetadataDescriptor}
    (hcopy : copyMetadata rawImage metadataOffset d = .ok metadataBuf) (n : Nat)
    (hn : 16 + 32 * n ≤ d.length.toNat) :
    Emits ovmfSink ret
      (forEach (measureSection ret rawImage qemuVersion metadataBuf) (List.range n))
      (∀ i < n, SectionAccepted rawImage qemuVersion (sectionAt rawImage metadataOffset i))
      ((List.range n).flatMap fun i =>
        updatesOf (sectionRecords rawImage qemuVersion (sectionAt rawImage metadataOffset i))) :=
  Emits.forRange n fun _ _ _ =>
    measureSection_emits ret rawImage qemuVersion (readSection_copy hcopy (by omega))

theorem sectionLoop_output (rawImage : Buffer) (qemuVersion : Bytes) (metadataOffset : UInt64)
    (d : TdxMetadataDescriptor) :
    ((List.range d.numberOfSectionEntry.toNat).flatMap fun i =>
      updatesOf (sectionRecords rawImage qemuVersion (sectionAt rawImage metadataOffset i))) =
      updatesOf (recordsOf rawImage qemuVersion metadataOffset d) := by
  simp only [recordsOf, sectionsOf, updatesOf_flatMap, List.flatMap_map]

/-- What it takes for an image to be measured in full. -/
structure Accepted (rawImage : Buffer) (qemuVersion : Bytes) (metadataOffset : UInt64)
    (d : TdxMetadataDescriptor) : Prop where
  describes : Describes rawImage metadataOffset d
  inside : TableInside rawImage metadataOffset d
  sections : ∀ sec ∈ sectionsOf rawImage metadataOffset d,
    SectionAccepted rawImage qemuVersion sec

/-- Every allocation succeeds and the digest starts. -/
structure OvmfEnv.Ready (env : OvmfEnv) : Prop where
  metadata : env.metadataAllocated = true
  ctx : env.ctxCreated = true
  digest : env.digestStarted = true

/-- The body from the valid descriptor on. -/
theorem measureOvmf_of_describes {md : Md 48} {env : OvmfEnv} {rawImage : Buffer}
    {qemuVersion : Bytes} {metadataOffset : UInt64} {d : TdxMetadataDescriptor}
    (h : Describes rawImage metadataOffset d) :
    measureOvmf md env rawImage qemuVersion = (do
      exitIf (env.metadataAllocated = false) (-1)
      let metadataBuf ← lift (copyMetadata rawImage metadataOffset d)
      exitIf (env.ctxCreated = false) 0
      exitIf (env.digestStarted = false) 0
      measureSections md 0 rawImage qemuVersion metadataBuf d) := by
  unfold measureOvmf
  rw [h.found]
  change (do
    let d ← lift (readDescriptor rawImage metadataOffset)
    exitIf (isValidDescriptor d = false) (-1)
    _) = _
  rw [h.descriptor]
  change (do
    exitIf (isValidDescriptor d = false) (-1)
    _) = _
  rw [exitIf_neg (by simp [h.valid])]
  rfl

theorem measureOvmf_of_inside {md : Md 48} {env : OvmfEnv} {rawImage : Buffer}
    {qemuVersion : Bytes} {metadataOffset : UInt64} {d : TdxMetadataDescriptor}
    (h : Describes rawImage metadataOffset d) (henv : env.Ready) {metadataBuf : Bytes}
    (hcopy : copyMetadata rawImage metadataOffset d = .ok metadataBuf) :
    measureOvmf md env rawImage qemuVersion =
      measureSections md 0 rawImage qemuVersion metadataBuf d := by
  rw [measureOvmf_of_describes h, exitIf_neg (by simp [henv.metadata]),
    exitIf_neg (by simp [henv.ctx]), exitIf_neg (by simp [henv.digest]), hcopy]
  rfl

theorem copyMetadata_inside {rawImage : Buffer} {metadataOffset : UInt64}
    {d : TdxMetadataDescriptor} (h : TableInside rawImage metadataOffset d) :
    copyMetadata rawImage metadataOffset d =
      .ok (slice rawImage.bytes (metadataOffset.toNat + 16) d.length.toNat) :=
  copyFrom_ok h.metadata

theorem forall_sections {rawImage : Buffer} {metadataOffset : UInt64}
    {d : TdxMetadataDescriptor} {P : TdxMetadataSection → Prop} :
    (∀ sec ∈ sectionsOf rawImage metadataOffset d, P sec) ↔
      ∀ i < d.numberOfSectionEntry.toNat, P (sectionAt rawImage metadataOffset i) := by
  simp [sectionsOf]

/-- An accepted image is hashed record by record and its digest written. -/
theorem run_of_accepted (md : Md 48) {env : OvmfEnv} {rawImage : Buffer} {qemuVersion : Bytes}
    {metadataOffset : UInt64} {d : TdxMetadataDescriptor}
    (h : Accepted rawImage qemuVersion metadataOffset d) (henv : env.Ready) :
    run (measureOvmf md env rawImage qemuVersion) OvmfRun.start =
      .ok (0, ⟨updatesOf (recordsOf rawImage qemuVersion metadataOffset d),
        some (md (updatesOf (recordsOf rawImage qemuVersion metadataOffset d)).flatten)⟩) := by
  have hcopy := copyMetadata_inside h.inside
  have hloop := (sectionLoop_emits 0 qemuVersion hcopy _
    h.inside.sections).completes (forall_sections.mp h.sections) OvmfRun.start
  rw [measureOvmf_of_inside h.describes henv hcopy, measureSections, run, bind_apply, hloop,
    sectionLoop_output]
  rfl

theorem range_split {k n : Nat} (h : k < n) :
    List.range n = List.range k ++ k :: (List.range (n - k - 1)).map (k + 1 + ·) := by
  obtain ⟨m, rfl⟩ : ∃ m, n = k + (m + 1) := ⟨n - k - 1, by omega⟩
  rw [List.range_add, List.range_succ_eq_map]
  simp [Function.comp_def, Nat.add_assoc, Nat.add_comm 1]

/-- The updates end in the first section that is turned down: those in front of it went in
whole, and of its own records a first part. -/
def StopsAt (rawImage : Buffer) (qemuVersion : Bytes) (metadataOffset : UInt64)
    (d : TdxMetadataDescriptor) (updates : List Bytes) : Prop :=
  ∃ done sec rest pre, sectionsOf rawImage metadataOffset d = done ++ sec :: rest ∧
    (∀ x ∈ done, SectionAccepted rawImage qemuVersion x) ∧
    ¬SectionAccepted rawImage qemuVersion sec ∧
    pre <+: updatesOf (sectionRecords rawImage qemuVersion sec) ∧
    updates = updatesOf (done.flatMap (sectionRecords rawImage qemuVersion)) ++ pre

theorem StopsAt.front {rawImage : Buffer} {qemuVersion : Bytes} {metadataOffset : UInt64}
    {d : TdxMetadataDescriptor} {updates : List Bytes}
    (h : StopsAt rawImage qemuVersion metadataOffset d updates) :
    updates <+: updatesOf (recordsOf rawImage qemuVersion metadataOffset d) := by
  obtain ⟨done, sec, rest, pre, hsections, -, -, hpre, rfl⟩ := h
  rw [recordsOf, hsections, List.flatMap_append, List.flatMap_cons, updatesOf_append,
    updatesOf_append]
  exact (List.prefix_append_right_inj _).mpr (hpre.trans (List.prefix_append _ _))

/-- An image whose table lies inside it is measured in full, or abandoned in its first bad
section with the digest unwritten. -/
theorem run_of_rejected (md : Md 48) {env : OvmfEnv} {rawImage : Buffer} {qemuVersion : Bytes}
    {metadataOffset : UInt64} {d : TdxMetadataDescriptor}
    (h : Describes rawImage metadataOffset d) (hinside : TableInside rawImage metadataOffset d)
    (hreject : ¬Accepted rawImage qemuVersion metadataOffset d) (henv : env.Ready) :
    ∃ updates, StopsAt rawImage qemuVersion metadataOffset d updates ∧
      run (measureOvmf md env rawImage qemuVersion) OvmfRun.start = .ok (0, ⟨updates, none⟩) := by
  have hcopy := copyMetadata_inside hinside
  have hsections : ¬∀ i < d.numberOfSectionEntry.toNat,
      SectionAccepted rawImage qemuVersion (sectionAt rawImage metadataOffset i) :=
    fun hall => hreject ⟨h, hinside, forall_sections.mpr hall⟩
  have hfits := hinside.sections
  obtain ⟨i, hi, hdone, hbad, pre, hpre, hloop⟩ :=
    Emits.forRange_stops d.numberOfSectionEntry.toNat (fun i _ _ =>
      measureSection_emits 0 rawImage qemuVersion (readSection_copy hcopy (by omega)))
      hsections OvmfRun.start
  have hsplit := congrArg (List.map (sectionAt rawImage metadataOffset)) (range_split hi)
  rw [List.map_append, List.map_cons] at hsplit
  refine ⟨_, ⟨_, _, _, pre, hsplit, ?_, hbad, hpre, rfl⟩, ?_⟩
  · intro x hx
    obtain ⟨j, hj, rfl⟩ := List.mem_map.mp hx
    exact hdone j (List.mem_range.mp hj)
  · rw [measureOvmf_of_inside h henv hcopy, measureSections, run, bind_apply, hloop,
      updatesOf_flatMap, List.flatMap_map]
    rfl

theorem sections_pos {d : TdxMetadataDescriptor} (h : isValidDescriptor d = true) :
    0 < d.numberOfSectionEntry.toNat := by
  have hne : d.numberOfSectionEntry ≠ 0 := by
    simp only [isValidDescriptor, Bool.and_eq_true, decide_eq_true_eq] at h
    exact h.2
  rw [Nat.pos_iff_ne_zero]
  exact fun hzero => hne (UInt32.toNat_inj.mp hzero)

/-- A table that runs past the metadata buffer ends the loop in it or with a fault. -/
theorem sectionLoop_overrun {rawImage : Buffer} (qemuVersion : Bytes) {metadataBuf : Bytes}
    {metadataOffset : UInt64} {d : TdxMetadataDescriptor}
    (hcopy : copyMetadata rawImage metadataOffset d = .ok metadataBuf) {n : Nat}
    (hpos : 0 < n) (hn : ¬16 + 32 * n ≤ d.length.toNat) (s : OvmfRun) :
    (∃ pre, forEach (measureSection 0 rawImage qemuVersion metadataBuf) (List.range n) s =
      .exit 0 (ovmfSink.emit pre s)) ∨
    forEach (measureSection 0 rawImage qemuVersion metadataBuf) (List.range n) s =
      .stop .fault := by
  -- the records the buffer holds, and the first one it does not
  obtain ⟨k, hk, hnext⟩ : ∃ k < n, (k = 0 ∨ 16 + 32 * k ≤ d.length.toNat) ∧
      ¬16 + 32 * (k + 1) ≤ d.length.toNat := by
    refine ⟨(d.length.toNat - 16) / 32, ?_, ?_, ?_⟩ <;> omega
  have hlen : metadataBuf.length = d.length.toNat := by
    obtain ⟨hin, rfl⟩ := copyFrom_eq_ok.mp hcopy
    exact slice_length hin
  have hfault : measureSection 0 rawImage qemuVersion metadataBuf k =
      fun _ => .stop .fault := by
    unfold measureSection
    rw [readSection_fault (by rw [hlen]; exact hnext.2)]
    rfl
  have hread : ∀ i < k,
      readSection metadataBuf i = .ok (sectionAt rawImage metadataOffset i) := by
    intro i hi
    refine readSection_copy hcopy ?_
    rcases hnext.1 with rfl | hle <;> omega
  have hloop := Emits.forRange k fun i hi _ =>
    measureSection_emits 0 rawImage qemuVersion (hread i hi)
  rw [range_split hk, Proc.forEach_append, bind_apply]
  by_cases hgood : ∀ i < k,
      SectionAccepted rawImage qemuVersion (sectionAt rawImage metadataOffset i)
  · refine Or.inr ?_
    rw [hloop.completes hgood s]
    change Outcome.andThen (measureSection 0 rawImage qemuVersion metadataBuf k _) _ = _
    rw [hfault]
    rfl
  · obtain ⟨pre, -, hpre⟩ := hloop.aborts hgood s
    exact Or.inl ⟨pre, by rw [hpre]; rfl⟩

/-- The image is turned down before its sections are looked at. -/
inductive EarlyReject (env : OvmfEnv) (rawImage : Buffer) : Prop where
  | noOffset (h : getOvmfMetadataOffset rawImage = .ok none)
  | descriptor (off : UInt64) (d : TdxMetadataDescriptor)
      (hoff : getOvmfMetadataOffset rawImage = .ok (some off))
      (hread : readDescriptor rawImage off = .ok d)
      (h : isValidDescriptor d = false ∨ env.metadataAllocated = false)

theorem run_of_earlyReject (md : Md 48) {env : OvmfEnv} {rawImage : Buffer}
    (h : EarlyReject env rawImage) (qemuVersion : Bytes) :
    run (measureOvmf md env rawImage qemuVersion) OvmfRun.start = .ok (-1, OvmfRun.start) := by
  cases h with
  | noOffset h =>
      unfold measureOvmf
      rw [h]
      rfl
  | descriptor off d hoff hread h =>
      cases hvalid : isValidDescriptor d with
      | true =>
          have halloc := h.resolve_left (by simp [hvalid])
          rw [measureOvmf_of_describes ⟨hoff, hread, hvalid⟩, exitIf_pos halloc]
          rfl
      | false =>
          unfold measureOvmf
          rw [hoff]
          change run (do
            let d ← lift (readDescriptor rawImage off)
            exitIf (isValidDescriptor d = false) (-1)
            _) _ = _
          rw [hread]
          change run (do
            exitIf (isValidDescriptor d = false) (-1)
            _) _ = _
          rw [exitIf_pos hvalid]
          rfl

/-- A run past the early checks that does not complete returns 0 all the same, and
leaves the digest unwritten. -/
theorem run_of_abandoned {md : Md 48} {env : OvmfEnv} {rawImage : Buffer} {qemuVersion : Bytes}
    (hearly : ¬EarlyReject env rawImage)
    (hreject : ¬(env.Ready ∧ ∃ off d, Accepted rawImage qemuVersion off d)) {ret : Int}
    {out : OvmfRun}
    (hrun : run (measureOvmf md env rawImage qemuVersion) OvmfRun.start = .ok (ret, out)) :
    ret = 0 ∧ out.digest = none := by
  have hsteps := hrun
  unfold measureOvmf at hsteps
  obtain ⟨found, hoff, hsteps⟩ := run_lift_bind hsteps
  cases found with
  | none => exact absurd (.noOffset hoff) hearly
  | some off =>
      obtain ⟨d, hread, -⟩ := run_lift_bind hsteps
      have hvalid : isValidDescriptor d = true := by
        by_contra hnot
        exact hearly (.descriptor off d hoff hread (Or.inl (by simpa using hnot)))
      have halloc : env.metadataAllocated = true := by
        by_contra hnot
        exact hearly (.descriptor off d hoff hread (Or.inr (by simpa using hnot)))
      have hdesc : Describes rawImage off d := ⟨hoff, hread, hvalid⟩
      have hcopied := hrun
      rw [measureOvmf_of_describes hdesc, exitIf_neg (by simp [halloc]), pure_bind] at hcopied
      obtain ⟨metadataBuf, hcopy, hmeasured⟩ := run_lift_bind hcopied
      by_cases henv : env.Ready
      · by_cases hinside : TableInside rawImage off d
        · obtain ⟨pre, -, hpre⟩ := run_of_rejected md hdesc hinside
            (fun haccepted => hreject ⟨henv, off, d, haccepted⟩) henv
          rw [hpre] at hrun
          cases hrun
          exact ⟨rfl, rfl⟩
        · have hn : ¬16 + 32 * d.numberOfSectionEntry.toNat ≤ d.length.toNat :=
            fun hle => hinside ⟨(copyFrom_eq_ok.mp hcopy).1, hle⟩
          rw [measureOvmf_of_inside hdesc henv hcopy, measureSections, run, bind_apply] at hrun
          rcases sectionLoop_overrun qemuVersion hcopy (sections_pos hvalid) hn OvmfRun.start with
            ⟨pre, hloop⟩ | hloop
          · rw [hloop] at hrun
            cases hrun
            exact ⟨rfl, rfl⟩
          · rw [hloop] at hrun
            cases hrun
      · cases hctx : env.ctxCreated with
        | false =>
            rw [hctx] at hmeasured
            cases hmeasured
            exact ⟨rfl, rfl⟩
        | true =>
            cases hdigest : env.digestStarted with
            | false =>
                rw [hctx, hdigest] at hmeasured
                cases hmeasured
                exact ⟨rfl, rfl⟩
            | true => exact absurd ⟨halloc, hctx, hdigest⟩ henv

/-- A run that wrote the digest measured an accepted image in full. -/
theorem accepted_of_complete {md : Md 48} {env : OvmfEnv} {rawImage : Buffer}
    {qemuVersion : Bytes} {ret : Int} {out : OvmfRun}
    (hrun : run (measureOvmf md env rawImage qemuVersion) OvmfRun.start = .ok (ret, out))
    (hdigest : out.digest.isSome) :
    ∃ off d, Accepted rawImage qemuVersion off d ∧ ret = 0 ∧
      out.updates = updatesOf (recordsOf rawImage qemuVersion off d) ∧
      out.digest = some (md out.updates.flatten) := by
  by_cases hearly : EarlyReject env rawImage
  · rw [run_of_earlyReject md hearly] at hrun
    cases hrun
    simp [OvmfRun.start] at hdigest
  · by_cases haccepted : env.Ready ∧ ∃ off d, Accepted rawImage qemuVersion off d
    · obtain ⟨henv, off, d, hoff⟩ := haccepted
      rw [run_of_accepted md hoff henv] at hrun
      cases hrun
      exact ⟨off, d, hoff, rfl, rfl, rfl⟩
    · have hnone := (run_of_abandoned hearly haccepted hrun).2
      simp [hnone] at hdigest

/-! ## A small image -/

/-- The section record of a metadata table. -/
def encodeSection (sec : TdxMetadataSection) : Bytes :=
  toLE 4 sec.dataOffset.toNat ++ toLE 4 sec.rawDataSize.toNat ++
    toLE 8 sec.memoryAddress.toNat ++ toLE 8 sec.memoryDataSize.toNat ++
    toLE 4 sec.type.toNat ++ toLE 4 sec.attributes.toNat

@[simp] theorem encodeSection_length (sec : TdxMetadataSection) :
    (encodeSection sec).length = 32 := by simp [encodeSection]

def tinyDescriptor : TdxMetadataDescriptor := ⟨tdxMetadataSignature, 48, 1, 1⟩

/-- A GUID and `tinyDescriptor`. -/
def tinyHeader : Bytes :=
  zeros 16 ++ toLE 4 0x46564454 ++ toLE 4 48 ++ toLE 4 1 ++ toLE 4 1

/-- An image of 112 bytes without a GUIDed table: its metadata starts at 0 and
describes one section. -/
def tinyImage (sec : TdxMetadataSection) : Buffer where
  bytes := tinyHeader ++ encodeSection sec ++ zeros 48
  size_lt := by simp [tinyHeader]

@[simp] theorem tinyImage_length (sec : TdxMetadataSection) :
    (tinyImage sec).bytes.length = 112 := by simp [tinyImage, tinyHeader]

theorem tinyImage_tail (sec : TdxMetadataSection) {count : Nat} (h : count ≤ 48) :
    copyFrom (tinyImage sec).bytes 64 count = .ok (zeros count) := by
  rw [copyFrom_ok (by rw [tinyImage_length]; omega)]
  have hhead : (tinyHeader ++ encodeSection sec).length = 64 := by simp [tinyHeader]
  have hslice := slice_append_right (tinyHeader ++ encodeSection sec) (zeros 48) 0 count
  rw [hhead] at hslice
  rw [tinyImage, hslice]
  simp only [slice, zeros, List.drop_zero, List.take_replicate, Nat.min_eq_left h]

theorem tinyImage_found (sec : TdxMetadataSection) :
    getOvmfMetadataOffset (tinyImage sec) = .ok (some 0) := by
  have hsize : (tinyImage sec).size = 112 := by
    rw [Buffer.size, tinyImage_length]
    rfl
  unfold getOvmfMetadataOffset readU32Le
  rw [hsize]
  change (do
    let footerGuidBuf ← copyFrom (tinyImage sec).bytes 64 16
    if ovmfTableFooterGuid.bytes = footerGuidBuf then _ else
      let raw ← copyFrom (tinyImage sec).bytes 64 4
      _) = _
  rw [tinyImage_tail sec (by omega), tinyImage_tail sec (by omega)]
  rfl

theorem tinyImage_describes (sec : TdxMetadataSection) :
    Describes (tinyImage sec) 0 tinyDescriptor where
  found := tinyImage_found sec
  descriptor := by
    have hheader : copyFrom (tinyImage sec).bytes 0 32 = .ok tinyHeader := by
      rw [copyFrom_ok (by rw [tinyImage_length]; omega)]
      change Except.ok (slice (tinyHeader ++ encodeSection sec ++ zeros 48) 0 32) = _
      rw [List.append_assoc, slice_append_left _ (by decide)]
      rfl
    unfold readDescriptor
    change (do
      let descBuf ← copyFrom (tinyImage sec).bytes 0 32
      _) = _
    rw [hheader]
    rfl
  valid := by rfl

theorem tinyImage_inside (sec : TdxMetadataSection) :
    TableInside (tinyImage sec) 0 tinyDescriptor where
  metadata := by
    rw [tinyImage_length]
    decide
  sections := by decide

/-- Two pages that are added and not extended. -/
def twoPages : TdxMetadataSection := ⟨0, 0, 0x1000, 0x2000, 0, 0⟩

/-- The records of the two pages. -/
def twoPagesRecords : List TdxRecord := [.memPageAdd 0x1000, .memPageAdd 0x2000]

/-- The same pages in a section of another type. -/
def twoPagesBfv : TdxMetadataSection := { twoPages with type := 1 }

theorem tinyImage_accepted {sec : TdxMetadataSection}
    (hsections : sectionsOf (tinyImage sec) 0 tinyDescriptor = [sec]) (hsane : SectionSane sec)
    (hnot : ¬ExtendsMr sec) : Accepted (tinyImage sec) (ascii "9.2.0") 0 tinyDescriptor where
  describes := tinyImage_describes sec
  inside := tinyImage_inside sec
  sections x hx := by
    rw [hsections, List.mem_singleton] at hx
    subst hx
    exact ⟨hsane, fun _ _ hext => absurd hext hnot, Or.inl rfl⟩

theorem twoPages_accepted : Accepted (tinyImage twoPages) (ascii "9.2.0") 0 tinyDescriptor :=
  tinyImage_accepted (by decide +kernel) ⟨by decide, by decide, by decide, by decide⟩ (by decide)

theorem twoPagesBfv_accepted :
    Accepted (tinyImage twoPagesBfv) (ascii "9.2.0") 0 tinyDescriptor :=
  tinyImage_accepted (by decide +kernel) ⟨by decide, by decide, by decide, by decide⟩ (by decide)

theorem recordsOf_twoPages :
    recordsOf (tinyImage twoPages) (ascii "9.2.0") 0 tinyDescriptor = twoPagesRecords := by
  decide +kernel

theorem recordsOf_twoPagesBfv :
    recordsOf (tinyImage twoPagesBfv) (ascii "9.2.0") 0 tinyDescriptor = twoPagesRecords := by
  decide +kernel

theorem ovmfEnv_ready : OvmfEnv.Ready ⟨true, true, true⟩ := ⟨rfl, rfl, rfl⟩

/-! ## The digest binds the records -/

theorem updatesOf_flatten_inj {rs rs' : List TdxRecord}
    (h : (updatesOf rs).flatten = (updatesOf rs').flatten) : rs = rs' := by
  rw [updatesOf_flatten, updatesOf_flatten] at h
  exact tdxRecord_decodable.stream_injective h

/-- The stream determines its records, and two completed runs with one digest added
and extended the same pages, unless two different streams have that digest. -/
theorem recordStream_binding :
    (∀ rs rs' : List TdxRecord, (rs.flatMap TdxRecord.buffers).flatten =
      (rs'.flatMap TdxRecord.buffers).flatten → rs = rs') ∧
    ∀ (md : Md 48) (env env' : OvmfEnv) (rawImage rawImage' : Buffer) (version version' : Bytes)
      (ret ret' : Int) (out out' : OvmfRun),
      run (measureOvmf md env rawImage version) OvmfRun.start = .ok (ret, out) →
      run (measureOvmf md env' rawImage' version') OvmfRun.start = .ok (ret', out') →
      out.digest.isSome → out.digest = out'.digest →
      ∃ off d off' d', Accepted rawImage version off d ∧ Accepted rawImage' version' off' d' ∧
        out.updates = updatesOf (recordsOf rawImage version off d) ∧
        out'.updates = updatesOf (recordsOf rawImage' version' off' d') ∧
        (recordsOf rawImage version off d = recordsOf rawImage' version' off' d' ∨
          out.updates.flatten ≠ out'.updates.flatten ∧
            md out.updates.flatten = md out'.updates.flatten) := by
  refine ⟨fun rs rs' h => updatesOf_flatten_inj h, ?_⟩
  intro md env env' rawImage rawImage' version version' ret ret' out out' hrun hrun' hsome hsame
  obtain ⟨off, d, haccepted, -, hupdates, hdigest⟩ := accepted_of_complete hrun hsome
  obtain ⟨off', d', haccepted', -, hupdates', hdigest'⟩ :=
    accepted_of_complete hrun' (hsame ▸ hsome)
  refine ⟨off, d, off', d', haccepted, haccepted', hupdates, hupdates', ?_⟩
  have hhash : md out.updates.flatten = md out'.updates.flatten := by
    rw [hdigest, hdigest'] at hsame
    exact Option.some.inj hsame
  by_cases hstream : out.updates.flatten = out'.updates.flatten
  · rw [hupdates, hupdates'] at hstream
    exact Or.inl (updatesOf_flatten_inj hstream)
  · exact Or.inr ⟨hstream, hhash⟩

/-- Two images that differ in the type of their section complete with one digest. -/
theorem recordStream_binding_twoPages :
    ∃ out out',
      run (measureOvmf Sha384.sha384 ⟨true, true, true⟩ (tinyImage twoPages) (ascii "9.2.0"))
        OvmfRun.start = .ok (0, out) ∧
      run (measureOvmf Sha384.sha384 ⟨true, true, true⟩ (tinyImage twoPagesBfv) (ascii "9.2.0"))
        OvmfRun.start = .ok (0, out') ∧
      out.digest = some (Sha384.sha384 (updatesOf twoPagesRecords).flatten) ∧
      out.digest = out'.digest ∧
      ∃ off d off' d', Accepted (tinyImage twoPages) (ascii "9.2.0") off d ∧
        Accepted (tinyImage twoPagesBfv) (ascii "9.2.0") off' d' ∧
        (recordsOf (tinyImage twoPages) (ascii "9.2.0") off d =
            recordsOf (tinyImage twoPagesBfv) (ascii "9.2.0") off' d' ∨
          out.updates.flatten ≠ out'.updates.flatten ∧
            Sha384.sha384 out.updates.flatten = Sha384.sha384 out'.updates.flatten) := by
  have hrun := run_of_accepted Sha384.sha384 twoPages_accepted ovmfEnv_ready
  have hrun' := run_of_accepted Sha384.sha384 twoPagesBfv_accepted ovmfEnv_ready
  rw [recordsOf_twoPages] at hrun
  rw [recordsOf_twoPagesBfv] at hrun'
  obtain ⟨off, d, off', d', haccepted, haccepted', -, -, hbinds⟩ :=
    recordStream_binding.2 Sha384.sha384 _ _ _ _ _ _ _ _ _ _ hrun hrun' rfl rfl
  exact ⟨_, _, hrun, hrun', rfl, rfl, off, d, off', d', haccepted, haccepted', hbinds⟩

/-! ## Agreement of the two orders -/

theorem readDescriptor_inside {rawImage : Buffer} {metadataOffset : UInt64}
    (h : metadataOffset.toNat + 32 ≤ rawImage.bytes.length) :
    ∃ d, readDescriptor rawImage metadataOffset = .ok d := by
  unfold readDescriptor
  rw [copyFrom_ok h]
  exact ⟨_, rfl⟩

/-- The metadata lies inside the image: the lookup returns, and what it finds can be
read up to the last section record. -/
structure MetadataInside (rawImage : Buffer) : Prop where
  lookup : ∃ found, getOvmfMetadataOffset rawImage = .ok found
  descriptor : ∀ off, getOvmfMetadataOffset rawImage = .ok (some off) →
    off.toNat + 32 ≤ rawImage.bytes.length
  table : ∀ off d, Describes rawImage off d → TableInside rawImage off d

/-- How a run that was started with the metadata inside the image can end. -/
theorem run_cases (md : Md 48) (env : OvmfEnv) {rawImage : Buffer}
    (h : MetadataInside rawImage) :
    (∃ ret, ∀ qemuVersion,
      run (measureOvmf md env rawImage qemuVersion) OvmfRun.start = .ok (ret, OvmfRun.start)) ∨
    (env.Ready ∧ ∃ off d, Describes rawImage off d ∧ TableInside rawImage off d) := by
  obtain ⟨found, hfound⟩ := h.lookup
  cases found with
  | none =>
      refine Or.inl ⟨-1, fun qemuVersion => ?_⟩
      unfold measureOvmf
      rw [hfound]
      rfl
  | some off =>
      obtain ⟨d, hread⟩ := readDescriptor_inside (h.descriptor off hfound)
      by_cases hvalid : isValidDescriptor d = true
      · have hdesc : Describes rawImage off d := ⟨hfound, hread, hvalid⟩
        have hinside := h.table off d hdesc
        have hcopy := copyMetadata_inside hinside
        cases halloc : env.metadataAllocated with
        | false =>
            refine Or.inl ⟨-1, fun qemuVersion => ?_⟩
            rw [measureOvmf_of_describes hdesc, exitIf_pos halloc]
            rfl
        | true =>
            by_cases hctx : env.ctxCreated = true ∧ env.digestStarted = true
            · exact Or.inr ⟨⟨halloc, hctx.1, hctx.2⟩, off, d, hdesc, hinside⟩
            · refine Or.inl ⟨0, fun qemuVersion => ?_⟩
              rw [measureOvmf_of_describes hdesc, exitIf_neg (by simp [halloc]), hcopy]
              cases hc : env.ctxCreated with
              | false => rfl
              | true =>
                  have hd : env.digestStarted = false := by simpa [hc] using hctx
                  rw [hd]
                  rfl
      · refine Or.inl ⟨-1, fun qemuVersion => ?_⟩
        unfold measureOvmf
        rw [hfound]
        change run (do
          let d ← lift (readDescriptor rawImage off)
          exitIf (isValidDescriptor d = false) (-1)
          _) _ = _
        rw [hread]
        change run (do
          exitIf (isValidDescriptor d = false) (-1)
          _) _ = _
        rw [exitIf_pos (by simpa using hvalid)]
        rfl

/-- The 9.2.0 order over all sections. -/
def interleavedStream (rawImage : Buffer) (metadataOffset : UInt64) (d : TdxMetadataDescriptor) :
    List TdxRecord :=
  (sectionsOf rawImage metadataOffset d).flatMap (interleavedRecords rawImage)

/-- The 8.2.2 order over all sections. -/
def groupedStream (rawImage : Buffer) (metadataOffset : UInt64) (d : TdxMetadataDescriptor) :
    List TdxRecord :=
  (sectionsOf rawImage metadataOffset d).flatMap (groupedRecords rawImage)

theorem recordsOf_interleaved (rawImage : Buffer) (off : UInt64) (d : TdxMetadataDescriptor) :
    recordsOf rawImage (ascii "9.2.0") off d = interleavedStream rawImage off d := by
  have h : sectionRecords rawImage (ascii "9.2.0") = interleavedRecords rawImage := by
    funext sec
    exact if_pos rfl
  rw [recordsOf, h, interleavedStream]

theorem recordsOf_grouped (rawImage : Buffer) (off : UInt64) (d : TdxMetadataDescriptor) :
    recordsOf rawImage (ascii "8.2.2") off d = groupedStream rawImage off d := by
  have h : sectionRecords rawImage (ascii "8.2.2") = groupedRecords rawImage := by
    funext sec
    exact if_neg (by decide)
  rw [recordsOf, h, groupedStream]

/-- The two supported versions accept the same images. -/
theorem accepted_iff_of_supported {rawImage : Buffer} {v v' : Bytes} {off : UInt64}
    {d : TdxMetadataDescriptor} (hv : SupportedVersion v) (hv' : SupportedVersion v') :
    Accepted rawImage v off d ↔ Accepted rawImage v' off d :=
  ⟨fun h => ⟨h.describes, h.inside, fun sec hsec =>
      ⟨(h.sections sec hsec).sane, (h.sections sec hsec).inRange, hv'⟩⟩,
    fun h => ⟨h.describes, h.inside, fun sec hsec =>
      ⟨(h.sections sec hsec).sane, (h.sections sec hsec).inRange, hv⟩⟩⟩

/-- Without a section of several pages that both adds and extends, the orders agree. -/
theorem streams_eq {rawImage : Buffer} {off : UInt64} {d : TdxMetadataDescriptor}
    (h : ∀ sec ∈ sectionsOf rawImage off d, nrPages sec ≤ 1 ∨ ¬AddsPages sec ∨ ¬ExtendsMr sec) :
    interleavedStream rawImage off d = groupedStream rawImage off d :=
  List.flatMap_congr fun sec hsec => interleaved_eq_grouped (h sec hsec)

/-- What both versions hash for an image whose metadata lies inside it: an accepted image
goes in whole, in the order of the version, and its digest is written; of any other the
sections in front of the first bad one. -/
theorem measureOvmf_orders (md : Md 48) (env : OvmfEnv) (rawImage : Buffer)
    (h : MetadataInside rawImage) :
    ∃ ret new old,
      run (measureOvmf md env rawImage (ascii "9.2.0")) OvmfRun.start = .ok (ret, new) ∧
      run (measureOvmf md env rawImage (ascii "8.2.2")) OvmfRun.start = .ok (ret, old) ∧
      (new.digest.isSome ↔ old.digest.isSome) ∧
      (new.digest.isSome ↔ env.Ready ∧ ∃ off d, Accepted rawImage (ascii "9.2.0") off d) ∧
      (∀ off d, Describes rawImage off d →
        new.updates <+: updatesOf (interleavedStream rawImage off d) ∧
        old.updates <+: updatesOf (groupedStream rawImage off d)) ∧
      (new.digest.isSome → ∃ off d, Describes rawImage off d ∧
        new.updates = updatesOf (interleavedStream rawImage off d) ∧
        old.updates = updatesOf (groupedStream rawImage off d) ∧
        new.digest = some (md new.updates.flatten) ∧ old.digest = some (md old.updates.flatten) ∧
        (∀ sec ∈ sectionsOf rawImage off d, SectionInRange rawImage sec ∧
          (interleavedRecords rawImage sec).Perm (groupedRecords rawImage sec)) ∧
        ((∀ sec ∈ sectionsOf rawImage off d,
            nrPages sec ≤ 1 ∨ ¬AddsPages sec ∨ ¬ExtendsMr sec) →
          new.updates = old.updates)) ∧
      (env.Ready → new.digest = none → ∀ off d, Describes rawImage off d →
        StopsAt rawImage (ascii "9.2.0") off d new.updates ∧
        StopsAt rawImage (ascii "8.2.2") off d old.updates) := by
  have hnew : SupportedVersion (ascii "9.2.0") := Or.inl rfl
  have hold : SupportedVersion (ascii "8.2.2") := Or.inr rfl
  by_cases hready : env.Ready ∧ ∃ off d, Describes rawImage off d
  swap
  · rcases run_cases md env h with ⟨ret, hrun⟩ | ⟨henv, off, d, hdesc, -⟩
    · refine ⟨ret, _, _, hrun _, hrun _, Iff.rfl, ?_,
        fun _ _ _ => ⟨List.nil_prefix, List.nil_prefix⟩,
        fun hsome => absurd hsome Bool.false_ne_true,
        fun henv _ off d hdesc => absurd ⟨henv, off, d, hdesc⟩ hready⟩
      refine iff_of_false Bool.false_ne_true ?_
      rintro ⟨henv, off, d, haccepted⟩
      exact hready ⟨henv, off, d, haccepted.describes⟩
    · exact absurd ⟨henv, off, d, hdesc⟩ hready
  obtain ⟨henv, off, d, hdesc⟩ := hready
  have hinside := h.table off d hdesc
  by_cases haccepted : Accepted rawImage (ascii "9.2.0") off d
  · have haccepted' := (accepted_iff_of_supported hnew hold).mp haccepted
    refine ⟨0, _, _, run_of_accepted md haccepted henv, run_of_accepted md haccepted' henv, Iff.rfl,
      iff_of_true rfl ⟨henv, off, d, haccepted⟩, ?_,
      fun _ => ⟨off, d, hdesc, ?_, ?_, rfl, rfl, ?_, ?_⟩,
      fun _ hnone => absurd hnone (Option.some_ne_none _)⟩
    · intro off' d' hdesc'
      obtain ⟨rfl, rfl⟩ := hdesc.unique hdesc'
      rw [recordsOf_interleaved, recordsOf_grouped]
      exact ⟨List.prefix_refl _, List.prefix_refl _⟩
    · exact congrArg updatesOf (recordsOf_interleaved rawImage off d)
    · exact congrArg updatesOf (recordsOf_grouped rawImage off d)
    · exact fun sec hsec => ⟨(haccepted.sections sec hsec).inRange,
        interleaved_perm_grouped rawImage sec⟩
    · intro hsections
      change updatesOf _ = updatesOf _
      rw [recordsOf_interleaved, recordsOf_grouped, streams_eq hsections]
  · have haccepted' := fun h' => haccepted ((accepted_iff_of_supported hnew hold).mpr h')
    obtain ⟨updates, hstop, hrun⟩ := run_of_rejected md hdesc hinside haccepted henv
    obtain ⟨updates', hstop', hrun'⟩ := run_of_rejected md hdesc hinside haccepted' henv
    refine ⟨0, _, _, hrun, hrun', Iff.rfl, iff_of_false Bool.false_ne_true ?_, ?_,
      fun hsome => absurd hsome Bool.false_ne_true, ?_⟩
    · rintro ⟨-, off', d', h'⟩
      obtain ⟨rfl, rfl⟩ := hdesc.unique h'.describes
      exact haccepted h'
    · intro off' d' hdesc'
      obtain ⟨rfl, rfl⟩ := hdesc.unique hdesc'
      rw [← recordsOf_interleaved, ← recordsOf_grouped]
      exact ⟨hstop.front, hstop'.front⟩
    · intro _ _ off' d' hdesc'
      obtain ⟨rfl, rfl⟩ := hdesc.unique hdesc'
      exact ⟨hstop, hstop'⟩

theorem tinyImage_metadataInside (sec : TdxMetadataSection) :
    MetadataInside (tinyImage sec) where
  lookup := ⟨_, tinyImage_found sec⟩
  descriptor off hoff := by
    obtain rfl : 0 = off := by simpa [tinyImage_found] using hoff
    rw [tinyImage_length]
    decide
  table off d hdesc := by
    obtain ⟨rfl, rfl⟩ := (tinyImage_describes sec).unique hdesc
    exact tinyImage_inside sec

/-- Both versions hash the two pages of the image and write the digest. -/
theorem measureOvmf_orders_twoPages :
    ∃ ret new old,
      run (measureOvmf Sha384.sha384 ⟨true, true, true⟩ (tinyImage twoPages) (ascii "9.2.0"))
        OvmfRun.start = .ok (ret, new) ∧
      run (measureOvmf Sha384.sha384 ⟨true, true, true⟩ (tinyImage twoPages) (ascii "8.2.2"))
        OvmfRun.start = .ok (ret, old) ∧
      new.updates = updatesOf twoPagesRecords ∧ old.updates = updatesOf twoPagesRecords ∧
      new.digest = some (Sha384.sha384 (updatesOf twoPagesRecords).flatten) ∧
      old.digest = new.digest := by
  obtain ⟨ret, new, old, hnew, hold, -, hdigest, -, hwhole, -⟩ :=
    measureOvmf_orders Sha384.sha384 ⟨true, true, true⟩ (tinyImage twoPages)
      (tinyImage_metadataInside twoPages)
  obtain ⟨off, d, hdesc, hnewer, holder, hnewDigest, holdDigest, -, -⟩ :=
    hwhole (hdigest.mpr ⟨ovmfEnv_ready, 0, tinyDescriptor, twoPages_accepted⟩)
  obtain ⟨rfl, rfl⟩ := (tinyImage_describes twoPages).unique hdesc
  have hinterleaved := recordsOf_twoPages
  rw [recordsOf_interleaved] at hinterleaved
  have hgrouped : groupedStream (tinyImage twoPages) 0 tinyDescriptor = twoPagesRecords := by
    decide +kernel
  rw [hinterleaved] at hnewer
  rw [hgrouped] at holder
  rw [hnewer] at hnewDigest
  rw [holder] at holdDigest
  exact ⟨ret, new, old, hnew, hold, hnewer, holder, hnewDigest,
    holdDigest.trans hnewDigest.symm⟩

end MeasuredBoot.Tdx
