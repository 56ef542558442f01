import MeasuredBoot.Tdx.Cfv
import MeasuredBoot.Tdx.TableWalk

/-! # What the TDX parsers turn down

Both measuring functions fail only before they look at a section: for an image that
is too short, a descriptor that is not one, or a failed allocation. What is wrong
behind the descriptor is read past, or ends the function with status 0.
-/

namespace MeasuredBoot.Tdx

open Binary Imperative Imperative.Proc

/-! ## Rejected images -/

/-- `measure_ovmf` returns a status that is not 0. -/
def OvmfRejects (md : Md 48) (env : OvmfEnv) (rawImage : Buffer) (qemuVersion : Bytes) : Prop :=
  ∃ ret out, run (measureOvmf md env rawImage qemuVersion) OvmfRun.start = .ok (ret, out) ∧
    ret ≠ 0

/-- `measure_cfv` returns a status that is not 0. -/
def CfvRejects (md : Md 48) (env : OvmfEnv) (rawImage : Buffer) : Prop :=
  ∃ ret digest, measureCfv md env.metadataAllocated rawImage = .ok (ret, digest) ∧ ret ≠ 0

section Rejects

variable {md : Md 48} {env : OvmfEnv} {rawImage : Buffer}

theorem ret_eq_zero {qemuVersion : Bytes} (hearly : ¬EarlyReject env rawImage) {ret : Int}
    {out : OvmfRun}
    (hrun : run (measureOvmf md env rawImage qemuVersion) OvmfRun.start = .ok (ret, out)) :
    ret = 0 := by
  by_cases haccepted : env.Ready ∧ ∃ off d, Accepted rawImage qemuVersion off d
  · obtain ⟨henv, off, d, haccepted⟩ := haccepted
    rw [run_of_accepted md haccepted henv] at hrun
    cases hrun
    rfl
  · exact (run_of_abandoned hearly haccepted hrun).1

theorem ovmfRejects_iff (qemuVersion : Bytes) :
    OvmfRejects md env rawImage qemuVersion ↔ EarlyReject env rawImage := by
  constructor
  · rintro ⟨ret, out, hrun, hret⟩
    by_contra hearly
    exact hret (ret_eq_zero hearly hrun)
  · intro hearly
    exact ⟨-1, _, run_of_earlyReject md hearly qemuVersion, by decide⟩

theorem cfvRejects_iff : CfvRejects md env rawImage ↔ EarlyReject env rawImage := by
  constructor
  · rintro ⟨ret, digest, hrun, hret⟩
    rcases measureCfv_ok hrun with hearly | ⟨hzero, -⟩
    · exact hearly
    · exact absurd hzero hret
  · intro hearly
    exact ⟨-1, none, measureCfv_of_earlyReject md hearly, by decide⟩

end Rejects

/-! ## Images without the metadata -/

/-- The descriptor that starts at the first byte of an image, behind a GUID. -/
def startDescriptor (rawImage : Buffer) : TdxMetadataDescriptor :=
  ⟨fieldU32 rawImage.bytes 16, fieldU32 rawImage.bytes 20, fieldU32 rawImage.bytes 24,
    fieldU32 rawImage.bytes 28⟩

theorem readDescriptor_start {rawImage : Buffer} (h : 32 ≤ rawImage.bytes.length) :
    readDescriptor rawImage 0 = .ok (startDescriptor rawImage) := by
  have hfield : ∀ off, off + 4 ≤ 32 →
      fieldU32 (slice rawImage.bytes 0 32) off = fieldU32 rawImage.bytes off := by
    intro off hoff
    unfold fieldU32
    rw [slice_slice _ _ _ _ _ hoff, Nat.zero_add]
  unfold readDescriptor
  rw [UInt64.toNat_zero, copyFrom_ok (by omega)]
  change Except.ok (TdxMetadataDescriptor.mk _ _ _ _) = _
  rw [hfield 16 (by omega), hfield 20 (by omega), hfield 24 (by omega), hfield 28 (by omega)]
  rfl

/-- A firmware without the metadata is rejected by the lookup and both its callers. -/
structure RejectsWithoutMetadata (md : Md 48) (env : OvmfEnv) (rawImage : Buffer)
    (qemuVersion : Bytes) : Prop where
  lookup : getOvmfMetadataOffset rawImage = .ok none
  ovmf : OvmfRejects md env rawImage qemuVersion
  cfv : CfvRejects md env rawImage

/-- The lookup reports an offset for every well-formed table without the entry. Its
callers fail exactly where the start of the image is no descriptor either, or the
metadata cannot be allocated. -/
theorem not_rejectsWithoutMetadata (md : Md 48) (env : OvmfEnv) (image : GuidedImage)
    (rawImage : Buffer) (qemuVersion : Bytes) (h : rawImage.bytes = image.bytes)
    (hother : ∀ e ∈ image.entries, ¬e.IsTdxMetadata) :
    ¬RejectsWithoutMetadata md env rawImage qemuVersion ∧
    (OvmfRejects md env rawImage qemuVersion ↔
      isValidDescriptor (startDescriptor rawImage) = false ∨ env.metadataAllocated = false) ∧
    (CfvRejects md env rawImage ↔
      isValidDescriptor (startDescriptor rawImage) = false ∨ env.metadataAllocated = false) := by
  have hfound := getOvmfMetadataOffset_of_others image h hother
  have hlen := image.bytes_length
  rw [← h] at hlen
  have hstart : readDescriptor rawImage 0 = .ok (startDescriptor rawImage) :=
    readDescriptor_start (by omega)
  have hearly : EarlyReject env rawImage ↔
      isValidDescriptor (startDescriptor rawImage) = false ∨ env.metadataAllocated = false := by
    constructor
    · intro hearly
      cases hearly with
      | noOffset hnone => simp [hfound] at hnone
      | descriptor off d hoff hread hreject =>
          obtain rfl : 0 = off := by simpa [hfound] using hoff
          obtain rfl : startDescriptor rawImage = d := by simpa [hstart] using hread
          exact hreject
    · exact .descriptor 0 _ hfound hstart
  refine ⟨fun hrejects => ?_, (ovmfRejects_iff qemuVersion).trans hearly,
    cfvRejects_iff.trans hearly⟩
  have hnone := hrejects.lookup
  simp [hfound] at hnone

theorem startGuid_length : (zeros 16).length = 16 := rfl

theorem startTail_length : (zeros 32).length = 32 := rfl

/-- One entry of another kind. -/
def startEntries : List GuidedEntry := [⟨[], zeros 16, startGuid_length⟩]

theorem startEntries_other : ∀ e ∈ startEntries, ¬e.IsTdxMetadata := by decide

/-- `tinyHeader` at the start of an image whose table has one entry of another kind. -/
def startImage : GuidedImage where
  before := tinyHeader ++ encodeSection ⟨0, 0, 0x1000, 0x2000, 0, 0⟩
  entries := startEntries
  tail := zeros 32
  total_lt := by decide
  tail_length := startTail_length
  metadata_payload := fun e he htdx => absurd htdx (startEntries_other e he)

def startBuffer : Buffer where
  bytes := startImage.bytes
  size_lt := by
    rw [startImage.bytes_length]
    decide

theorem not_rejectsWithoutMetadata_start :
    ¬RejectsWithoutMetadata (fun _ => zeroDigest 48) ⟨true, true, true⟩ startBuffer
      (ascii "9.2.0") :=
  (not_rejectsWithoutMetadata _ _ startImage startBuffer _ rfl startEntries_other).1

theorem startBuffer_accepted :
    ¬∀ (md : Md 48) (env : OvmfEnv) (image : GuidedImage) (rawImage : Buffer)
      (qemuVersion : Bytes), rawImage.bytes = image.bytes →
      (∀ e ∈ image.entries, ¬e.IsTdxMetadata) →
      RejectsWithoutMetadata md env rawImage qemuVersion := by
  intro hall
  have hrejects := hall (fun _ => zeroDigest 48) ⟨true, true, true⟩ startImage startBuffer
    (ascii "9.2.0") rfl startEntries_other
  have hfound : getOvmfMetadataOffset startBuffer = .ok (some 0) :=
    getOvmfMetadataOffset_of_others startImage rfl startEntries_other
  cases (ovmfRejects_iff _).mp hrejects.ovmf with
  | noOffset hnone => simp [hfound] at hnone
  | descriptor off d hoff hread hreject =>
      obtain rfl : 0 = off := by simpa [hfound] using hoff
      have hlen : 32 ≤ startBuffer.bytes.length := by
        have hlen := startImage.bytes_length
        change 32 ≤ startImage.bytes.length
        omega
      have hstart := readDescriptor_start hlen
      obtain rfl : startDescriptor startBuffer = d := by simpa [hstart] using hread
      have hvalid : isValidDescriptor (startDescriptor startBuffer) = true := by decide +kernel
      simp [hvalid] at hreject

/-! ## Reads inside the image -/

/-- The footer's length and the lengths of the entries that are passed fit the image and
the table. -/
structure TableFits (rawImage : Buffer) : Prop where
  total : ∀ total, readU16Le rawImage.bytes (rawImage.size - ovmfTableFooterGuidOffset - 2) =
    .ok total → 18 ≤ total.toNat ∧ total.toNat + 32 ≤ rawImage.bytes.length
  entries : ∀ tableLen, HasTable rawImage tableLen → ∀ s t,
    Relation.ReflTransGen (WalkRound rawImage tableLen) (walkStart rawImage) s →
    WalkRound rawImage tableLen s t → s.count ≤ t.count ∧ t.count ≤ tableLen

/-- The data of a section and what the measurement extends of it lie in the image. -/
structure SectionFits (rawImage : Buffer) (sec : TdxMetadataSection) : Prop where
  data : sec.dataOffset.toNat + sec.rawDataSize.toNat ≤ rawImage.bytes.length
  pages : SectionInRange rawImage sec

/-- Table, descriptor, metadata and sections fit the image. -/
structure ImageFits (rawImage : Buffer) (metadataOffset : UInt64) (d : TdxMetadataDescriptor) :
    Prop where
  table : (∃ tableLen, HasTable rawImage tableLen) → TableFits rawImage
  describes : Describes rawImage metadataOffset d
  inside : TableInside rawImage metadataOffset d
  sections : ∀ sec ∈ sectionsOf rawImage metadataOffset d, SectionFits rawImage sec

/-- No read of `measure_ovmf` leaves the image or the metadata, and an image that does
not fit is rejected. -/
structure OvmfInBounds (md : Md 48) (env : OvmfEnv) (rawImage : Buffer) (qemuVersion : Bytes) :
    Prop where
  reads : run (measureOvmf md env rawImage qemuVersion) OvmfRun.start ≠ .error .fault
  rejects : (¬∃ off d, ImageFits rawImage off d) → ∀ ret out,
    run (measureOvmf md env rawImage qemuVersion) OvmfRun.start = .ok (ret, out) → ret ≠ 0

/-- The same of `measure_cfv`. -/
structure CfvInBounds (md : Md 48) (env : OvmfEnv) (rawImage : Buffer) : Prop where
  reads : measureCfv md env.metadataAllocated rawImage ≠ .error .fault
  rejects : (¬∃ off d, ImageFits rawImage off d) → ∀ ret digest,
    measureCfv md env.metadataAllocated rawImage = .ok (ret, digest) → ret ≠ 0

section InBounds

variable {md : Md 48} {env : OvmfEnv} {rawImage : Buffer} {qemuVersion : Bytes}

/-! ### Nothing but the walk runs for ever -/

theorem copyFrom_ne_diverge (object : Bytes) (off count : Nat) :
    copyFrom object off count ≠ .error .diverge := fun h => by cases copyFrom_error h

theorem readDescriptor_ne_diverge (metadataOffset : UInt64) :
    readDescriptor rawImage metadataOffset ≠ .error .diverge := by
  intro h
  unfold readDescriptor at h
  rcases bind_eq_error.mp h with hcopy | ⟨descBuf, -, h⟩
  · exact copyFrom_ne_diverge _ _ _ hcopy
  · cases h

theorem readSection_ne_diverge (metadataBuf : Bytes) (i : Nat) :
    readSection metadataBuf i ≠ .error .diverge := by
  intro h
  unfold readSection at h
  rcases bind_eq_error.mp h with hcopy | ⟨raw, -, h⟩
  · exact copyFrom_ne_diverge _ _ _ hcopy
  · cases h

theorem tdCallMrExtend_ne_diverge (gpa dataOffset : UInt64) :
    tdCallMrExtend gpa rawImage dataOffset ≠ .error .diverge := by
  intro h
  unfold tdCallMrExtend at h
  split at h
  · cases h
  rcases bind_eq_error.mp h with hbuf1 | ⟨buf1, -, h⟩
  · exact copyFrom_ne_diverge _ _ _ hbuf1
  rcases bind_eq_error.mp h with hbuf2 | ⟨buf2, -, h⟩
  · exact copyFrom_ne_diverge _ _ _ hbuf2
  · cases h

theorem extendPage_ends (ret : Int) (sec : TdxMetadataSection) (iter : Nat) :
    Ends (extendPage ret rawImage sec iter) := by
  refine Ends.forEach (fun chunkIter => ?_) _
  refine (Ends.lift (tdCallMrExtend_ne_diverge _ _)).bind fun buffers => ?_
  cases buffers with
  | none => exact Ends.exit ret
  | some buffers => exact Ends.update _

theorem measureSection_ends (ret : Int) (metadataBuf : Bytes) (i : Nat) :
    Ends (measureSection ret rawImage qemuVersion metadataBuf i) := by
  have hadd : ∀ sec iter, Ends (addPage sec iter) := fun _ _ => Ends.update _
  refine (Ends.lift (readSection_ne_diverge metadataBuf i)).bind fun sec => ?_
  refine Ends.bind ?_ fun _ => Ends.ite ?_ (Ends.ite ?_ (Ends.exit ret))
  · exact (Ends.exitIf _ _).bind fun _ => (Ends.exitIf _ _).bind fun _ =>
      (Ends.exitIf _ _).bind fun _ => Ends.exitIf _ _
  · refine Ends.forEach (fun iter => ?_) _
    exact (Ends.when (hadd sec iter)).bind fun _ => Ends.when (extendPage_ends ret sec iter)
  · refine (Ends.when (Ends.forEach (hadd sec) _)).bind fun _ => ?_
    exact Ends.when (Ends.forEach (extendPage_ends ret sec) _)

theorem measureOvmf_ends (h : ¬HasEmptyEntry rawImage) :
    Ends (measureOvmf md env rawImage qemuVersion) := by
  rw [← getOvmfMetadataOffset_diverge] at h
  refine (Ends.lift h).bind fun found => ?_
  cases found with
  | none => exact Ends.exit _
  | some metadataOffset =>
      refine (Ends.lift (readDescriptor_ne_diverge metadataOffset)).bind fun d => ?_
      refine (Ends.exitIf _ _).bind fun _ => (Ends.exitIf _ _).bind fun _ => ?_
      refine (Ends.lift (copyFrom_ne_diverge _ _ _)).bind fun metadataBuf => ?_
      refine (Ends.exitIf _ _).bind fun _ => (Ends.exitIf _ _).bind fun _ => ?_
      refine (Ends.forEach (measureSection_ends 0 metadataBuf) _).bind fun _ => ?_
      exact (Ends.update _).bind fun _ => Ends.pure 0

theorem cfvSections_ne_diverge (metadataBuf : Bytes) (rounds i : Nat) :
    cfvSections md rawImage metadataBuf rounds i ≠ .error .diverge := by
  induction rounds generalizing i with
  | zero =>
      intro h
      cases h
  | succ rounds ih =>
      intro h
      cases hread : readSection metadataBuf i with
      | error w =>
          simp only [cfvSections, hread] at h
          cases h
          exact readSection_ne_diverge metadataBuf i hread
      | ok sec =>
          by_cases hsane : CfvSane rawImage sec
          · rw [cfvSections_sane hread hsane] at h
            split at h
            · exact ih (i + 1) h
            · rcases bind_eq_error.mp h with hcopy | ⟨data, -, h⟩
              · exact copyFrom_ne_diverge _ _ _ hcopy
              · cases h
          · rw [cfvSections_insane hread hsane] at h
            cases h

theorem measureCfv_ne_diverge (h : ¬HasEmptyEntry rawImage) (metadataAllocated : Bool) :
    measureCfv md metadataAllocated rawImage ≠ .error .diverge := by
  rw [← getOvmfMetadataOffset_diverge] at h
  intro hrun
  unfold measureCfv at hrun
  rcases bind_eq_error.mp hrun with hfound | ⟨found, -, hrun⟩
  · exact h hfound
  cases found with
  | none => cases hrun
  | some off =>
      rcases bind_eq_error.mp hrun with hread | ⟨d, -, hrun⟩
      · exact readDescriptor_ne_diverge off hread
      split at hrun
      · cases hrun
      split at hrun
      · cases hrun
      rcases bind_eq_error.mp hrun with hcopy | ⟨metadataBuf, -, hrun⟩
      · exact copyFrom_ne_diverge _ _ _ hcopy
      rcases bind_eq_error.mp hrun with hloop | ⟨digest, -, hrun⟩
      · exact cfvSections_ne_diverge _ _ _ hloop
      · cases hrun

/-! ### Images that fit -/

theorem ImageFits.metadataInside {off : UInt64} {d : TdxMetadataDescriptor}
    (h : ImageFits rawImage off d) : MetadataInside rawImage where
  lookup := ⟨_, h.describes.found⟩
  descriptor off' hoff' := by
    have hsame := hoff'.symm.trans h.describes.found
    obtain rfl : off' = off := by simpa using hsame
    have hread := h.describes.descriptor
    unfold readDescriptor at hread
    obtain ⟨descBuf, hcopy, -⟩ := bind_eq_ok.mp hread
    exact (copyFrom_eq_ok.mp hcopy).1
  table off' d' hdesc := by
    obtain ⟨rfl, rfl⟩ := h.describes.unique hdesc
    exact h.inside

theorem measureOvmf_of_fits (md : Md 48) (env : OvmfEnv) (qemuVersion : Bytes) {off : UInt64}
    {d : TdxMetadataDescriptor} (h : ImageFits rawImage off d) :
    ∃ ret out, run (measureOvmf md env rawImage qemuVersion) OvmfRun.start = .ok (ret, out) := by
  rcases run_cases md env h.metadataInside with ⟨ret, hrun⟩ | ⟨henv, off', d', hdesc, hinside⟩
  · exact ⟨ret, _, hrun qemuVersion⟩
  · by_cases haccepted : Accepted rawImage qemuVersion off' d'
    · exact ⟨0, _, run_of_accepted md haccepted henv⟩
    · obtain ⟨pre, -, hrun⟩ := run_of_rejected md hdesc hinside haccepted henv
      exact ⟨0, _, hrun⟩

/-- The section loop of `measure_cfv` on sections whose data lies in the image. -/
theorem cfvSections_of_inside (md : Md 48) {metadataBuf : Bytes} {rounds i : Nat}
    (h : ∀ k, i ≤ k → k < i + rounds → ∃ sec, readSection metadataBuf k = .ok sec ∧
      sec.dataOffset.toNat + sec.rawDataSize.toNat ≤ rawImage.bytes.length) :
    ∃ digest, cfvSections md rawImage metadataBuf rounds i = .ok digest := by
  induction rounds generalizing i with
  | zero => exact ⟨none, rfl⟩
  | succ rounds ih =>
      obtain ⟨sec, hread, hdata⟩ := h i le_rfl (by omega)
      by_cases hsane : CfvSane rawImage sec
      · rw [cfvSections_sane hread hsane]
        split
        · exact ih fun k hik hk => h k (by omega) (by omega)
        · rw [copyFrom_ok hdata]
          exact ⟨_, rfl⟩
      · exact ⟨none, cfvSections_insane hread hsane⟩

theorem measureCfv_of_fits (md : Md 48) {off : UInt64} {d : TdxMetadataDescriptor}
    (h : ImageFits rawImage off d) (metadataAllocated : Bool) :
    ∃ ret digest, measureCfv md metadataAllocated rawImage = .ok (ret, digest) := by
  cases metadataAllocated with
  | false =>
      refine ⟨-1, none, ?_⟩
      exact @measureCfv_of_earlyReject md ⟨false, true, true⟩ rawImage
        (.descriptor off d h.describes.found h.describes.descriptor (Or.inr rfl))
  | true =>
      have hcopy := copyMetadata_inside h.inside
      have hsections := forall_sections.mp h.sections
      have hread : ∀ k, 0 ≤ k → k < 0 + d.numberOfSectionEntry.toNat → ∃ sec,
          readSection (slice rawImage.bytes (off.toNat + 16) d.length.toNat) k = .ok sec ∧
            sec.dataOffset.toNat + sec.rawDataSize.toNat ≤ rawImage.bytes.length := by
        intro k _ hk
        have htable := h.inside.sections
        exact ⟨_, readSection_copy hcopy (by omega), (hsections k (by omega)).data⟩
      obtain ⟨digest, hloop⟩ := cfvSections_of_inside md hread
      refine ⟨0, digest, ?_⟩
      rw [measureCfv_of_describes h.describes rfl, hcopy]
      change (do
        let digest ← cfvSections md rawImage _ d.numberOfSectionEntry.toNat 0
        return ((0 : Int), digest)) = _
      rw [hloop]
      rfl

end InBounds

/-- Parsing stays in bounds exactly for the images whose walk never ends, the ones turned
down at their descriptor, and the ones in which everything fits. -/
theorem inBounds_iff (md : Md 48) (env : OvmfEnv) (rawImage : Buffer) (qemuVersion : Bytes) :
    (OvmfInBounds md env rawImage qemuVersion ↔
      HasEmptyEntry rawImage ∨ EarlyReject env rawImage ∨ ∃ off d, ImageFits rawImage off d) ∧
    (CfvInBounds md env rawImage ↔
      HasEmptyEntry rawImage ∨ EarlyReject env rawImage ∨ ∃ off d, ImageFits rawImage off d) := by
  constructor
  · constructor
    · intro h
      by_contra hnot
      rw [not_or, not_or] at hnot
      obtain ⟨hends, hearly, hfits⟩ := hnot
      cases hrun : run (measureOvmf md env rawImage qemuVersion) OvmfRun.start with
      | error w =>
          cases w with
          | fault => exact h.reads hrun
          | diverge => exact (measureOvmf_ends hends).run _ hrun
      | ok result => exact h.rejects hfits _ _ hrun (ret_eq_zero hearly hrun)
    · rintro (hempty | hearly | ⟨off, d, hfits⟩)
      · have hrun : run (measureOvmf md env rawImage qemuVersion) OvmfRun.start =
            .error .diverge := by
          unfold measureOvmf
          rw [getOvmfMetadataOffset_diverge.mpr hempty]
          rfl
        exact ⟨by simp [hrun], fun _ ret out hok => by simp [hrun] at hok⟩
      · have hrun := run_of_earlyReject md hearly qemuVersion
        refine ⟨by simp [hrun], fun _ ret out hok => ?_⟩
        rw [hrun] at hok
        cases hok
        decide
      · obtain ⟨ret, out, hrun⟩ := measureOvmf_of_fits md env qemuVersion hfits
        exact ⟨by simp [hrun], fun hnone => absurd ⟨off, d, hfits⟩ hnone⟩
  · constructor
    · intro h
      by_contra hnot
      rw [not_or, not_or] at hnot
      obtain ⟨hends, hearly, hfits⟩ := hnot
      cases hrun : measureCfv md env.metadataAllocated rawImage with
      | error w =>
          cases w with
          | fault => exact h.reads hrun
          | diverge => exact measureCfv_ne_diverge hends _ hrun
      | ok result =>
          rcases measureCfv_ok hrun with hreject | ⟨hzero, -⟩
          · exact hearly hreject
          · exact h.rejects hfits _ _ hrun hzero
    · rintro (hempty | hearly | ⟨off, d, hfits⟩)
      · have hrun : measureCfv md env.metadataAllocated rawImage = .error .diverge := by
          unfold measureCfv
          rw [getOvmfMetadataOffset_diverge.mpr hempty]
          rfl
        exact ⟨by simp [hrun], fun _ ret digest hok => by simp [hrun] at hok⟩
      · have hrun := measureCfv_of_earlyReject md hearly
        refine ⟨by simp [hrun], fun _ ret digest hok => ?_⟩
        rw [hrun] at hok
        cases hok
        decide
      · obtain ⟨ret, digest, hrun⟩ := measureCfv_of_fits md hfits env.metadataAllocated
        exact ⟨by simp [hrun], fun hnone => absurd ⟨off, d, hfits⟩ hnone⟩

/-- 40 zero bytes. The check in front of the footer wraps, and the footer is read in
front of the image. -/
theorem not_inBounds_short :
    ¬∀ (md : Md 48) (env : OvmfEnv) (rawImage : Buffer) (qemuVersion : Bytes),
      OvmfInBounds md env rawImage qemuVersion ∧ CfvInBounds md env rawImage := by
  intro hall
  have hfault : getOvmfMetadataOffset ⟨zeros 40, by decide⟩ = .error .fault := rfl
  refine (hall (fun _ => zeroDigest 48) ⟨true, true, true⟩ ⟨zeros 40, by decide⟩ []).1.reads ?_
  unfold measureOvmf
  rw [hfault]
  rfl

/-! ## The configuration volume -/

/-- `measure_cfv` returns, and returns 0 only with the digest of the first TDVF section,
whose data lies in the image, behind sections that pass the checks. -/
def CfvDigestSound (md : Md 48) (env : OvmfEnv) (rawImage : Buffer) : Prop :=
  ∃ ret digest, measureCfv md env.metadataAllocated rawImage = .ok (ret, digest) ∧
    (ret = 0 → ∃ off d k, CfvAt rawImage off d k ∧
      digest = some (md (cfvData rawImage (sectionAt rawImage off k))))

/-- The volume is measured right exactly where the loop gets to one that lies in the image,
or where the image is turned down at its descriptor. -/
theorem cfvDigestSound_iff (md : Md 48) (env : OvmfEnv) (rawImage : Buffer) :
    CfvDigestSound md env rawImage ↔
      EarlyReject env rawImage ∨ ∃ off d k, CfvAt rawImage off d k := by
  constructor
  · rintro ⟨ret, digest, hrun, hsound⟩
    rcases measureCfv_ok hrun with hearly | ⟨hzero, -⟩
    · exact Or.inl hearly
    · obtain ⟨off, d, k, hat, -⟩ := hsound hzero
      exact Or.inr ⟨off, d, k, hat⟩
  · intro h
    by_cases hearly : EarlyReject env rawImage
    · exact ⟨-1, none, measureCfv_of_earlyReject md hearly, fun hzero => by cases hzero⟩
    · obtain ⟨off, d, k, hat⟩ := h.resolve_left hearly
      have halloc : env.metadataAllocated = true := by
        by_contra hnot
        exact hearly (.descriptor off d hat.describes.found hat.describes.descriptor
          (Or.inr (by simpa using hnot)))
      refine ⟨0, _, ?_, fun _ => ⟨off, d, k, hat, rfl⟩⟩
      rw [halloc]
      exact measureCfv_of_at md hat

/-- A table whose one section is not of type TDVF. -/
theorem not_cfvDigestSound_twoPages :
    ¬∀ (md : Md 48) (env : OvmfEnv) (rawImage : Buffer), MetadataInside rawImage →
      CfvDigestSound md env rawImage := by
  intro hall
  have hdesc := tinyImage_describes twoPages
  obtain ⟨ret, digest, hrun, hsound⟩ := hall (fun _ => zeroDigest 48) ⟨true, true, true⟩
    (tinyImage twoPages) (tinyImage_metadataInside twoPages)
  rcases measureCfv_ok hrun with hearly | ⟨hzero, -⟩
  · cases hearly with
    | noOffset hnone => simp [hdesc.found] at hnone
    | descriptor off d hoff hread hreject =>
        obtain rfl : 0 = off := by simpa [hdesc.found] using hoff
        obtain rfl : tinyDescriptor = d := by simpa [hdesc.descriptor] using hread
        simp [hdesc.valid] at hreject
  · obtain ⟨off, d, k, hat, -⟩ := hsound hzero
    obtain ⟨rfl, rfl⟩ := hdesc.unique hat.describes
    have hindex := hat.index
    obtain rfl : k = 0 := by
      have hone : tinyDescriptor.numberOfSectionEntry.toNat = 1 := rfl
      omega
    have htype := hat.volume.type
    revert htype
    decide

end MeasuredBoot.Tdx
