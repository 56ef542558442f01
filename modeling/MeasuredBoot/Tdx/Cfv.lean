import MeasuredBoot.Common.Hash
import MeasuredBoot.Tdx.MeasureRun

/-! # The configuration firmware volume

`measure_cfv` of `mrtd.c`. It hashes the first section of type TDVF; a section
that fails a check ends the function with the 0 in `ret` and the digest
unwritten, and so does a table without such a section.
-/

namespace MeasuredBoot.Tdx

open Binary Imperative

def sectionTypeTdvf : UInt32 := 1

/-- The rounds of the section loop from section `i` on: the digest, if one was
written. -/
def cfvSections (md : Md 48) (rawImage : Buffer) (metadataBuf : Bytes) :
    Nat → Nat → Except Stop (Option (Digest 48))
  | 0, _ => .ok none
  | rounds + 1, i => do
      let sec ← readSection metadataBuf i
      if sec.memoryAddress % pageSize ≠ 0 then return none
      else if sec.memoryDataSize % pageSize ≠ 0 then return none
      else if (sec.dataOffset + sec.rawDataSize).toUInt64 > rawImage.size then return none
      else if sec.type ≠ sectionTypeTdvf then cfvSections md rawImage metadataBuf rounds (i + 1)
      else do
        let data ← copyFrom rawImage.bytes sec.dataOffset.toNat sec.rawDataSize.toNat
        return some (hashBuf md data)

/-- `measure_cfv`: its status and the digest, if it wrote one. -/
def measureCfv (md : Md 48) (metadataAllocated : Bool) (rawImage : Buffer) :
    Except Stop (Int × Option (Digest 48)) := do
  match ← getOvmfMetadataOffset rawImage with
  | none => return (-1, none)
  | some metadataOffset =>
      let d ← readDescriptor rawImage metadataOffset
      if isValidDescriptor d = false then return (-1, none)
      else if metadataAllocated = false then return (-1, none)
      else do
        let metadataBuf ← copyMetadata rawImage metadataOffset d
        let digest ← cfvSections md rawImage metadataBuf d.numberOfSectionEntry.toNat 0
        return (0, digest)

/-! ## Sections on the way to the volume -/

/-- The checks of a section pass. The end of its data is computed in 32 bits. -/
structure CfvSane (rawImage : Buffer) (sec : TdxMetadataSection) : Prop where
  address : sec.memoryAddress % pageSize = 0
  size : sec.memoryDataSize % pageSize = 0
  data : (sec.dataOffset + sec.rawDataSize).toUInt64 ≤ rawImage.size

/-- A section of type TDVF that passes its checks and whose data lies in the image. -/
structure CfvSection (rawImage : Buffer) (sec : TdxMetadataSection) : Prop where
  sane : CfvSane rawImage sec
  type : sec.type = sectionTypeTdvf
  inside : sec.dataOffset.toNat + sec.rawDataSize.toNat ≤ rawImage.bytes.length

/-- The bytes of the volume a section describes. -/
def cfvData (rawImage : Buffer) (sec : TdxMetadataSection) : Bytes :=
  slice rawImage.bytes sec.dataOffset.toNat sec.rawDataSize.toNat

/-- Section `k` is the volume and the loop gets there. -/
structure CfvAt (rawImage : Buffer) (metadataOffset : UInt64) (d : TdxMetadataDescriptor)
    (k : Nat) : Prop where
  describes : Describes rawImage metadataOffset d
  metadata : metadataOffset.toNat + 16 + d.length.toNat ≤ rawImage.bytes.length
  index : k < d.numberOfSectionEntry.toNat
  table : 16 + 32 * (k + 1) ≤ d.length.toNat
  skipped : ∀ i < k, CfvSane rawImage (sectionAt rawImage metadataOffset i) ∧
    (sectionAt rawImage metadataOffset i).type ≠ sectionTypeTdvf
  volume : CfvSection rawImage (sectionAt rawImage metadataOffset k)

theorem cfvSections_sane {md : Md 48} {rawImage : Buffer} {metadataBuf : Bytes} {rounds i : Nat}
    {sec : TdxMetadataSection} (hread : readSection metadataBuf i = .ok sec)
    (hsane : CfvSane rawImage sec) :
    cfvSections md rawImage metadataBuf (rounds + 1) i =
      if sec.type ≠ sectionTypeTdvf then cfvSections md rawImage metadataBuf rounds (i + 1)
      else do
        let data ← copyFrom rawImage.bytes sec.dataOffset.toNat sec.rawDataSize.toNat
        return some (hashBuf md data) := by
  have hdata : ¬(sec.dataOffset + sec.rawDataSize).toUInt64 > rawImage.size :=
    UInt64.not_lt.mpr hsane.data
  simp only [cfvSections, hread, bind, Except.bind, hsane.address, hsane.size, if_neg hdata,
    ne_eq, not_true_eq_false, if_false]

/-- A round that does not pass the checks ends the loop. -/
theorem cfvSections_insane {md : Md 48} {rawImage : Buffer} {metadataBuf : Bytes} {rounds i : Nat}
    {sec : TdxMetadataSection} (hread : readSection metadataBuf i = .ok sec)
    (hsane : ¬CfvSane rawImage sec) :
    cfvSections md rawImage metadataBuf (rounds + 1) i = .ok none := by
  simp only [cfvSections, hread]
  change (if sec.memoryAddress % pageSize ≠ 0 then _ else _) = _
  by_cases haddress : sec.memoryAddress % pageSize = 0
  · by_cases hsize : sec.memoryDataSize % pageSize = 0
    · have hdata : (sec.dataOffset + sec.rawDataSize).toUInt64 > rawImage.size := by
        by_contra hle
        exact hsane ⟨haddress, hsize, UInt64.not_lt.mp hle⟩
      simp only [haddress, hsize, ne_eq, not_true_eq_false, if_false, if_pos hdata]
      rfl
    · simp only [haddress, ne_eq, not_true_eq_false, if_false, if_pos hsize]
      rfl
  · rw [if_pos haddress]
    rfl

/-- The loop reaches the volume behind sections it skips. -/
theorem cfvSections_reaches (md : Md 48) {rawImage : Buffer} {metadataBuf : Bytes}
    {secs : Nat → TdxMetadataSection} {k : Nat}
    (hread : ∀ i ≤ k, readSection metadataBuf i = .ok (secs i))
    (hskip : ∀ i < k, CfvSane rawImage (secs i) ∧ (secs i).type ≠ sectionTypeTdvf)
    (hvolume : CfvSection rawImage (secs k)) (rest i : Nat) (hi : i ≤ k) :
    cfvSections md rawImage metadataBuf (k - i + 1 + rest) i =
      .ok (some (md (cfvData rawImage (secs k)))) := by
  obtain ⟨m, hm⟩ : ∃ m, k - i = m := ⟨_, rfl⟩
  induction m generalizing i with
  | zero =>
      obtain rfl : i = k := by omega
      rw [hm, Nat.zero_add, Nat.add_comm, cfvSections_sane (hread i le_rfl) hvolume.sane,
        if_neg (by simp [hvolume.type]), copyFrom_ok hvolume.inside]
      rfl
  | succ m ih =>
      have hlt : i < k := by omega
      have hround := hskip i hlt
      have hrounds : k - i + 1 + rest = (k - (i + 1) + 1 + rest) + 1 := by omega
      rw [hrounds, cfvSections_sane (hread i hi) hround.1, if_pos hround.2]
      exact ih (i + 1) (by omega) (by omega)

/-- A digest comes from a section of the buffer, behind sections that were skipped. -/
theorem cfvSections_some {md : Md 48} {rawImage : Buffer} {metadataBuf : Bytes}
    {rounds i : Nat} {digest : Digest 48}
    (h : cfvSections md rawImage metadataBuf rounds i = .ok (some digest)) :
    ∃ k sec, i ≤ k ∧ k < i + rounds ∧ readSection metadataBuf k = .ok sec ∧
      CfvSection rawImage sec ∧ digest = md (cfvData rawImage sec) ∧
      ∀ j, i ≤ j → j < k → ∃ s, readSection metadataBuf j = .ok s ∧ CfvSane rawImage s ∧
        s.type ≠ sectionTypeTdvf := by
  induction rounds generalizing i with
  | zero => cases h
  | succ rounds ih =>
      cases hread : readSection metadataBuf i with
      | error w => simp [cfvSections, hread, bind, Except.bind] at h
      | ok sec =>
          by_cases hsane : CfvSane rawImage sec
          · rw [cfvSections_sane hread hsane] at h
            split at h
            · next htype =>
              obtain ⟨k, s, hik, hk, hs, hvolume, hdigest, hskip⟩ := ih h
              refine ⟨k, s, by omega, by omega, hs, hvolume, hdigest, ?_⟩
              intro j hij hj
              rcases Nat.eq_or_lt_of_le hij with rfl | hlt
              · exact ⟨sec, hread, hsane, htype⟩
              · exact hskip j hlt hj
            · next htype =>
              obtain ⟨data, hcopy, h⟩ := bind_eq_ok.mp h
              obtain ⟨hin, rfl⟩ := copyFrom_eq_ok.mp hcopy
              cases h
              refine ⟨i, sec, le_rfl, by omega, hread, ⟨hsane, not_not.mp htype, hin⟩, rfl, ?_⟩
              intro j hij hj
              omega
          · rw [cfvSections_insane hread hsane] at h
            cases h

/-! ## The outcomes of `measure_cfv` -/

theorem measureCfv_of_describes {md : Md 48} {metadataAllocated : Bool} {rawImage : Buffer}
    {metadataOffset : UInt64} {d : TdxMetadataDescriptor}
    (h : Describes rawImage metadataOffset d) (halloc : metadataAllocated = true) :
    measureCfv md metadataAllocated rawImage = (do
      let metadataBuf ← copyMetadata rawImage metadataOffset d
      let digest ← cfvSections md rawImage metadataBuf d.numberOfSectionEntry.toNat 0
      return (0, digest)) := by
  simp only [measureCfv, h.found, bind, Except.bind, h.descriptor, h.valid, halloc]
  rfl

theorem readSection_ok {metadataBuf : Bytes} {i : Nat} {sec : TdxMetadataSection}
    (h : readSection metadataBuf i = .ok sec) : 16 + 32 * (i + 1) ≤ metadataBuf.length := by
  by_contra hnot
  rw [readSection_fault hnot] at h
  cases h

/-- The volume is hashed where the loop gets to one. -/
theorem measureCfv_of_at (md : Md 48) {rawImage : Buffer} {metadataOffset : UInt64}
    {d : TdxMetadataDescriptor} {k : Nat} (h : CfvAt rawImage metadataOffset d k) :
    measureCfv md true rawImage =
      .ok (0, some (md (cfvData rawImage (sectionAt rawImage metadataOffset k)))) := by
  have hcopy : copyMetadata rawImage metadataOffset d = .ok _ := copyFrom_ok h.metadata
  have hreads : ∀ i ≤ k, readSection
      (slice rawImage.bytes (metadataOffset.toNat + 16) d.length.toNat) i =
        .ok (sectionAt rawImage metadataOffset i) := by
    intro i hi
    have htable := h.table
    exact readSection_copy hcopy (by omega)
  have hrounds : d.numberOfSectionEntry.toNat =
      k - 0 + 1 + (d.numberOfSectionEntry.toNat - (k + 1)) := by
    have hindex := h.index
    omega
  have hloop := cfvSections_reaches md hreads h.skipped h.volume
    (d.numberOfSectionEntry.toNat - (k + 1)) 0 (Nat.zero_le k)
  rw [← hrounds] at hloop
  rw [measureCfv_of_describes h.describes rfl, hcopy]
  change (do
    let digest ← cfvSections md rawImage _ d.numberOfSectionEntry.toNat 0
    return ((0 : Int), digest)) = _
  rw [hloop]
  rfl

/-- The descriptor checks that end `measure_cfv` with `-1`. -/
theorem measureCfv_of_earlyReject (md : Md 48) {env : OvmfEnv} {rawImage : Buffer}
    (h : EarlyReject env rawImage) :
    measureCfv md env.metadataAllocated rawImage = .ok (-1, none) := by
  cases h with
  | noOffset h =>
      simp only [measureCfv, h]
      rfl
  | descriptor off d hoff hread h =>
      simp only [measureCfv, hoff, bind, Except.bind, hread]
      by_cases hvalid : isValidDescriptor d = false
      · rw [if_pos hvalid]
        rfl
      · rw [if_neg hvalid, if_pos (h.resolve_left hvalid)]
        rfl

/-- Every other completed run returns 0, and it wrote a digest only for a volume. -/
theorem measureCfv_ok {md : Md 48} {env : OvmfEnv} {rawImage : Buffer} {ret : Int}
    {digest : Option (Digest 48)}
    (h : measureCfv md env.metadataAllocated rawImage = .ok (ret, digest)) :
    EarlyReject env rawImage ∨ ret = 0 ∧ ∀ hash, digest = some hash →
      env.metadataAllocated = true ∧ ∃ off d k, CfvAt rawImage off d k ∧
        hash = md (cfvData rawImage (sectionAt rawImage off k)) := by
  unfold measureCfv at h
  obtain ⟨found, hoff, h⟩ := bind_eq_ok.mp h
  cases found with
  | none => exact Or.inl (.noOffset hoff)
  | some off =>
      obtain ⟨d, hread, h⟩ := bind_eq_ok.mp h
      by_cases hreject : isValidDescriptor d = false ∨ env.metadataAllocated = false
      · exact Or.inl (.descriptor off d hoff hread hreject)
      · rw [not_or] at hreject
        have hdesc : Describes rawImage off d := ⟨hoff, hread, by simpa using hreject.1⟩
        have halloc : env.metadataAllocated = true := by simpa using hreject.2
        rw [if_neg hreject.1, if_neg hreject.2] at h
        obtain ⟨metadataBuf, hcopy, h⟩ := bind_eq_ok.mp h
        obtain ⟨found, hloop, h⟩ := bind_eq_ok.mp h
        cases h
        refine Or.inr ⟨rfl, ?_⟩
        rintro hash rfl
        obtain ⟨k, sec, -, hk, hsec, hvolume, hhash, hskip⟩ :=
          cfvSections_some hloop
        have hlen : metadataBuf.length = d.length.toNat := by
          obtain ⟨hin, rfl⟩ := copyFrom_eq_ok.mp hcopy
          exact slice_length hin
        have htable := readSection_ok hsec
        rw [hlen] at htable
        have hat : ∀ i ≤ k, ∀ s, readSection metadataBuf i = .ok s →
            s = sectionAt rawImage off i := by
          intro i hi s hs
          rw [readSection_copy hcopy (by omega)] at hs
          cases hs
          rfl
        obtain rfl := hat k le_rfl sec hsec
        refine ⟨halloc, off, d, k, ⟨hdesc, (copyFrom_eq_ok.mp hcopy).1, by omega,
          htable, ?_, hvolume⟩, hhash⟩
        intro i hi
        obtain ⟨s, hs, hsane, htype⟩ := hskip i (Nat.zero_le i) hi
        obtain rfl := hat i (by omega) s hs
        exact ⟨hsane, htype⟩

end MeasuredBoot.Tdx
