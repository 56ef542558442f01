import MeasuredBoot.Lib.Emitter
import MeasuredBoot.Lib.PrefixCode
import MeasuredBoot.Tdx.Mrtd
import Mathlib.Data.List.Perm.Basic

/-! # The record stream behind the MRTD

What the section loop hashes, as a sequence of TDX module records: the
decodability of the hashed stream, the sequence each QEMU order prescribes for a
section, and the proof that one round of the section loop emits it.
-/

namespace MeasuredBoot.Tdx

open Binary Imperative Imperative.Proc

/-! ## Records -/

/-- A record of the TDX module with what it carries. -/
inductive TdxRecord where
  | memPageAdd (gpa : UInt64)
  | mrExtend (gpa : UInt64) (data : { bytes : Bytes // bytes.length = 256 })
  deriving DecidableEq

/-- The buffers hashed for a record, in order. -/
def TdxRecord.buffers : TdxRecord → List Bytes
  | .memPageAdd gpa => [tdCallMemPageAdd gpa]
  | .mrExtend gpa data => [mrExtendHeader gpa, data.val.take 128, data.val.drop 128]

def TdxRecord.bytes (r : TdxRecord) : Bytes := r.buffers.flatten

/-- The updates a sequence of records causes. -/
def updatesOf (records : List TdxRecord) : List Bytes := records.flatMap TdxRecord.buffers

theorem updatesOf_append (xs ys : List TdxRecord) :
    updatesOf (xs ++ ys) = updatesOf xs ++ updatesOf ys := by simp [updatesOf]

theorem updatesOf_flatMap {α : Type} (xs : List α) (f : α → List TdxRecord) :
    updatesOf (xs.flatMap f) = xs.flatMap fun x => updatesOf (f x) := by
  simp [updatesOf, List.flatMap_assoc]

theorem updatesOf_flatten (records : List TdxRecord) :
    (updatesOf records).flatten = PrefixCode.stream TdxRecord.bytes records := by
  induction records with
  | nil => rfl
  | cons r records ih =>
      rw [PrefixCode.stream_cons, ← ih]
      simp [updatesOf, TdxRecord.bytes]

theorem tdCallMemPageAdd_eq (gpa : UInt64) :
    tdCallMemPageAdd gpa =
      ascii "MEM.PAGE.ADD" ++ zeros 4 ++ toLE 8 gpa.toNat ++ zeros 104 := by
  have hname : overwrite (zeros 128) 0 (ascii "MEM.PAGE.ADD") =
      (ascii "MEM.PAGE.ADD" ++ zeros 4) ++ zeros 8 ++ zeros 104 := by decide
  rw [tdCallMemPageAdd, hname, overwrite_middle (by decide) (by simp)]

theorem mrExtendHeader_eq (gpa : UInt64) :
    mrExtendHeader gpa = ascii "MR.EXTEND" ++ zeros 7 ++ toLE 8 gpa.toNat ++ zeros 104 := by
  have hname : overwrite (zeros 128) 0 (ascii "MR.EXTEND") =
      (ascii "MR.EXTEND" ++ zeros 7) ++ zeros 8 ++ zeros 104 := by decide
  rw [mrExtendHeader, hname, overwrite_middle (by decide) (by simp)]

theorem bytes_memPageAdd (gpa : UInt64) :
    (TdxRecord.memPageAdd gpa).bytes =
      ascii "MEM.PAGE.ADD" ++ zeros 4 ++ toLE 8 gpa.toNat ++ zeros 104 := by
  rw [← tdCallMemPageAdd_eq]
  simp [TdxRecord.bytes, TdxRecord.buffers]

theorem bytes_mrExtend (gpa : UInt64) (data : { bytes : Bytes // bytes.length = 256 }) :
    (TdxRecord.mrExtend gpa data).bytes =
      ascii "MR.EXTEND" ++ zeros 7 ++ toLE 8 gpa.toNat ++ zeros 104 ++ data.val := by
  rw [← mrExtendHeader_eq]
  simp [TdxRecord.bytes, TdxRecord.buffers]

/-- The second byte tells the two kinds of records apart. -/
theorem memPageAdd_ne_mrExtend (gpa gpa' : UInt64)
    (data : { bytes : Bytes // bytes.length = 256 }) (rest rest' : Bytes) :
    (TdxRecord.memPageAdd gpa).bytes ++ rest ≠ (TdxRecord.mrExtend gpa' data).bytes ++ rest' := by
  intro h
  rw [bytes_memPageAdd, bytes_mrExtend] at h
  have hadd : ascii "MEM.PAGE.ADD" = 77 :: 69 :: (ascii "MEM.PAGE.ADD").drop 2 := by decide
  have hextend : ascii "MR.EXTEND" = 77 :: 82 :: (ascii "MR.EXTEND").drop 2 := by decide
  rw [hadd, hextend] at h
  simp at h

theorem tdxRecord_decodable : PrefixCode.Decodable TdxRecord.bytes where
  first a b rest rest' h := by
    cases a with
    | memPageAdd gpa =>
        cases b with
        | mrExtend gpa' data' => exact absurd h (memPageAdd_ne_mrExtend gpa gpa' data' _ _)
        | memPageAdd gpa' =>
            rw [bytes_memPageAdd, bytes_memPageAdd] at h
            have hwords := List.append_inj_left h (by simp)
            have hgpas := List.append_inj_left hwords (by simp)
            rw [toLE_uint64_inj (List.append_inj_right hgpas rfl)]
    | mrExtend gpa data =>
        cases b with
        | memPageAdd gpa' =>
            exact absurd h.symm (memPageAdd_ne_mrExtend gpa' gpa data _ _)
        | mrExtend gpa' data' =>
            rw [bytes_mrExtend, bytes_mrExtend] at h
            have hwords := List.append_inj_left h (by simp [data.property, data'.property])
            have hdata := List.append_inj_right hwords (by simp)
            have hheads := List.append_inj_left hwords (by simp)
            have hgpas := List.append_inj_left hheads (by simp)
            rw [toLE_uint64_inj (List.append_inj_right hgpas rfl), Subtype.ext hdata]
  nonempty a h := by
    have hlen := congrArg List.length h
    cases a with
    | memPageAdd gpa => simp [bytes_memPageAdd] at hlen
    | mrExtend gpa data => simp [bytes_mrExtend] at hlen

/-! ## The records of a section -/

def AddsPages (sec : TdxMetadataSection) : Prop := sec.attributes &&& attributeNoPageAdd = 0

def ExtendsMr (sec : TdxMetadataSection) : Prop := sec.attributes &&& attributeExtendMr ≠ 0

instance (sec : TdxMetadataSection) : Decidable (AddsPages sec) := by
  unfold AddsPages
  infer_instance

instance (sec : TdxMetadataSection) : Decidable (ExtendsMr sec) := by
  unfold ExtendsMr
  infer_instance

/-- Where the 256 bytes of a chunk of a page start in the image. -/
def chunkOffset (sec : TdxMetadataSection) (page k : Nat) : Nat :=
  sec.dataOffset.toNat + 4096 * page + 256 * k

/-- 256 bytes of the image; zeros where it does not have them. -/
def imageChunk (rawImage : Buffer) (off : Nat) : { bytes : Bytes // bytes.length = 256 } :=
  if h : off + 256 ≤ rawImage.bytes.length then ⟨slice rawImage.bytes off 256, slice_length h⟩
  else ⟨zeros 256, zeros_length 256⟩

/-- The guest-physical address `memory_address + off`. -/
def gpaAt (sec : TdxMetadataSection) (off : Nat) : UInt64 :=
  sec.memoryAddress + UInt64.ofNat off

/-- The record that adds a page, if the section adds its pages. -/
def pageAdds (sec : TdxMetadataSection) (page : Nat) : List TdxRecord :=
  if AddsPages sec then [.memPageAdd (gpaAt sec (4096 * page))] else []

theorem updatesOf_pageAdds (sec : TdxMetadataSection) (page : Nat) :
    updatesOf (pageAdds sec page) =
      if AddsPages sec then [tdCallMemPageAdd (gpaAt sec (4096 * page))] else [] := by
  unfold pageAdds
  split <;> rfl

/-- The 16 records that extend a page, if the section is extended. -/
def pageExtends (rawImage : Buffer) (sec : TdxMetadataSection) (page : Nat) : List TdxRecord :=
  if ExtendsMr sec then
    (List.range 16).map fun k =>
      .mrExtend (gpaAt sec (4096 * page + 256 * k)) (imageChunk rawImage (chunkOffset sec page k))
  else []

/-- The order of QEMU 9.2.0: each page is added and then extended. -/
def interleavedRecords (rawImage : Buffer) (sec : TdxMetadataSection) : List TdxRecord :=
  (List.range (nrPages sec)).flatMap fun page =>
    pageAdds sec page ++ pageExtends rawImage sec page

/-- The order of QEMU 8.2.2: all pages are added and then all are extended. -/
def groupedRecords (rawImage : Buffer) (sec : TdxMetadataSection) : List TdxRecord :=
  (List.range (nrPages sec)).flatMap (pageAdds sec) ++
    (List.range (nrPages sec)).flatMap (pageExtends rawImage sec)

/-- The records of a section under a QEMU version. -/
def sectionRecords (rawImage : Buffer) (qemuVersion : Bytes) (sec : TdxMetadataSection) :
    List TdxRecord :=
  if qemuVersion = ascii "9.2.0" then interleavedRecords rawImage sec
  else groupedRecords rawImage sec

/-- The sanity checks of a section. -/
structure SectionSane (sec : TdxMetadataSection) : Prop where
  addressAligned : sec.memoryAddress.toNat % 4096 = 0
  sizeCoversRaw : sec.type = tdInfoType ∨ (sec.memoryAddress = 0 ∧ sec.memoryDataSize = 0) ∨
    sec.rawDataSize.toNat ≤ sec.memoryDataSize.toNat
  sizeAligned : sec.memoryDataSize.toNat % 4096 = 0
  typeKnown : sec.type < sectionTypeMax

/-- Every chunk of a page that is extended lies in the image. -/
def PageInRange (rawImage : Buffer) (sec : TdxMetadataSection) (page : Nat) : Prop :=
  ExtendsMr sec → ∀ k < 16, chunkOffset sec page k + 256 ≤ rawImage.bytes.length

def SectionInRange (rawImage : Buffer) (sec : TdxMetadataSection) : Prop :=
  ∀ page < nrPages sec, PageInRange rawImage sec page

def SupportedVersion (qemuVersion : Bytes) : Prop :=
  qemuVersion = ascii "9.2.0" ∨ qemuVersion = ascii "8.2.2"

/-! ## The two orders -/

/-- The two orders of a section differ only in where the adds stand. -/
theorem interleaved_perm_grouped (rawImage : Buffer) (sec : TdxMetadataSection) :
    (interleavedRecords rawImage sec).Perm (groupedRecords rawImage sec) :=
  (List.flatMap_append_perm _ _ _).symm

theorem interleaved_eq_grouped {rawImage : Buffer} {sec : TdxMetadataSection}
    (h : nrPages sec ≤ 1 ∨ ¬AddsPages sec ∨ ¬ExtendsMr sec) :
    interleavedRecords rawImage sec = groupedRecords rawImage sec := by
  unfold interleavedRecords groupedRecords
  rcases h with hpages | hadds | hextends
  · rcases Nat.le_one_iff_eq_zero_or_eq_one.mp hpages with hzero | hone
    · simp [hzero]
    · simp [hone]
  · have hnone : pageAdds sec = fun _ => [] := by
      funext page
      simp [pageAdds, hadds]
    simp [hnone]
  · have hnone : pageExtends rawImage sec = fun _ => [] := by
      funext page
      simp [pageExtends, hextends]
    simp [hnone]

/-! ## The loops emit the records -/

/-- The updates of a run as its output. -/
def ovmfSink : Sink OvmfRun Bytes where
  emit := OvmfRun.feed
  emit_nil s := by simp [OvmfRun.feed]
  emit_append xs ys s := by simp [OvmfRun.feed, List.append_assoc]

theorem pageAddress_eq (sec : TdxMetadataSection) (iter : Nat) :
    pageAddress sec iter = gpaAt sec (4096 * iter) := by
  simp [pageAddress, gpaAt, pageSize, UInt64.ofNat_mul, UInt64.mul_comm]

theorem chunkAddress_eq (sec : TdxMetadataSection) (iter k : Nat) :
    pageAddress sec iter + UInt64.ofNat k * 256 = gpaAt sec (4096 * iter + 256 * k) := by
  rw [pageAddress_eq]
  simp [gpaAt, UInt64.ofNat_mul, UInt64.ofNat_add, UInt64.mul_comm, UInt64.add_assoc]

theorem nrPages_lt (sec : TdxMetadataSection) : nrPages sec < 2 ^ 52 := by
  have := sec.memoryDataSize.toNat_lt
  simp only [nrPages, pageSize, UInt64.toNat_div, UInt64.reduceToNat]
  omega

/-- The 64-bit offset of a chunk is the exact one while the page starts in reach of
the image. -/
theorem chunkOffset_toNat {rawImage : Buffer} {sec : TdxMetadataSection} {iter k : Nat}
    (hiter : iter < 2 ^ 52) (hk : k < 16)
    (hbase : chunkOffset sec iter 0 ≤ rawImage.bytes.length ∨ iter = 0) :
    (sec.dataOffset.toUInt64 + UInt64.ofNat iter * pageSize + UInt64.ofNat k * 256).toNat =
      chunkOffset sec iter k ∧ chunkOffset sec iter k + 256 < 2 ^ 64 := by
  have hsize := rawImage.size_lt
  have hoff := sec.dataOffset.toNat_lt
  have hlt : chunkOffset sec iter k + 256 < 2 ^ 64 := by
    unfold chunkOffset at *
    rcases hbase with hbase | rfl <;> omega
  refine ⟨?_, hlt⟩
  have hiter' : (UInt64.ofNat iter).toNat = iter := by
    simp only [UInt64.toNat_ofNat']
    omega
  have hk' : (UInt64.ofNat k).toNat = k := by
    simp only [UInt64.toNat_ofNat']
    omega
  unfold chunkOffset at *
  simp only [UInt64.toNat_add, UInt64.toNat_mul, UInt32.toNat_toUInt64, hiter', hk', pageSize,
    UInt64.reduceToNat]
  omega

theorem tdCallMrExtend_eq {gpa : UInt64} {rawImage : Buffer} {dataOffset : UInt64}
    (hlt : dataOffset.toNat + 256 < 2 ^ 64) :
    tdCallMrExtend gpa rawImage dataOffset =
      if dataOffset.toNat + 256 ≤ rawImage.bytes.length then
        .ok (some (TdxRecord.mrExtend gpa (imageChunk rawImage dataOffset.toNat)).buffers)
      else .ok none := by
  have hsum : (dataOffset + 2 * 128).toNat = dataOffset.toNat + 256 := by
    rw [UInt64.toNat_add]
    simp only [UInt64.reduceMul, UInt64.reduceToNat]
    omega
  unfold tdCallMrExtend
  by_cases hin : dataOffset.toNat + 256 ≤ rawImage.bytes.length
  · have hcheck : ¬dataOffset + 2 * 128 > rawImage.size := by
      simp only [gt_iff_lt, UInt64.lt_iff_toNat_lt, hsum, Buffer.size_toNat]
      omega
    rw [if_neg hcheck, if_pos hin, copyFrom_ok (by omega), copyFrom_ok (by omega)]
    simp only [TdxRecord.buffers, imageChunk, dif_pos hin]
    have htake : (slice rawImage.bytes dataOffset.toNat 256).take 128 =
        slice rawImage.bytes dataOffset.toNat 128 := by
      simpa [slice] using slice_slice rawImage.bytes dataOffset.toNat 256 0 128 (by omega)
    have hdrop : (slice rawImage.bytes dataOffset.toNat 256).drop 128 =
        slice rawImage.bytes (dataOffset.toNat + 128) 128 := by
      simp [slice, List.drop_take, List.drop_drop]
    rw [htake, hdrop]
    rfl
  · have hcheck : dataOffset + 2 * 128 > rawImage.size := by
      simp only [gt_iff_lt, UInt64.lt_iff_toNat_lt, hsum, Buffer.size_toNat]
      omega
    rw [if_pos hcheck, if_neg hin]
    rfl

theorem addPage_emits (ret : Int) (sec : TdxMetadataSection) (iter : Nat) :
    Emits ovmfSink ret (addPage sec iter) True
      [tdCallMemPageAdd (gpaAt sec (4096 * iter))] := by
  rw [← pageAddress_eq]
  exact Emits.append (k := ovmfSink) _

theorem extendChunk_emits (ret : Int) {rawImage : Buffer} {sec : TdxMetadataSection}
    {iter k : Nat} (hiter : iter < 2 ^ 52) (hk : k < 16)
    (hbase : chunkOffset sec iter 0 ≤ rawImage.bytes.length ∨ iter = 0) :
    Emits ovmfSink ret (extendChunk ret rawImage sec iter k)
      (chunkOffset sec iter k + 256 ≤ rawImage.bytes.length)
      (TdxRecord.mrExtend (gpaAt sec (4096 * iter + 256 * k))
        (imageChunk rawImage (chunkOffset sec iter k))).buffers := by
  obtain ⟨hoff, hlt⟩ := chunkOffset_toNat hiter hk hbase
  unfold extendChunk
  simp only [chunkAddress_eq]
  rw [tdCallMrExtend_eq (by rw [hoff]; exact hlt), hoff]
  by_cases hin : chunkOffset sec iter k + 256 ≤ rawImage.bytes.length
  · rw [if_pos hin]
    exact (Emits.append (k := ovmfSink) _).congr (by simp [hin]) rfl
  · rw [if_neg hin]
    exact (Emits.leave _).congr (by simp [hin]) rfl

/-- A page that follows one in range starts in reach of the image. -/
theorem base_of_previous {rawImage : Buffer} {sec : TdxMetadataSection} {iter : Nat}
    (hext : ExtendsMr sec) (hprev : ∀ j < iter, PageInRange rawImage sec j) :
    chunkOffset sec iter 0 ≤ rawImage.bytes.length ∨ iter = 0 := by
  cases iter with
  | zero => exact Or.inr rfl
  | succ iter =>
      have hlast := hprev iter (by omega) hext 15 (by omega)
      unfold chunkOffset at *
      omega

theorem extendPage_emits (ret : Int) {rawImage : Buffer} {sec : TdxMetadataSection} {iter : Nat}
    (hiter : iter < 2 ^ 52) (hext : ExtendsMr sec)
    (hprev : ∀ j < iter, PageInRange rawImage sec j) :
    Emits ovmfSink ret (extendPage ret rawImage sec iter) (PageInRange rawImage sec iter)
      (updatesOf (pageExtends rawImage sec iter)) := by
  have hbase := base_of_previous hext hprev
  have hloop := Emits.forRange (k := ovmfSink) (r := ret) 16 fun k hk _ =>
    extendChunk_emits ret hiter hk hbase
  refine hloop.congr ⟨fun h _ => h, fun h => h hext⟩ ?_
  simp [updatesOf, pageExtends, if_pos hext, List.flatMap_map]

/-- The two statements of a page in the 9.2.0 loop. -/
theorem page_emits (ret : Int) {rawImage : Buffer} {sec : TdxMetadataSection} {iter : Nat}
    (hiter : iter < 2 ^ 52) (hprev : ∀ j < iter, PageInRange rawImage sec j) :
    Emits ovmfSink ret
      (do
        when (sec.attributes &&& attributeNoPageAdd = 0) (addPage sec iter)
        when (sec.attributes &&& attributeExtendMr ≠ 0) (extendPage ret rawImage sec iter))
      (PageInRange rawImage sec iter)
      (updatesOf (pageAdds sec iter ++ pageExtends rawImage sec iter)) := by
  have hadd := Emits.guarded (c := sec.attributes &&& attributeNoPageAdd = 0)
    fun _ => addPage_emits ret sec iter
  have hextend := Emits.guarded (c := sec.attributes &&& attributeExtendMr ≠ 0)
    fun hext => extendPage_emits ret hiter hext hprev
  refine (hadd.seq fun _ => hextend).congr ?_ ?_
  · by_cases hext : sec.attributes &&& attributeExtendMr ≠ 0
    · simp [if_pos hext]
    · simp [PageInRange, ExtendsMr, hext]
  · rw [updatesOf_append, updatesOf_pageAdds]
    congr 1
    by_cases hext : ExtendsMr sec
    · exact if_pos hext
    · rw [pageExtends, if_neg hext]
      exact if_neg hext

theorem checkSection_emits (ret : Int) (sec : TdxMetadataSection) :
    Emits ovmfSink ret (checkSection ret sec) (SectionSane sec) [] := by
  have hchecks := (Emits.check (k := ovmfSink) (r := ret)
    (c := sec.memoryAddress % pageSize ≠ 0)).seq fun _ =>
      (Emits.check (k := ovmfSink) (c := sec.type ≠ tdInfoType ∧
        (sec.memoryAddress ≠ 0 ∨ sec.memoryDataSize ≠ 0) ∧
        sec.memoryDataSize < sec.rawDataSize.toUInt64)).seq fun _ =>
      (Emits.check (k := ovmfSink) (c := sec.memoryDataSize % pageSize ≠ 0)).seq fun _ =>
      Emits.check (k := ovmfSink) (c := sec.type ≥ sectionTypeMax)
  refine hchecks.congr ?_ rfl
  have haligned : ∀ x : UInt64, x % pageSize = 0 ↔ x.toNat % 4096 = 0 := by
    intro x
    rw [← UInt64.toNat_inj, UInt64.toNat_mod]
    rfl
  have hraw : sec.memoryDataSize < sec.rawDataSize.toUInt64 ↔
      ¬sec.rawDataSize.toNat ≤ sec.memoryDataSize.toNat := by
    rw [UInt64.lt_iff_toNat_lt, UInt32.toNat_toUInt64]
    omega
  have htype : ¬sec.type ≥ sectionTypeMax ↔ sec.type < sectionTypeMax := by
    simp only [ge_iff_le, UInt32.not_le]
  rw [htype, hraw]
  constructor
  · rintro ⟨haddr, hcover, hsize, htype⟩
    refine ⟨(haligned _).mp (not_not.mp haddr), ?_, (haligned _).mp (not_not.mp hsize), htype⟩
    by_contra hnot
    rw [not_or, not_or, not_and_or] at hnot
    exact hcover ⟨hnot.1, hnot.2.1, hnot.2.2⟩
  · rintro ⟨haddr, hcover, hsize, htype⟩
    refine ⟨not_not.mpr ((haligned _).mpr haddr), ?_, not_not.mpr ((haligned _).mpr hsize), htype⟩
    rintro ⟨htd, hnonzero, hraw'⟩
    rcases hcover with h | h | h
    · exact htd h
    · exact hnonzero.elim (fun hne => hne h.1) fun hne => hne h.2
    · exact hraw' h

/-- All that a section must satisfy to be measured in full. -/
structure SectionAccepted (rawImage : Buffer) (qemuVersion : Bytes) (sec : TdxMetadataSection) :
    Prop where
  sane : SectionSane sec
  inRange : SectionInRange rawImage sec
  version : SupportedVersion qemuVersion

theorem measureSection_emits (ret : Int) (rawImage : Buffer) (qemuVersion : Bytes)
    {metadataBuf : Bytes} {i : Nat} {sec : TdxMetadataSection}
    (hread : readSection metadataBuf i = .ok sec) :
    Emits ovmfSink ret (measureSection ret rawImage qemuVersion metadataBuf i)
      (SectionAccepted rawImage qemuVersion sec)
      (updatesOf (sectionRecords rawImage qemuVersion sec)) := by
  have hinterleaved := Emits.forRange (nrPages sec)
    fun iter hiter (hprev : ∀ j < iter, PageInRange rawImage sec j) =>
      page_emits ret (Nat.lt_trans hiter (nrPages_lt sec)) hprev
  have hadds := Emits.guarded (c := sec.attributes &&& attributeNoPageAdd = 0)
    fun _ => Emits.forRange (nrPages sec) fun iter _ _ => addPage_emits ret sec iter
  have hextends := Emits.guarded (c := sec.attributes &&& attributeExtendMr ≠ 0)
    fun hext => Emits.forRange (nrPages sec)
      fun iter hiter (hprev : ∀ j < iter, PageInRange rawImage sec j) =>
        extendPage_emits ret (Nat.lt_trans hiter (nrPages_lt sec)) hext hprev
  have hbody := (checkSection_emits ret sec).seq fun _ =>
    Emits.branch (c := qemuVersion = ascii "9.2.0") (fun _ => hinterleaved) fun _ =>
      Emits.branch (c := qemuVersion = ascii "8.2.2") (fun _ => hadds.seq fun _ => hextends)
        fun _ => Emits.leave (updatesOf (groupedRecords rawImage sec))
  unfold measureSection
  rw [hread]
  refine hbody.congr ?_ ?_
  · refine ⟨fun ⟨hsane, hrange⟩ => ?_, fun ⟨hsane, hrange, hversion⟩ => ⟨hsane, ?_⟩⟩
    · by_cases h92 : qemuVersion = ascii "9.2.0"
      · rw [if_pos h92] at hrange
        exact ⟨hsane, hrange, Or.inl h92⟩
      · by_cases h82 : qemuVersion = ascii "8.2.2"
        · rw [if_neg h92, if_pos h82] at hrange
          refine ⟨hsane, fun page hpage hext => ?_, Or.inr h82⟩
          exact (if_pos hext ▸ hrange.2) page hpage hext
        · rw [if_neg h92, if_neg h82] at hrange
          exact hrange.elim
    · by_cases h92 : qemuVersion = ascii "9.2.0"
      · rwa [if_pos h92]
      · have h82 := hversion.resolve_left h92
        rw [if_neg h92, if_pos h82]
        refine ⟨?_, ?_⟩
        · split
          · exact fun _ _ => trivial
          · trivial
        · split
          · exact hrange
          · trivial
  · rw [List.nil_append, sectionRecords]
    by_cases h92 : qemuVersion = ascii "9.2.0"
    · rw [if_pos h92, if_pos h92, interleavedRecords, updatesOf_flatMap]
    · rw [if_neg h92, if_neg h92]
      refine (if_congr Iff.rfl ?_ rfl).trans (ite_self _)
      rw [groupedRecords, updatesOf_append, updatesOf_flatMap, updatesOf_flatMap]
      congr 1
      · simp only [updatesOf_pageAdds]
        by_cases hadds : AddsPages sec
        · rw [if_pos (show sec.attributes &&& attributeNoPageAdd = 0 from hadds)]
          simp only [if_pos hadds]
        · rw [if_neg (show ¬sec.attributes &&& attributeNoPageAdd = 0 from hadds)]
          simp [hadds]
      · by_cases hext : ExtendsMr sec
        · exact if_pos hext
        · rw [if_neg (show ¬sec.attributes &&& attributeExtendMr ≠ 0 from hext)]
          simp [pageExtends, hext, updatesOf]

end MeasuredBoot.Tdx
