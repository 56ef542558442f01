import MeasuredBoot.Tdx.Metadata

/-! # The GUIDed table of a firmware image

A table as the firmware lays it out: entries one after the other, each with its
length and its GUID behind the payload, then the length of the table and its GUID.
`get_ovmf_metadata_offset` walks it from the end and stops at the first entry for
TDX metadata it meets.
-/

namespace MeasuredBoot.Tdx

open Binary Imperative

/-- An entry of the table. -/
structure GuidedEntry where
  payload : Bytes
  guid : Bytes
  guid_length : guid.length = 16

namespace GuidedEntry

/-- The length stored in the entry. -/
def len (e : GuidedEntry) : Nat := e.payload.length + 18

/-- The entry in memory. -/
def bytes (e : GuidedEntry) : Bytes := e.payload ++ (toLE 2 e.len ++ e.guid)

def IsTdxMetadata (e : GuidedEntry) : Prop := e.guid = ovmfTableTdxMetadataGuid.bytes

instance (e : GuidedEntry) : Decidable e.IsTdxMetadata := by
  unfold IsTdxMetadata
  infer_instance

/-- The number in the last four bytes of the payload. -/
def distance (e : GuidedEntry) : UInt32 :=
  UInt32.ofNat (ofLE (e.payload.drop (e.payload.length - 4)))

@[simp] theorem bytes_length (e : GuidedEntry) : e.bytes.length = e.len := by
  simp only [bytes, len, List.length_append, toLE_length, e.guid_length]

theorem len_ge (e : GuidedEntry) : 18 ≤ e.len := Nat.le_add_left 18 _

end GuidedEntry

def tableBytes (entries : List GuidedEntry) : Bytes := entries.flatMap GuidedEntry.bytes

theorem tableBytes_append (xs ys : List GuidedEntry) :
    tableBytes (xs ++ ys) = tableBytes xs ++ tableBytes ys := List.flatMap_append

@[simp] theorem tableBytes_singleton (e : GuidedEntry) : tableBytes [e] = e.bytes :=
  List.append_nil _

theorem length_le_tableBytes (entries : List GuidedEntry) :
    entries.length ≤ (tableBytes entries).length := by
  induction entries with
  | nil => simp
  | cons e entries ih =>
      have he := e.len_ge
      have hcons : tableBytes (e :: entries) = e.bytes ++ tableBytes entries := rfl
      rw [hcons, List.length_append, e.bytes_length, List.length_cons]
      omega

/-- An image that ends with a table and its tail. A TDX metadata entry holds at least
the number that is read from it. -/
structure GuidedImage where
  before : Bytes
  entries : List GuidedEntry
  tail : Bytes
  total_lt : (tableBytes entries).length + 18 < 65536
  tail_length : tail.length = 32
  metadata_payload : ∀ e ∈ entries, e.IsTdxMetadata → 4 ≤ e.payload.length

/-- The image in memory. -/
def GuidedImage.bytes (image : GuidedImage) : Bytes :=
  image.before ++ tableBytes image.entries ++
    (toLE 2 ((tableBytes image.entries).length + 18) ++ (ovmfTableFooterGuid.bytes ++ image.tail))

/-! ## Reading one entry -/

/-- A read of the second of three strings. -/
theorem copyFrom_middle {object : Bytes} (pre data post : Bytes) {off : Nat}
    (h : object = pre ++ (data ++ post)) (hoff : off = pre.length) :
    copyFrom object off data.length = .ok data := by
  subst h hoff
  rw [copyFrom_ok (by simp only [List.length_append]; omega)]
  have hslice := slice_append_right pre (data ++ post) 0 data.length
  rw [Nat.add_zero] at hslice
  rw [hslice, slice_append_left _ (by omega), slice_zero_length]

theorem readU16Le_middle {image : Bytes} (pre post : Bytes) {off : UInt64} {value : Nat}
    (h : image = pre ++ (toLE 2 value ++ post)) (hoff : off.toNat = pre.length)
    (hvalue : value < 65536) : readU16Le image off = .ok (UInt16.ofNat value) := by
  have hcopy := copyFrom_middle pre _ post h hoff
  rw [toLE_length] at hcopy
  unfold readU16Le
  rw [hcopy]
  change Except.ok (UInt16.ofNat (ofLE (toLE 2 value))) = _
  rw [ofLE_toLE_of_lt (by omega)]

section Entry

variable {rawImage : Buffer} (pre post : Bytes) {e : GuidedEntry} {off : UInt64}

/-- The GUID and the length in front of the end of an entry. -/
theorem tableEntry_head (h : rawImage.bytes = pre ++ (e.bytes ++ post))
    (hoff : off.toNat = pre.length + e.len) (hlen : e.len < 65536) :
    copyFrom rawImage.bytes (off - sizeofGuid).toNat 16 = .ok e.guid ∧
      readU16Le rawImage.bytes (off - sizeofGuid - 2) = .ok (UInt16.ofNat e.len) := by
  have hlt := off.toNat_lt
  have hdef : e.len = e.payload.length + 18 := rfl
  have hguid : (off - sizeofGuid).toNat = pre.length + e.payload.length + 2 := by
    simp only [sizeofGuid, UInt64.toNat_sub, UInt64.reduceToNat]
    omega
  have hlength : (off - sizeofGuid - 2).toNat = pre.length + e.payload.length := by
    have hlt' := (off - sizeofGuid).toNat_lt
    simp only [UInt64.toNat_sub, UInt64.reduceToNat] at hguid hlt' ⊢
    omega
  constructor
  · have hcopy : copyFrom rawImage.bytes (off - sizeofGuid).toNat e.guid.length = _ :=
      copyFrom_middle (pre ++ (e.payload ++ toLE 2 e.len)) e.guid post
        (by rw [h, GuidedEntry.bytes]; simp) (hguid.trans (by simp; omega))
    rwa [e.guid_length] at hcopy
  · refine readU16Le_middle (pre ++ e.payload) (e.guid ++ post) ?_ ?_ hlen
    · rw [h, GuidedEntry.bytes]
      simp
    · rw [hlength, List.length_append]

theorem tableEntry_other (h : rawImage.bytes = pre ++ (e.bytes ++ post))
    (hoff : off.toNat = pre.length + e.len) (hlen : e.len < 65536) (hother : ¬e.IsTdxMetadata) :
    tableEntry rawImage off = .ok (.other (UInt16.ofNat e.len)) := by
  obtain ⟨hguid, hlength⟩ := tableEntry_head pre post h hoff hlen
  have hne : ¬ovmfTableTdxMetadataGuid.bytes = e.guid := fun heq => hother heq.symm
  unfold tableEntry
  rw [hguid, hlength]
  change (if ovmfTableTdxMetadataGuid.bytes = e.guid then _ else _) = _
  rw [if_neg hne]
  rfl

theorem tableEntry_tdxMetadata (h : rawImage.bytes = pre ++ (e.bytes ++ post))
    (hoff : off.toNat = pre.length + e.len) (hlen : e.len < 65536) (htdx : e.IsTdxMetadata)
    (hpayload : 4 ≤ e.payload.length) :
    tableEntry rawImage off =
      .ok (.tdxMetadata (rawImage.size - e.distance.toUInt64 - sizeofGuid)) := by
  obtain ⟨hguid, hlength⟩ := tableEntry_head pre post h hoff hlen
  have hlt := off.toNat_lt
  have hdef : e.len = e.payload.length + 18 := rfl
  have hnumber : (off - sizeofGuid - 2 - 4).toNat = pre.length + (e.payload.length - 4) := by
    simp only [sizeofGuid, UInt64.toNat_sub, UInt64.reduceToNat]
    omega
  have hdrop : (e.payload.drop (e.payload.length - 4)).length = 4 := by
    rw [List.length_drop]
    omega
  have hread : readU32Le rawImage.bytes (off - sizeofGuid - 2 - 4) = .ok e.distance := by
    have himage : rawImage.bytes = pre ++ e.payload.take (e.payload.length - 4) ++
        (e.payload.drop (e.payload.length - 4) ++ (toLE 2 e.len ++ (e.guid ++ post))) := by
      rw [h, GuidedEntry.bytes]
      conv_lhs => rw [← List.take_append_drop (e.payload.length - 4) e.payload]
      simp only [List.append_assoc]
    have hcopy := copyFrom_middle _ _ _ himage (hnumber.trans (by simp))
    rw [hdrop] at hcopy
    unfold readU32Le
    rw [hcopy]
    rfl
  unfold tableEntry
  rw [hguid, hlength]
  change (if ovmfTableTdxMetadataGuid.bytes = e.guid then _ else _) = _
  rw [if_pos htdx.symm, hread]
  rfl

end Entry

/-! ## The walk -/

/-- Entries of other kinds are passed over, from the last to the first. -/
theorem tableWalk_others {rawImage : Buffer} {tableLen : UInt16} (pre post : Bytes)
    {upper : List GuidedEntry} (h : rawImage.bytes = pre ++ (tableBytes upper ++ post))
    (hother : ∀ e ∈ upper, ¬e.IsTdxMetadata) {off : UInt64} {count : UInt16}
    (hoff : off.toNat = pre.length + (tableBytes upper).length)
    (hcount : count.toNat + (tableBytes upper).length ≤ tableLen.toNat) (fuel : Nat) :
    ∃ (off' : UInt64) (count' : UInt16), off'.toNat = pre.length ∧
      count'.toNat = count.toNat + (tableBytes upper).length ∧
      tableWalk rawImage tableLen (fuel + upper.length) off count =
        tableWalk rawImage tableLen fuel off' count' := by
  induction upper using List.reverseRecOn generalizing post off count with
  | nil => exact ⟨off, count, hoff, rfl, rfl⟩
  | append_singleton upper e ih =>
      have htable := tableBytes_append upper [e]
      rw [tableBytes_singleton] at htable
      rw [htable, List.length_append, e.bytes_length] at hoff hcount
      have hge := e.len_ge
      have hlt := tableLen.toNat_lt
      have hlen16 : (UInt16.ofNat e.len).toNat = e.len := by
        rw [UInt16.toNat_ofNat']
        omega
      have hentry : tableEntry rawImage off = .ok (.other (UInt16.ofNat e.len)) := by
        refine tableEntry_other (pre ++ tableBytes upper) post ?_ ?_ (by omega)
          (hother e (by simp))
        · rw [h, htable]
          simp only [List.append_assoc]
        · rw [hoff, List.length_append]
          omega
      have hbefore : count < tableLen := by
        rw [UInt16.lt_iff_toNat_lt]
        omega
      have hoff' : (off - (UInt16.ofNat e.len).toUInt64).toNat =
          pre.length + (tableBytes upper).length := by
        have hoff64 := off.toNat_lt
        rw [UInt64.toNat_sub, UInt16.toNat_toUInt64, hlen16]
        omega
      have hcount' : (count + UInt16.ofNat e.len).toNat = count.toNat + e.len := by
        rw [UInt16.toNat_add, hlen16]
        omega
      have hfit : (count + UInt16.ofNat e.len).toNat + (tableBytes upper).length ≤
          tableLen.toNat := by
        rw [hcount']
        omega
      obtain ⟨off'', count'', hoff'', hcount'', hwalk⟩ := ih (e.bytes ++ post)
        (by rw [h, htable, List.append_assoc]) (fun x hx => hother x (by simp [hx])) hoff' hfit
      refine ⟨off'', count'', hoff'', ?_, ?_⟩
      · rw [hcount'', hcount', htable, List.length_append, e.bytes_length]
        omega
      · rw [List.length_append, List.length_singleton, ← Nat.add_assoc]
        rw [tableWalk, if_pos hbefore, hentry]
        exact hwalk

/-- The walk returns at the last entry for TDX metadata. -/
theorem tableWalk_found {rawImage : Buffer} {tableLen : UInt16} (pre post : Bytes)
    {e : GuidedEntry} {upper : List GuidedEntry}
    (h : rawImage.bytes = pre ++ (e.bytes ++ (tableBytes upper ++ post)))
    (hother : ∀ x ∈ upper, ¬x.IsTdxMetadata) (htdx : e.IsTdxMetadata)
    (hpayload : 4 ≤ e.payload.length) {off : UInt64}
    (hoff : off.toNat = pre.length + e.len + (tableBytes upper).length)
    (hcount : e.len + (tableBytes upper).length ≤ tableLen.toNat) (fuel : Nat) :
    tableWalk rawImage tableLen (fuel + 1 + upper.length) off 0 =
      .ok (rawImage.size - e.distance.toUInt64 - sizeofGuid) := by
  have hge := e.len_ge
  have hlt := tableLen.toNat_lt
  have himage : rawImage.bytes = pre ++ e.bytes ++ (tableBytes upper ++ post) := by
    rw [h, List.append_assoc]
  have hzero : (0 : UInt16).toNat + (tableBytes upper).length ≤ tableLen.toNat := by
    simp only [UInt16.reduceToNat]
    omega
  obtain ⟨off', count', hoff', hcount', hwalk⟩ := tableWalk_others (pre ++ e.bytes) post himage
    hother (hoff.trans (by rw [List.length_append, e.bytes_length])) hzero (fuel + 1)
  have hbefore : count' < tableLen := by
    rw [UInt16.lt_iff_toNat_lt, hcount']
    simp only [UInt16.reduceToNat]
    omega
  have hend : off'.toNat = pre.length + e.len := by
    rw [hoff', List.length_append, e.bytes_length]
  have hentry := tableEntry_tdxMetadata pre _ h hend (by omega) htdx hpayload
  rw [hwalk, tableWalk, if_pos hbefore, hentry]
  rfl

/-! ## The lookup -/

/-- The last element that has a property, with what is behind it. -/
theorem exists_last {α : Type} {P : α → Prop} [DecidablePred P] {xs : List α}
    (h : ∃ x ∈ xs, P x) :
    ∃ lower x upper, xs = lower ++ x :: upper ∧ P x ∧ ∀ y ∈ upper, ¬P y := by
  induction xs using List.reverseRecOn with
  | nil => simp at h
  | append_singleton xs x ih =>
      by_cases hx : P x
      · exact ⟨xs, x, [], rfl, hx, by simp⟩
      · obtain ⟨y, hmem, hy⟩ := h
        have hmem' : y ∈ xs := by
          rcases List.mem_append.mp hmem with hmem | hmem
          · exact hmem
          · rw [List.mem_singleton] at hmem
            exact absurd (hmem ▸ hy) hx
        obtain ⟨lower, z, upper, rfl, hz, hupper⟩ := ih ⟨y, hmem', hy⟩
        refine ⟨lower, z, upper ++ [x], by simp, hz, fun w hw => ?_⟩
        rcases List.mem_append.mp hw with hw | hw
        · exact hupper w hw
        · rw [List.mem_singleton] at hw
          exact hw ▸ hx

namespace GuidedImage

variable {image : GuidedImage} {rawImage : Buffer}

theorem bytes_length (image : GuidedImage) :
    image.bytes.length = image.before.length + (tableBytes image.entries).length + 50 := by
  simp only [bytes, List.length_append, toLE_length, EfiGuid.bytes_length, image.tail_length]

theorem tableLen_toNat (image : GuidedImage) :
    (UInt16.ofNat ((tableBytes image.entries).length + 18) - 16 - 2).toNat =
      (tableBytes image.entries).length := by
  have hlt := image.total_lt
  simp only [UInt16.toNat_sub, UInt16.toNat_ofNat', UInt16.reduceToNat]
  omega

/-- In front of the tail stand the length of the table and its GUID. -/
theorem footer (h : rawImage.bytes = image.bytes) :
    (rawImage.size - ovmfTableFooterGuidOffset - 2).toNat =
        image.before.length + (tableBytes image.entries).length ∧
      copyFrom rawImage.bytes (rawImage.size - ovmfTableFooterGuidOffset).toNat 16 =
        .ok ovmfTableFooterGuid.bytes ∧
      readU16Le rawImage.bytes (rawImage.size - ovmfTableFooterGuidOffset - 2) =
        .ok (UInt16.ofNat ((tableBytes image.entries).length + 18)) := by
  have hsize := rawImage.size_toNat
  have hlt := rawImage.size_lt
  have hlen := image.bytes_length
  rw [← h] at hlen
  have hfooter : (rawImage.size - ovmfTableFooterGuidOffset).toNat =
      image.before.length + (tableBytes image.entries).length + 2 := by
    simp only [ovmfTableFooterGuidOffset, UInt64.toNat_sub, UInt64.reduceToNat, hsize]
    omega
  have htotal : (rawImage.size - ovmfTableFooterGuidOffset - 2).toNat =
      image.before.length + (tableBytes image.entries).length := by
    have hlt64 := (rawImage.size - ovmfTableFooterGuidOffset).toNat_lt
    rw [UInt64.toNat_sub, hfooter]
    simp only [UInt64.reduceToNat]
    omega
  refine ⟨htotal, ?_, ?_⟩
  · refine copyFrom_middle (image.before ++ tableBytes image.entries ++
      toLE 2 ((tableBytes image.entries).length + 18)) ovmfTableFooterGuid.bytes image.tail ?_ ?_
    · rw [h, bytes]
      simp only [List.append_assoc]
    · rw [hfooter]
      simp only [List.length_append, toLE_length]
  · refine readU16Le_middle _ _ h ?_ image.total_lt
    rw [htotal, List.length_append]

end GuidedImage

/-- The metadata offset of an image with a well-formed table is the one its last entry
for TDX metadata gives. -/
theorem getOvmfMetadataOffset_table (image : GuidedImage) (rawImage : Buffer)
    (h : rawImage.bytes = image.bytes) (hsome : ∃ e ∈ image.entries, e.IsTdxMetadata) :
    ∃ lower e upper, image.entries = lower ++ e :: upper ∧ e.IsTdxMetadata ∧
      (∀ x ∈ upper, ¬x.IsTdxMetadata) ∧
      getOvmfMetadataOffset rawImage =
        .ok (some (rawImage.size - e.distance.toUInt64 - sizeofGuid)) := by
  obtain ⟨lower, e, upper, hentries, htdx, hupper⟩ := exists_last hsome
  refine ⟨lower, e, upper, hentries, htdx, hupper, ?_⟩
  obtain ⟨hoff, hguid, htotal⟩ := GuidedImage.footer h
  have htable : tableBytes image.entries = tableBytes lower ++ (e.bytes ++ tableBytes upper) := by
    rw [hentries, tableBytes_append]
    rfl
  have hsize := rawImage.size_toNat
  have hlt := rawImage.size_lt
  have hlen := image.bytes_length
  rw [← h] at hlen
  have hinside : ¬rawImage.size - ovmfTableFooterGuidOffset + sizeofGuid > rawImage.size := by
    simp only [gt_iff_lt, UInt64.lt_iff_toNat_lt, ovmfTableFooterGuidOffset, sizeofGuid,
      UInt64.toNat_add, UInt64.toNat_sub, UInt64.reduceToNat, hsize]
    omega
  have hmem : e ∈ image.entries := by simp [hentries]
  have himage : rawImage.bytes = image.before ++ tableBytes lower ++ (e.bytes ++
      (tableBytes upper ++ (toLE 2 ((tableBytes image.entries).length + 18) ++
        (ovmfTableFooterGuid.bytes ++ image.tail)))) := by
    rw [h, GuidedImage.bytes, htable]
    simp only [List.append_assoc]
  have hend : (rawImage.size - ovmfTableFooterGuidOffset - 2).toNat =
      (image.before ++ tableBytes lower).length + e.len + (tableBytes upper).length := by
    rw [hoff, htable]
    simp only [List.length_append, e.bytes_length]
    omega
  have hcount : e.len + (tableBytes upper).length ≤
      (UInt16.ofNat ((tableBytes image.entries).length + 18) - 16 - 2).toNat := by
    rw [image.tableLen_toNat, htable]
    simp only [List.length_append, e.bytes_length]
    omega
  have hwalk := tableWalk_found _ _ himage hupper htdx (image.metadata_payload e hmem htdx) hend
    hcount (rawImage.bytes.length - upper.length)
  have hfuel : rawImage.bytes.length - upper.length + 1 + upper.length =
      rawImage.bytes.length + 1 := by
    have hupperLen := length_le_tableBytes upper
    rw [htable] at hlen
    simp only [List.length_append] at hlen
    omega
  rw [hfuel] at hwalk
  unfold getOvmfMetadataOffset
  dsimp only
  rw [if_neg hinside, hguid, htotal]
  change (do
    let offset ← tableWalk rawImage
      (UInt16.ofNat ((tableBytes image.entries).length + 18) - 16 - 2)
      (rawImage.bytes.length + 1) (rawImage.size - ovmfTableFooterGuidOffset - 2) 0
    return some offset) = _
  rw [hwalk]
  rfl

/-- An image with one entry for TDX metadata below another one. -/
def tinyTable : GuidedImage where
  before := zeros 8
  entries := [⟨toLE 4 80, ovmfTableTdxMetadataGuid.bytes, rfl⟩, ⟨[1, 2], zeros 16, rfl⟩]
  tail := zeros 32
  total_lt := by decide
  tail_length := rfl
  metadata_payload := by decide

theorem getOvmfMetadataOffset_tinyTable :
    ∃ lower e upper, tinyTable.entries = lower ++ e :: upper ∧ e.IsTdxMetadata ∧
      (∀ x ∈ upper, ¬x.IsTdxMetadata) ∧
      getOvmfMetadataOffset ⟨tinyTable.bytes, by decide⟩ =
        .ok (some ((⟨tinyTable.bytes, by decide⟩ : Buffer).size - e.distance.toUInt64 -
          sizeofGuid)) :=
  getOvmfMetadataOffset_table tinyTable ⟨tinyTable.bytes, by decide⟩ rfl
    ⟨_, List.mem_cons_self, rfl⟩

end MeasuredBoot.Tdx
