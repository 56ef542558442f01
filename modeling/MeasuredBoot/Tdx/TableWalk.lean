import MeasuredBoot.Tdx.GuidedTable
import Mathlib.Logic.Relation

/-! # When the table walk ends

Every entry with a length moves the walk of `get_ovmf_metadata_offset` towards the
start of the image, so it ends unless it meets an entry of length 0 that is not the
one it looks for. A walk that ends without that entry leaves the offset at 0.
-/

namespace MeasuredBoot.Tdx

open Binary Imperative

/-! ## Reads -/

/-- A read either succeeds or leaves its object. -/
theorem copyFrom_error {object : Bytes} {off count : Nat} {w : Stop}
    (h : copyFrom object off count = .error w) : w = .fault := by
  unfold copyFrom at h
  split at h <;> cases h
  rfl

theorem readU16Le_eq_ok {image : Bytes} {off : UInt64} {value : UInt16}
    (h : readU16Le image off = .ok value) : off.toNat + 2 ≤ image.length := by
  unfold readU16Le at h
  obtain ⟨raw, hraw, -⟩ := bind_eq_ok.mp h
  exact (copyFrom_eq_ok.mp hraw).1

theorem readU16Le_error {image : Bytes} {off : UInt64} {w : Stop}
    (h : readU16Le image off = .error w) : w = .fault := by
  unfold readU16Le at h
  rcases bind_eq_error.mp h with hraw | ⟨raw, -, h⟩
  · exact copyFrom_error hraw
  · cases h

theorem readU32Le_error {image : Bytes} {off : UInt64} {w : Stop}
    (h : readU32Le image off = .error w) : w = .fault := by
  unfold readU32Le at h
  rcases bind_eq_error.mp h with hraw | ⟨raw, -, h⟩
  · exact copyFrom_error hraw
  · cases h

theorem tableEntry_error {rawImage : Buffer} {off : UInt64} {w : Stop}
    (h : tableEntry rawImage off = .error w) : w = .fault := by
  unfold tableEntry at h
  rcases bind_eq_error.mp h with hguid | ⟨guidBuf, -, h⟩
  · exact copyFrom_error hguid
  rcases bind_eq_error.mp h with hlen | ⟨len, -, h⟩
  · exact readU16Le_error hlen
  split at h
  · rcases bind_eq_error.mp h with hdist | ⟨distance, -, h⟩
    · exact readU32Le_error hdist
    · cases h
  · cases h

/-! ## Rounds -/

/-- `table_offset` and `count` in front of a round. -/
structure WalkState where
  tableOffset : UInt64
  count : UInt16

/-- A round of the `while` loop that passes over an entry. -/
inductive WalkRound (rawImage : Buffer) (tableLen : UInt16) : WalkState → WalkState → Prop where
  | passed (s : WalkState) (len : UInt16) (hcount : s.count < tableLen)
      (hentry : tableEntry rawImage s.tableOffset = .ok (.other len)) :
      WalkRound rawImage tableLen s ⟨s.tableOffset - len.toUInt64, s.count + len⟩

/-- The next round reads an entry of length 0 for something else than TDX metadata. -/
structure WalkState.AtEmptyEntry (rawImage : Buffer) (tableLen : UInt16) (s : WalkState) :
    Prop where
  count : s.count < tableLen
  entry : tableEntry rawImage s.tableOffset = .ok (.other 0)

/-- The walk meets such an entry on its way from `s`. -/
def MeetsEmptyEntry (rawImage : Buffer) (tableLen : UInt16) (s : WalkState) : Prop :=
  ∃ t, Relation.ReflTransGen (WalkRound rawImage tableLen) s t ∧
    t.AtEmptyEntry rawImage tableLen

section Rounds

variable {rawImage : Buffer} {tableLen : UInt16}

theorem tableWalk_passed {off : UInt64} {count len : UInt16} (hcount : count < tableLen)
    (hentry : tableEntry rawImage off = .ok (.other len)) (fuel : Nat) :
    tableWalk rawImage tableLen (fuel + 1) off count =
      tableWalk rawImage tableLen fuel (off - len.toUInt64) (count + len) := by
  simp only [tableWalk, if_pos hcount, hentry]
  rfl

/-- No number of rounds gets past an empty entry on the way. -/
theorem tableWalk_of_meetsEmptyEntry {s : WalkState} (h : MeetsEmptyEntry rawImage tableLen s)
    (fuel : Nat) :
    tableWalk rawImage tableLen fuel s.tableOffset s.count = .error .diverge := by
  obtain ⟨t, hpath, hempty⟩ := h
  induction hpath using Relation.ReflTransGen.head_induction_on generalizing fuel with
  | refl => exact tableWalk_stuck hempty.count hempty.entry fuel
  | head hround _ ih =>
      cases fuel with
      | zero => rfl
      | succ fuel =>
          cases hround with
          | passed len hcount hentry =>
              rw [tableWalk_passed hcount hentry]
              exact ih fuel

/-- Behind the start of the image a round reads outside or none is left. -/
theorem tableWalk_outside_ends {off : UInt64} {count : UInt16}
    (h : rawImage.bytes.length < off.toNat) (fuel : Nat) :
    tableWalk rawImage tableLen (fuel + 1) off count ≠ .error .diverge := by
  by_cases hcount : count < tableLen
  · cases hentry : tableEntry rawImage off with
    | error w =>
        obtain rfl := tableEntry_error hentry
        simp only [tableWalk, if_pos hcount, hentry]
        intro hdiverge
        cases hdiverge
    | ok entry =>
        have hbounds := (tableEntry_bounds hentry).2
        omega
  · simp only [tableWalk, if_neg hcount]
    intro hdiverge
    cases hdiverge

/-- A walk that runs out of rounds, though it had more of them than bytes in front of it,
met an empty entry. -/
theorem meetsEmptyEntry_of_diverge {fuel : Nat} {s : WalkState}
    (hfuel : s.tableOffset.toNat < fuel)
    (h : tableWalk rawImage tableLen fuel s.tableOffset s.count = .error .diverge) :
    MeetsEmptyEntry rawImage tableLen s := by
  induction fuel generalizing s with
  | zero => omega
  | succ fuel ih =>
      by_cases hcount : s.count < tableLen
      · cases hentry : tableEntry rawImage s.tableOffset with
        | error w =>
            obtain rfl := tableEntry_error hentry
            simp only [tableWalk, if_pos hcount, hentry] at h
            cases h
        | ok entry =>
            cases entry with
            | tdxMetadata offset =>
                simp only [tableWalk, if_pos hcount, hentry] at h
                cases h
            | other len =>
                rw [tableWalk_passed hcount hentry] at h
                by_cases hzero : len = 0
                · subst hzero
                  exact ⟨s, .refl, hcount, hentry⟩
                · have hpos : len.toNat ≠ 0 := fun heq => hzero (UInt16.toNat_inj.mp heq)
                  have hlen := len.toNat_lt
                  have hsize := rawImage.size_lt
                  obtain ⟨hlow, hhigh⟩ := tableEntry_bounds hentry
                  by_cases hwrap : len.toNat ≤ s.tableOffset.toNat
                  · have hless : (s.tableOffset - len.toUInt64).toNat < fuel := by
                      simp only [UInt64.toNat_sub, UInt16.toNat_toUInt64]
                      omega
                    obtain ⟨t, hpath, hempty⟩ := ih (s := ⟨_, _⟩) hless h
                    exact ⟨t, .head (.passed s len hcount hentry) hpath, hempty⟩
                  · have hout : rawImage.bytes.length <
                        (s.tableOffset - len.toUInt64).toNat := by
                      simp only [UInt64.toNat_sub, UInt16.toNat_toUInt64]
                      omega
                    obtain ⟨rest, rfl⟩ : ∃ rest, fuel = rest + 1 := ⟨fuel - 1, by omega⟩
                    exact absurd h (tableWalk_outside_ends hout rest)
      · simp only [tableWalk, if_neg hcount] at h
        cases h

end Rounds

/-! ## Walks without end -/

/-- The image has a footer, and `tableLen` bytes of entries are in front of it. -/
structure HasTable (rawImage : Buffer) (tableLen : UInt16) : Prop where
  guid : copyFrom rawImage.bytes (rawImage.size - ovmfTableFooterGuidOffset).toNat 16 =
    .ok ovmfTableFooterGuid.bytes
  total : ∃ total, readU16Le rawImage.bytes (rawImage.size - ovmfTableFooterGuidOffset - 2) =
    .ok total ∧ tableLen = total - 16 - 2

def walkStart (rawImage : Buffer) : WalkState :=
  ⟨rawImage.size - ovmfTableFooterGuidOffset - 2, 0⟩

/-- The `while` loop performs finitely many rounds. -/
def WalkEnds (rawImage : Buffer) : Prop :=
  ∀ tableLen, HasTable rawImage tableLen →
    ¬∃ rounds : Nat → WalkState, rounds 0 = walkStart rawImage ∧
      ∀ n, WalkRound rawImage tableLen (rounds n) (rounds (n + 1))

/-- An entry in reach of the walk has length 0 and is not the one for TDX metadata. -/
def HasEmptyEntry (rawImage : Buffer) : Prop :=
  ∃ tableLen, HasTable rawImage tableLen ∧
    MeetsEmptyEntry rawImage tableLen (walkStart rawImage)

section Endless

variable {rawImage : Buffer} {tableLen : UInt16}

/-- An empty entry is passed over again and again. -/
theorem WalkState.AtEmptyEntry.round {s : WalkState} (h : s.AtEmptyEntry rawImage tableLen) :
    WalkRound rawImage tableLen s s := by
  have hround := WalkRound.passed s 0 h.count h.entry
  have hoff : s.tableOffset - (0 : UInt16).toUInt64 = s.tableOffset :=
    UInt64.sub_zero s.tableOffset
  rwa [hoff, UInt16.add_zero] at hround

theorem rounds_of_meetsEmptyEntry {s : WalkState} (h : MeetsEmptyEntry rawImage tableLen s) :
    ∃ rounds : Nat → WalkState, rounds 0 = s ∧
      ∀ n, WalkRound rawImage tableLen (rounds n) (rounds (n + 1)) := by
  obtain ⟨t, hpath, hempty⟩ := h
  induction hpath using Relation.ReflTransGen.head_induction_on with
  | refl => exact ⟨fun _ => t, rfl, fun _ => hempty.round⟩
  | @head s u hround _ ih =>
      obtain ⟨rounds, rfl, hrounds⟩ := ih
      refine ⟨fun n => n.casesOn s rounds, rfl, fun n => ?_⟩
      cases n with
      | zero => exact hround
      | succ n => exact hrounds n

/-- As many rounds as there are in an endless walk. -/
theorem tableWalk_of_rounds {rounds : Nat → WalkState}
    (h : ∀ n, WalkRound rawImage tableLen (rounds n) (rounds (n + 1))) (fuel k : Nat) :
    tableWalk rawImage tableLen fuel (rounds k).tableOffset (rounds k).count =
      .error .diverge := by
  induction fuel generalizing k with
  | zero => rfl
  | succ fuel ih =>
      have hnext := ih (k + 1)
      have hround := h k
      generalize rounds (k + 1) = t at hround hnext
      cases hround with
      | passed len hcount hentry =>
          rw [tableWalk_passed hcount hentry]
          exact hnext

end Endless

/-- The walk ends unless it meets an empty entry. -/
theorem walkEnds_iff (rawImage : Buffer) : WalkEnds rawImage ↔ ¬HasEmptyEntry rawImage := by
  constructor
  · rintro hends ⟨tableLen, htable, hmeets⟩
    exact hends tableLen htable (rounds_of_meetsEmptyEntry hmeets)
  · rintro hnone tableLen htable ⟨rounds, hstart, hrounds⟩
    have hwalk := tableWalk_of_rounds hrounds ((rounds 0).tableOffset.toNat + 1) 0
    have hmeets := meetsEmptyEntry_of_diverge (Nat.lt_succ_self _) hwalk
    rw [hstart] at hmeets
    exact hnone ⟨tableLen, htable, hmeets⟩

/-- An image of 68 bytes whose table is one entry of zeros. -/
def emptyEntryImage : Buffer where
  bytes := zeros 18 ++ (toLE 2 36 ++ (ovmfTableFooterGuid.bytes ++ zeros 32))
  size_lt := by decide

theorem not_walkEnds_emptyEntryImage :
    ¬∀ rawImage : Buffer, 66 ≤ rawImage.bytes.length → WalkEnds rawImage := by
  intro hall
  have htable : HasTable emptyEntryImage 18 := ⟨rfl, 36, rfl, rfl⟩
  have hempty : (walkStart emptyEntryImage).AtEmptyEntry emptyEntryImage 18 := ⟨by decide, rfl⟩
  exact hall emptyEntryImage (by decide) 18 htable
    (rounds_of_meetsEmptyEntry ⟨_, .refl, hempty⟩)

/-! ## The lookup -/

section Lookup

variable {rawImage : Buffer}

/-- The check in front of the footer turns down images of less than 32 bytes; the
difference wraps for the others that have no room for it. -/
theorem footerCheck_iff (rawImage : Buffer) :
    rawImage.size - ovmfTableFooterGuidOffset + sizeofGuid > rawImage.size ↔
      rawImage.bytes.length < 32 := by
  have hlt := rawImage.size_lt
  simp only [gt_iff_lt, UInt64.lt_iff_toNat_lt, ovmfTableFooterGuidOffset, sizeofGuid,
    UInt64.toNat_add, UInt64.toNat_sub, UInt64.reduceToNat, Buffer.size_toNat]
  omega

theorem HasTable.room {tableLen : UInt16} (h : HasTable rawImage tableLen) :
    48 ≤ rawImage.bytes.length := by
  have hlt := rawImage.size_lt
  have hin := (copyFrom_eq_ok.mp h.guid).1
  simp only [ovmfTableFooterGuidOffset, UInt64.toNat_sub, UInt64.reduceToNat,
    Buffer.size_toNat] at hin
  omega

/-- The lookup of an image with a table. -/
theorem getOvmfMetadataOffset_of_table {tableLen : UInt16} (h : HasTable rawImage tableLen) :
    getOvmfMetadataOffset rawImage = (do
      let offset ← tableWalk rawImage tableLen (rawImage.bytes.length + 1)
        (walkStart rawImage).tableOffset (walkStart rawImage).count
      return some offset) := by
  have hroom := h.room
  obtain ⟨total, htotal, rfl⟩ := h.total
  have hcheck : ¬rawImage.size - ovmfTableFooterGuidOffset + sizeofGuid > rawImage.size := by
    rw [footerCheck_iff]
    omega
  unfold getOvmfMetadataOffset
  dsimp only
  rw [if_neg hcheck, h.guid, htotal]
  rfl

/-- Only the walk can keep the lookup from returning or faulting. -/
theorem hasTable_of_diverge (h : getOvmfMetadataOffset rawImage = .error .diverge) :
    ∃ tableLen, HasTable rawImage tableLen := by
  unfold getOvmfMetadataOffset at h
  dsimp only at h
  split at h
  · cases h
  rcases bind_eq_error.mp h with hguid | ⟨footerGuidBuf, hguid, h⟩
  · cases copyFrom_error hguid
  split at h
  · next hfooter =>
    rcases bind_eq_error.mp h with htotal | ⟨total, htotal, h⟩
    · cases readU16Le_error htotal
    · exact ⟨_, hguid.trans (by rw [hfooter]), total, htotal, rfl⟩
  · rcases bind_eq_error.mp h with hoffset | ⟨offset, -, h⟩
    · cases readU32Le_error hoffset
    · cases h

theorem getOvmfMetadataOffset_diverge :
    getOvmfMetadataOffset rawImage = .error .diverge ↔ HasEmptyEntry rawImage := by
  constructor
  · intro h
    obtain ⟨tableLen, htable⟩ := hasTable_of_diverge h
    refine ⟨tableLen, htable, ?_⟩
    have hfuel : (walkStart rawImage).tableOffset.toNat < rawImage.bytes.length + 1 := by
      obtain ⟨total, htotal, -⟩ := htable.total
      have hin := readU16Le_eq_ok htotal
      change (rawImage.size - ovmfTableFooterGuidOffset - 2).toNat < _
      omega
    rw [getOvmfMetadataOffset_of_table htable] at h
    rcases bind_eq_error.mp h with hwalk | ⟨offset, -, h⟩
    · exact meetsEmptyEntry_of_diverge hfuel hwalk
    · cases h
  · rintro ⟨tableLen, htable, hmeets⟩
    rw [getOvmfMetadataOffset_of_table htable, tableWalk_of_meetsEmptyEntry hmeets]
    rfl

end Lookup

/-! ## Tables without the entry -/

/-- The walk over a table without an entry for TDX metadata finds offset 0, and the
lookup takes it for the one it was looking for. -/
theorem getOvmfMetadataOffset_of_others (image : GuidedImage) {rawImage : Buffer}
    (h : rawImage.bytes = image.bytes) (hother : ∀ e ∈ image.entries, ¬e.IsTdxMetadata) :
    getOvmfMetadataOffset rawImage = .ok (some 0) := by
  obtain ⟨hoff, hguid, htotal⟩ := GuidedImage.footer h
  have htable : HasTable rawImage
      (UInt16.ofNat ((tableBytes image.entries).length + 18) - 16 - 2) :=
    ⟨hguid, _, htotal, rfl⟩
  have himage : rawImage.bytes = image.before ++ (tableBytes image.entries ++
      (toLE 2 ((tableBytes image.entries).length + 18) ++
        (ovmfTableFooterGuid.bytes ++ image.tail))) := by
    rw [h, GuidedImage.bytes, List.append_assoc]
  have hlen := image.bytes_length
  rw [← h] at hlen
  have hzero : (0 : UInt16).toNat + (tableBytes image.entries).length ≤
      (UInt16.ofNat ((tableBytes image.entries).length + 18) - 16 - 2).toNat := by
    rw [image.tableLen_toNat, UInt16.toNat_zero, Nat.zero_add]
  obtain ⟨off', count', -, hcount', hwalk⟩ := tableWalk_others _ _ himage hother hoff hzero
    (rawImage.bytes.length + 1 - image.entries.length)
  have hfuel : rawImage.bytes.length + 1 - image.entries.length + image.entries.length =
      rawImage.bytes.length + 1 := by
    have hentries := length_le_tableBytes image.entries
    omega
  have hdone : ¬count' < UInt16.ofNat ((tableBytes image.entries).length + 18) - 16 - 2 := by
    rw [UInt16.lt_iff_toNat_lt, image.tableLen_toNat, hcount']
    simp
  rw [hfuel] at hwalk
  obtain ⟨rest, hrest⟩ : ∃ rest, rawImage.bytes.length + 1 - image.entries.length = rest + 1 := by
    have hentries := length_le_tableBytes image.entries
    exact ⟨rawImage.bytes.length - image.entries.length, by omega⟩
  rw [getOvmfMetadataOffset_of_table htable]
  change (do
    let offset ← tableWalk rawImage _ (rawImage.bytes.length + 1)
      (rawImage.size - ovmfTableFooterGuidOffset - 2) 0
    return some offset) = _
  rw [hwalk, hrest, tableWalk, if_neg hdone]
  rfl

end MeasuredBoot.Tdx
