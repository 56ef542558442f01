import MeasuredBoot.PeCoff.Measure

/-! # Well-formed images

What the loader checks of a PE image, as conditions on the numbers in its headers. The
checks themselves read piece by piece; each of them is left with an error status or
holds exactly when its condition does.
-/

namespace MeasuredBoot.PeCoff

open Binary Imperative

/-! ## What stands in an image -/

/-- The section headers from `off` on. -/
def sectionTable (image : Bytes) : Nat → Nat → List SectionHeader
  | 0, _ => []
  | count + 1, off =>
      sectionHeader (slice image off sizeofSectionHeader) ::
        sectionTable image count (off + sizeofSectionHeader)

def headerOffset (image : Bytes) : Nat := peCoffHeaderOffset (slice image 0 sizeofDosHeader)

/-- The header, as long as the longer one of the two formats. -/
def header (image : Bytes) : Bytes := slice image (headerOffset image) sizeofHeaderUnion

/-- Where the section headers start. -/
def tableOffset (hdr : Bytes) (offset : Nat) : Nat := offset + 24 + Nt.sizeOfOptionalHeader hdr

def sections (image : Bytes) : List SectionHeader :=
  sectionTable image (Nt.numberOfSections (header image))
    (tableOffset (header image) (headerOffset image))

/-- The data of a section is behind the headers and in the image. -/
def SectionHeader.Fits (s : SectionHeader) (image : Bytes) (sizeOfHeaders : Nat) : Prop :=
  0 < s.sizeOfRawData → sizeOfHeaders ≤ s.virtualAddress ∧ sizeOfHeaders ≤ s.pointerToRawData ∧
    s.pointerToRawData + s.sizeOfRawData ≤ maxUint32 ∧
    s.pointerToRawData + s.sizeOfRawData ≤ image.length

def DataDirectory.Fits (d : DataDirectory) (image : Bytes) : Prop :=
  d.size ≠ 0 → d.virtualAddress + d.size ≤ maxUint32 ∧ d.virtualAddress + d.size ≤ image.length

/-- The section has the address when it is loaded. -/
def SectionHeader.Contains (s : SectionHeader) (rva : Nat) : Prop :=
  s.virtualAddress ≤ rva ∧ rva < (s.virtualAddress + s.virtualSize) % 2 ^ 32

instance (s : SectionHeader) (rva : Nat) : Decidable (s.Contains rva) :=
  inferInstanceAs (Decidable (_ ∧ _))

/-- The file offset of a loaded address, or 0. -/
def fileOffsetOf (table : List SectionHeader) (rva : Nat) : Nat :=
  match table.find? fun s => s.Contains rva with
  | none => 0
  | some s => rva - s.virtualAddress + s.pointerToRawData

/-- The debug entries are in the image up to the first one with CodeView data. -/
def DebugEntriesFit (image : Bytes) (fileOffset rounds : Nat) : Prop :=
  ∀ j < rounds,
    (∀ i < j, field image (fileOffset + sizeofDebugEntry * i + 12) 4 ≠ debugTypeCodeview) →
    fileOffset + sizeofDebugEntry * (j + 1) ≤ image.length

/-- Where the debug directory is in the file. -/
def debugOffset (image : Bytes) : Nat :=
  fileOffsetOf (sections image)
    (Nt.dataDirectory (header image) directoryEntryDebug).virtualAddress

/-- What `hdr`, which stands at `offset`, says of itself holds. -/
structure NtHeaderFits (image hdr : Bytes) (offset : Nat) : Prop where
  magic : Nt.magic hdr = Nt.hdr32Magic ∨ Nt.magic hdr = Nt.hdr64Magic
  directories : Nt.numberOfRvaAndSizes hdr ≤ numberOfDirectoryEntries
  optionalHeader : Nt.sizeOfOptionalHeader hdr =
    Nt.headerWithoutDataDir hdr + 8 * Nt.numberOfRvaAndSizes hdr
  table_in_memory :
    tableOffset hdr offset + sizeofSectionHeader * (Nt.numberOfSections hdr + 1) ≤
      Nt.sizeOfImage hdr
  table_lt : tableOffset hdr offset < Nt.sizeOfHeaders hdr
  table_in_headers : tableOffset hdr offset + sizeofSectionHeader * Nt.numberOfSections hdr ≤
    Nt.sizeOfHeaders hdr
  headers_in_memory : Nt.sizeOfHeaders hdr < Nt.sizeOfImage hdr
  headers_in : Nt.sizeOfHeaders hdr ≤ image.length
  security_fits : directoryEntrySecurity < Nt.numberOfRvaAndSizes hdr →
    (Nt.dataDirectory hdr directoryEntrySecurity).Fits image

/-- A PE image the loader lets through. -/
structure WellFormed (image : Bytes) : Prop extends
    NtHeaderFits image (header image) (headerOffset image) where
  dosHeader_in : sizeofDosHeader ≤ image.length
  header_in : headerOffset image + sizeofHeaderUnion ≤ image.length
  signature : Nt.signature (header image) = ntSignature
  machine : imageFormatSupported (Nt.machine (header image))
  sections_fit : ∀ s ∈ sections image, s.Fits image (Nt.sizeOfHeaders (header image))
  debug_fits : directoryEntryDebug < Nt.numberOfRvaAndSizes (header image) →
    debugOffset image ≠ 0 →
    DebugEntriesFit image (debugOffset image)
      (debugRounds (Nt.dataDirectory (header image) directoryEntryDebug).size)

/-- The numbers of the header do not overflow the `UINT32` the loader adds them in. This
is so for every image below 4 GiB. -/
def NoWrap (image : Bytes) : Prop :=
  image.length < 2 ^ 32 ∨ headerOffset image + sizeofHeaderUnion < 2 ^ 32

/-! ## Functions that return -/

/-- A function of the loader that is left early only with an error status. -/
def Returns {α : Type} (x : Loader α) : Prop :=
  ∀ e, x = .error e → ∃ status, e = .status status ∧ efiError status

namespace Returns

variable {α β : Type}

theorem ok (a : α) : Returns (.ok a : Loader α) := fun _ h => by cases h

theorem pure (a : α) : Returns (Pure.pure a : Loader α) := ok a

theorem status {s : UInt64} (h : efiError s) : Returns (.error (.status s) : Loader α) :=
  fun _ he => ⟨s, (Except.error.inj he).symm, h⟩

theorem bind {x : Loader α} {f : α → Loader β} (h : Returns x)
    (h' : ∀ a, x = .ok a → Returns (f a)) : Returns (x >>= f) := by
  intro e he
  rcases bind_eq_error.mp he with hx | ⟨a, hx, hf⟩
  · exact h e hx
  · exact h' a hx e hf

theorem ite {c : Prop} [Decidable c] {x y : Loader α} (h : c → Returns x) (h' : ¬c → Returns y) :
    Returns (if c then x else y) := by
  split
  · exact h ‹_›
  · exact h' ‹_›

theorem refuseIf (c : Prop) [Decidable c] : Returns (PeCoff.refuseIf c) :=
  ite (fun _ => status (by decide)) fun _ => ok ()

theorem imageRead (image : Bytes) {short : UInt64} (off : Nat) {size : Nat}
    (hshort : efiError short) (hsize : size ≤ 2 ^ 32) :
    Returns (PeCoff.imageRead image short off size) := by
  refine bind ?_ fun raw _ => ite (fun _ => status hshort) fun _ => pure raw
  by_cases haddress : off + size ≤ maxAddress
  · rw [tcg2DxeImageRead_eq image haddress hsize]
    exact ok _
  · by_cases hpos : maxAddress - off < size
    · rw [tcg2DxeImageRead, if_pos hpos]
      exact status (by decide)
    · have hzero : size = 0 := by
        simp only [maxAddress] at haddress hpos
        omega
      subst hzero
      unfold tcg2DxeImageRead
      refine ite (fun _ => status (by decide)) fun _ => ite (fun _ => ok []) fun hin => ?_
      dsimp only
      rw [if_neg (by omega), imageCopy, copyFrom_ok (by omega)]
      exact ok _

end Returns

/-- A status that leaves a function of the loader is an error. -/
theorem Returns.cases {α : Type} {x : Loader α} (h : Returns x) :
    (∃ a, x = .ok a) ∨ ∃ status, x = .error (.status status) ∧ efiError status := by
  cases hx : x with
  | ok a => exact Or.inl ⟨a, rfl⟩
  | error e =>
      obtain ⟨status, rfl, herror⟩ := h e hx
      exact Or.inr ⟨status, rfl, herror⟩

section Loops

variable (image : Bytes)

theorem checkSecurityDirectory_returns (hdr : Bytes) :
    Returns (checkSecurityDirectory image hdr) := by
  unfold checkSecurityDirectory
  dsimp only
  refine .ite (fun _ => .bind (.refuseIf _) fun _ _ => ?_) fun _ => .pure ()
  exact .bind (.imageRead image _ (by decide) (by decide)) fun _ _ => .pure ()

theorem checkSectionData_returns (sizeOfHeaders : Nat) (s : SectionHeader) :
    Returns (checkSectionData image sizeOfHeaders s) := by
  unfold checkSectionData
  refine .ite (fun _ => .bind (.refuseIf _) fun _ _ => .bind (.refuseIf _) fun _ _ => ?_)
    fun _ => .pure ()
  exact .bind (.imageRead image _ (by decide) (by decide)) fun _ _ => .pure ()

theorem checkSections_returns (stripped : Option Nat) (sizeOfHeaders count off : Nat) :
    Returns (checkSections image stripped sizeOfHeaders count off) := by
  induction count generalizing off with
  | zero => exact .pure ()
  | succ count ih =>
      refine .bind (.imageRead image _ (by decide) (by decide)) fun raw _ => ?_
      exact .bind (checkSectionData_returns image _ _) fun _ _ => ih _

theorem getTeHeader_returns (hdr : Bytes) (offset : Nat) :
    Returns (getTeHeader image hdr offset) := by
  refine .bind (.refuseIf _) fun _ _ => .bind (.refuseIf _) fun _ _ => ?_
  refine .bind (.imageRead image _ (by decide) (by decide)) fun _ _ => ?_
  exact .bind (.refuseIf _) fun _ _ => .pure _

theorem getNtHeader_returns (hdr : Bytes) (offset : Nat) :
    Returns (getNtHeader image hdr offset) := by
  refine .bind (.refuseIf _) fun _ _ => .bind (.refuseIf _) fun _ _ => ?_
  refine .bind (.refuseIf _) fun _ _ => .bind (.refuseIf _) fun _ _ => ?_
  refine .bind (.refuseIf _) fun _ _ => .bind (.refuseIf _) fun _ _ => ?_
  refine .bind (.refuseIf _) fun _ _ => .bind (.refuseIf _) fun _ _ => ?_
  refine .bind (.imageRead image _ (by decide) (by decide)) fun _ _ => ?_
  exact .bind (checkSecurityDirectory_returns image hdr) fun _ _ => .pure _

theorem getPeHeader_returns : Returns (getPeHeader image) := by
  refine .bind (.imageRead image _ (by decide) (by decide)) fun dosHdr _ => ?_
  refine .bind (.imageRead image _ (by decide) (by decide)) fun hdr _ => ?_
  refine .ite (fun _ => ?_) fun _ => .ite (fun _ => ?_) fun _ => .status (by decide)
  · refine .bind (getTeHeader_returns image hdr _) fun ctx _ => .bind (.refuseIf _) fun _ _ => ?_
    exact .bind (checkSections_returns image _ _ _ _) fun _ _ => .pure _
  · refine .bind (getNtHeader_returns image hdr _) fun ctx _ => .bind (.refuseIf _) fun _ _ => ?_
    exact .bind (checkSections_returns image _ _ _ _) fun _ _ => .pure _

theorem findDebugDirectory_returns (rva count off : Nat) :
    Returns (findDebugDirectory image rva count off) := by
  induction count generalizing off with
  | zero => exact .pure 0
  | succ count ih =>
      refine .bind (.imageRead image _ (by decide) (by decide)) fun raw _ => ?_
      exact .ite (fun _ => .pure _) fun _ => ih _

theorem findCodeView_returns (fileOffset rounds index : Nat) :
    Returns (findCodeView image fileOffset rounds index) := by
  induction rounds generalizing index with
  | zero => exact .pure none
  | succ rounds ih =>
      refine .bind (.imageRead image _ (by decide) (by decide)) fun entry _ => ?_
      exact .ite (fun _ => .pure _) fun _ => ih _

/-- Each round reaches a later section, so the fuel is not used up. -/
theorem walkTeSections_returns (hdr : Bytes) {fuel index : Nat} (off fileOffset imageSize : Nat)
    (h : Te.numberOfSections hdr < index + fuel) (hindex : index ≤ Te.numberOfSections hdr) :
    Returns (walkTeSections image hdr fuel index off fileOffset imageSize) := by
  induction fuel generalizing index off fileOffset imageSize with
  | zero => omega
  | succ fuel ih =>
      refine .ite (fun hlt => ?_) fun _ => .pure _
      refine .bind (.imageRead image _ (by decide) (by decide)) fun raw _ => ?_
      refine .ite (fun hskip => ih _ _ _ ?_ ?_) fun _ => ih _ _ _ ?_ ?_
      · have := hskip.2
        omega
      all_goals omega

end Loops

theorem getImageInfo_returns (image : Bytes) : Returns (getImageInfo image) := by
  refine .bind (getPeHeader_returns image) fun found _ => ?_
  obtain ⟨ctx, hdr⟩ := found
  refine .ite (fun _ => ?_) fun _ => ?_
  · have hwalk : Returns
        (walkTeSections image hdr (Te.numberOfSections hdr + 1) 0 sizeofTeHeader 0 0) :=
      walkTeSections_returns image hdr _ _ _ (by omega) (by omega)
    refine .bind hwalk fun walk _ => ?_
    refine .ite (fun _ => ?_) fun _ => .pure _
    refine .bind (findCodeView_returns image _ _ _) fun found _ => ?_
    cases found with
    | none => exact .pure _
    | some entry => exact .pure _
  · refine .ite (fun _ => ?_) fun _ => .pure _
    refine .bind (findDebugDirectory_returns image _ _ _) fun fileOffset _ => ?_
    refine .ite (fun _ => ?_) fun _ => .pure _
    refine .bind (findCodeView_returns image _ _ _) fun found _ => ?_
    cases found with
    | none => exact .pure _
    | some entry => exact .pure _

/-! ## The checks and their conditions -/

section Conditions

variable {image hdr : Bytes} {offset : Nat}

/-- Two checks in a row. -/
theorem bind_unit_eq_ok {α : Type} {x : Loader Unit} {y : Unit → Loader α} {a : α} :
    x >>= y = .ok a ↔ x = .ok () ∧ y () = .ok a := by
  rw [bind_eq_ok]
  exact ⟨fun ⟨_, h⟩ => h, fun h => ⟨(), h⟩⟩

theorem ok_bind {α β : Type} (a : α) (f : α → Loader β) :
    ((.ok a : Loader α) >>= f) = f a := rfl

/-- A step that always goes on. -/
theorem exists_bind_ok {α β : Type} {x : Loader α} {f : α → Loader β}
    (h : ∀ a, ∃ b, f a = .ok b) : (∃ b, x >>= f = .ok b) ↔ ∃ a, x = .ok a := by
  constructor
  · rintro ⟨b, hb⟩
    obtain ⟨a, ha, -⟩ := bind_eq_ok.mp hb
    exact ⟨a, ha⟩
  · rintro ⟨a, ha⟩
    obtain ⟨b, hb⟩ := h a
    exact ⟨b, bind_eq_ok.mpr ⟨a, ha, hb⟩⟩

/-- The last byte of an area is read to see that the area is in the image. -/
theorem lastByte_eq_ok {α : Type} {short : UInt64} {last : Nat} {rest : Loader α} {a : α}
    (hmax : last ≤ maxUint32) :
    (imageRead image short last 1 >>= fun _ => rest) = .ok a ↔
      last + 1 ≤ image.length ∧ rest = .ok a := by
  have haddress : last + 1 ≤ maxAddress := by
    simp only [maxUint32, maxAddress] at hmax ⊢
    omega
  rw [imageRead_eq image short haddress (by decide) (by decide)]
  split
  · next hin => exact ⟨fun h => ⟨hin, h⟩, fun h => h.2⟩
  · next hin => exact ⟨(fun h => by cases h), fun h => absurd h.1 hin⟩

/-- The end of an area is computed without overflow, and its last byte is in the image. -/
theorem checkArea_eq_ok {short : UInt64} {start size : Nat} (hsize : 0 < size) :
    (do refuseIf (maxUint32 - start < size)
        let _ ← imageRead image short (start + size - 1) 1
        return ()) = Except.ok () ↔
      start + size ≤ maxUint32 ∧ start + size ≤ image.length := by
  rw [bind_unit_eq_ok, refuseIf_eq_ok]
  have hcheck : ¬maxUint32 - start < size ↔ start + size ≤ maxUint32 := by omega
  rw [hcheck]
  refine and_congr_right fun hmax => ?_
  rw [lastByte_eq_ok (by omega)]
  have hlast : start + size - 1 + 1 = start + size := by omega
  rw [hlast]
  exact and_iff_left rfl

theorem checkSecurityDirectory_eq_ok :
    checkSecurityDirectory image hdr = .ok () ↔
      (directoryEntrySecurity < Nt.numberOfRvaAndSizes hdr →
        (Nt.dataDirectory hdr directoryEntrySecurity).Fits image) := by
  unfold checkSecurityDirectory DataDirectory.Fits
  dsimp only
  split
  · next hsize =>
    rw [checkArea_eq_ok (by omega)]
    exact ⟨fun h _ _ => h, fun h => h hsize.1 hsize.2⟩
  · next hno => exact ⟨fun _ hnum hsize => absurd ⟨hnum, hsize⟩ hno, fun _ => rfl⟩

theorem checkSectionData_eq_ok {sizeOfHeaders : Nat} {s : SectionHeader} :
    checkSectionData image sizeOfHeaders s = .ok () ↔ s.Fits image sizeOfHeaders := by
  unfold checkSectionData SectionHeader.Fits
  split
  · next hsize =>
    rw [bind_unit_eq_ok, refuseIf_eq_ok, checkArea_eq_ok hsize]
    constructor
    · rintro ⟨hbehind, hmax, hin⟩ _
      exact ⟨by omega, by omega, hmax, hin⟩
    · intro h
      obtain ⟨haddress, hpointer, hmax, hin⟩ := h hsize
      exact ⟨by omega, hmax, hin⟩
  · next hsize => exact ⟨fun _ hpos => absurd hpos hsize, fun _ => rfl⟩

/-- The loop over the section headers of a PE image. -/
theorem checkSections_eq_ok {sizeOfHeaders count off : Nat}
    (hoff : off + sizeofSectionHeader * count < 2 ^ 32) :
    checkSections image none sizeOfHeaders count off = .ok () ↔
      (0 < count → off + sizeofSectionHeader * count ≤ image.length) ∧
        ∀ s ∈ sectionTable image count off, s.Fits image sizeOfHeaders := by
  induction count generalizing off with
  | zero => exact ⟨fun _ => ⟨fun h => by omega, by simp [sectionTable]⟩, fun _ => rfl⟩
  | succ count ih =>
      simp only [sizeofSectionHeader] at hoff ih
      have hread {raw : Bytes} : imageRead image efiUnsupported off 40 = .ok raw ↔ _ :=
        imageRead_eq_ok (by simp only [maxAddress]; omega) (by decide) (by decide)
      simp only [checkSections, sectionTable, sizeofSectionHeader, List.forall_mem_cons]
      rw [bind_eq_ok, Nat.mod_eq_of_lt (by omega)]
      constructor
      · rintro ⟨raw, hraw, hrest⟩
        obtain ⟨hin, rfl⟩ := hread.mp hraw
        obtain ⟨hfits, hrest⟩ := bind_unit_eq_ok.mp hrest
        obtain ⟨htable, hall⟩ := (ih (by omega)).mp hrest
        refine ⟨fun _ => ?_, checkSectionData_eq_ok.mp hfits, hall⟩
        rcases Nat.eq_zero_or_pos count with rfl | hpos
        · omega
        · have := htable hpos
          omega
      · rintro ⟨hin, hfits, hall⟩
        have htable := hin (by omega)
        refine ⟨_, hread.mpr ⟨by omega, rfl⟩, bind_unit_eq_ok.mpr ⟨?_, ?_⟩⟩
        · exact checkSectionData_eq_ok.mpr hfits
        · exact (ih (by omega)).mpr ⟨fun _ => by omega, hall⟩

/-- The sections are looked through one by one, all of them in the image. -/
theorem findDebugDirectory_eq {rva count off : Nat}
    (hoff : off + sizeofSectionHeader * count ≤ maxAddress)
    (hin : 0 < count → off + sizeofSectionHeader * count ≤ image.length) :
    findDebugDirectory image rva count off =
      .ok (fileOffsetOf (sectionTable image count off) rva) := by
  induction count generalizing off with
  | zero => rfl
  | succ count ih =>
      simp only [sizeofSectionHeader] at hoff hin ih
      have hread : imageRead image minusOne off 40 = .ok (slice image off 40) :=
        (imageRead_eq_ok (by omega) (by decide) (by decide)).mpr ⟨by omega, rfl⟩
      have hrest : findDebugDirectory image rva count (off + 40) =
          .ok (fileOffsetOf (sectionTable image count (off + 40)) rva) :=
        ih (by omega) fun _ => by omega
      simp only [findDebugDirectory, sectionTable, sizeofSectionHeader, hread, fileOffsetOf,
        List.find?_cons] at hrest ⊢
      change (if (sectionHeader (slice image off 40)).Contains rva then _ else _) = _
      by_cases hhere : (sectionHeader (slice image off 40)).Contains rva
      · rw [if_pos hhere, decide_eq_true hhere]
        rfl
      · rw [if_neg hhere, decide_eq_false hhere, hrest]

/-- Debug entries that fit, one entry at a time. -/
theorem debugEntriesFit_succ {fileOffset rounds : Nat} :
    DebugEntriesFit image fileOffset (rounds + 1) ↔
      fileOffset + sizeofDebugEntry ≤ image.length ∧
        (field image (fileOffset + 12) 4 ≠ debugTypeCodeview →
          DebugEntriesFit image (fileOffset + sizeofDebugEntry) rounds) := by
  simp only [DebugEntriesFit, sizeofDebugEntry]
  constructor
  · intro h
    refine ⟨h 0 (by omega) (fun i hi => by omega), fun htype j hj hbefore => ?_⟩
    have hnext := h (j + 1) (by omega) fun i hi => ?_
    · omega
    · cases i with
      | zero => exact htype
      | succ i =>
          have := hbefore i (by omega)
          rwa [Nat.add_assoc fileOffset, Nat.add_comm 28] at this
  · rintro ⟨hfirst, hrest⟩ j hj hbefore
    cases j with
    | zero => exact hfirst
    | succ j =>
        have hnext := hrest (hbefore 0 (by omega)) j (by omega) fun i hi => ?_
        · omega
        · have := hbefore (i + 1) (by omega)
          rwa [Nat.add_assoc fileOffset, Nat.add_comm 28]

/-- The loop over the debug entries ends without an error when they are in the image. -/
theorem findCodeView_ok_iff {fileOffset rounds index : Nat}
    (haddress : fileOffset + index + sizeofDebugEntry * rounds ≤ maxAddress) :
    (∃ found, findCodeView image fileOffset rounds index = .ok found) ↔
      DebugEntriesFit image (fileOffset + index) rounds := by
  induction rounds generalizing index with
  | zero => exact ⟨fun _ j hj => by omega, fun _ => ⟨none, rfl⟩⟩
  | succ rounds ih =>
      simp only [sizeofDebugEntry] at haddress ih
      have hmod : (fileOffset + index) % 2 ^ 64 = fileOffset + index :=
        Nat.mod_eq_of_lt (by simp only [maxAddress] at haddress; omega)
      rw [debugEntriesFit_succ]
      simp only [findCodeView, sizeofDebugEntry, hmod]
      rw [imageRead_eq image minusOne (by omega) (by decide) (by decide)]
      by_cases hin : fileOffset + index + 28 ≤ image.length
      · rw [if_pos hin]
        have htype := field_slice image (fileOffset + index) 28 (show 12 + 4 ≤ 28 by decide)
        change (∃ found, (if field (slice image (fileOffset + index) 28) 12 4 = debugTypeCodeview
          then _ else _) = _) ↔ _
        rw [htype]
        by_cases hcode : field image (fileOffset + index + 12) 4 = debugTypeCodeview
        · rw [if_pos hcode]
          exact ⟨fun _ => ⟨hin, fun hno => absurd hcode hno⟩, fun _ => ⟨_, rfl⟩⟩
        · rw [if_neg hcode, ih (by omega), Nat.add_assoc fileOffset index 28]
          exact ⟨fun h => ⟨by omega, fun _ => h⟩, fun h => h.2 hcode⟩
      · rw [if_neg hin]
        exact ⟨(fun ⟨_, h⟩ => by cases h), fun h => absurd h.1 hin⟩

/-- The context of a PE image. -/
def ntContext (hdr : Bytes) (offset : Nat) : ImageContext where
  peCoffHeaderOffset := offset
  isTeImage := false
  machine := Nt.machine hdr
  imageType := Nt.subsystem hdr
  imageSize := Nt.sizeOfImage hdr
  sectionAlignment := Nt.sectionAlignment hdr
  sizeOfHeaders := Nt.sizeOfHeaders hdr

theorem sizeOfOptionalHeader_le (h : NtHeaderFits image hdr offset) :
    Nt.sizeOfOptionalHeader hdr ≤ 240 := by
  have hsize := h.optionalHeader
  have hnum := h.directories
  simp only [Nt.headerWithoutDataDir, numberOfDirectoryEntries] at hsize hnum
  split at hsize <;> omega

/-- Below 4 GiB the section headers start where the loader's `UINT32` says. -/
theorem sectionHeaderOffset_eq (hoffset : offset + sizeofHeaderUnion < 2 ^ 32)
    (hsize : Nt.sizeOfOptionalHeader hdr ≤ 240) :
    sectionHeaderOffset offset hdr = tableOffset hdr offset := by
  simp only [sizeofHeaderUnion] at hoffset
  exact Nat.mod_eq_of_lt (by omega)

/-- The size of the optional header, which is compared as a `UINT32`. -/
theorem optionalHeader_iff (hnum : Nt.numberOfRvaAndSizes hdr ≤ numberOfDirectoryEntries) :
    ¬(Nt.sizeOfOptionalHeader hdr + 2 ^ 32 - Nt.headerWithoutDataDir hdr) % 2 ^ 32 ≠
        Nt.numberOfRvaAndSizes hdr * 8 ↔
      Nt.sizeOfOptionalHeader hdr =
        Nt.headerWithoutDataDir hdr + 8 * Nt.numberOfRvaAndSizes hdr := by
  have hopt : Nt.sizeOfOptionalHeader hdr < 256 ^ 2 := field_lt hdr 20 2
  have hdir : Nt.headerWithoutDataDir hdr = 96 ∨ Nt.headerWithoutDataDir hdr = 112 := by
    unfold Nt.headerWithoutDataDir
    split <;> simp
  simp only [numberOfDirectoryEntries] at hnum
  omega

theorem getNtHeader_eq_ok {ctx : ImageContext} (hoffset : offset + sizeofHeaderUnion < 2 ^ 32) :
    getNtHeader image hdr offset = .ok ctx ↔
      NtHeaderFits image hdr offset ∧ ctx = ntContext hdr offset := by
  have hsoh : Nt.sizeOfHeaders hdr < 256 ^ 4 := field_lt hdr 84 4
  have hmax : Nt.sizeOfHeaders hdr - 1 ≤ maxUint32 := by
    simp only [maxUint32]
    omega
  unfold getNtHeader
  simp only [bind_unit_eq_ok, refuseIf_eq_ok]
  rw [lastByte_eq_ok hmax, bind_unit_eq_ok, checkSecurityDirectory_eq_ok]
  constructor
  · rintro ⟨hmagic, hnum, hsize, himage, hcount, hlt, hmem, htable, hlast, hsecurity, hctx⟩
    have hopt := (optionalHeader_iff (by omega)).mp hsize
    have hle : Nt.sizeOfOptionalHeader hdr ≤ 240 := by
      simp only [numberOfDirectoryEntries, Nt.headerWithoutDataDir] at hnum hopt
      split at hopt <;> omega
    rw [sectionHeaderOffset_eq hoffset hle] at himage hcount hlt htable
    simp only [sizeofSectionHeader] at hcount htable
    refine ⟨?_, (Except.ok.inj hctx).symm⟩
    exact {
      magic := by omega
      directories := by omega
      optionalHeader := hopt
      table_in_memory := by
        simp only [sizeofSectionHeader]
        omega
      table_lt := by omega
      table_in_headers := by
        simp only [sizeofSectionHeader]
        omega
      headers_in_memory := by omega
      headers_in := by omega
      security_fits := hsecurity }
  · rintro ⟨h, rfl⟩
    have hmemory := h.table_in_memory
    have hheaders := h.table_in_headers
    have hlt := h.table_lt
    rw [sectionHeaderOffset_eq hoffset (sizeOfOptionalHeader_le h)]
    simp only [sizeofSectionHeader] at hmemory hheaders ⊢
    refine ⟨?_, ?_, (optionalHeader_iff h.directories).mpr h.optionalHeader, ?_, ?_, ?_, ?_, ?_, ?_,
      h.security_fits, rfl⟩
    · have := h.magic
      omega
    · have := h.directories
      omega
    · omega
    · omega
    · omega
    · have := h.headers_in_memory
      omega
    · omega
    · have := h.headers_in
      omega

end Conditions

/-! ## Images that are let through -/

theorem peCoffHeaderOffset_lt (dosHdr : Bytes) : peCoffHeaderOffset dosHdr < 2 ^ 32 := by
  unfold peCoffHeaderOffset
  split
  · exact field_lt dosHdr 60 4
  · decide

/-- The first bytes of a number are its remainder. -/
theorem ofLE_take (bytes : Bytes) (width : Nat) :
    ofLE (bytes.take width) = ofLE bytes % 256 ^ width := by
  induction width generalizing bytes with
  | zero => simp [ofLE, Nat.mod_one]
  | succ width ih =>
      cases bytes with
      | nil => simp [ofLE]
      | cons b rest =>
          have hb : b.toNat < 256 := b.toNat_lt
          have hpow : 256 ^ (width + 1) = 256 * 256 ^ width := Nat.pow_succ'
          have hmod : (b.toNat + 256 * ofLE rest) % 256 = b.toNat := by omega
          have hdiv : (b.toNat + 256 * ofLE rest) / 256 = ofLE rest := by omega
          rw [List.take_succ_cons, ofLE, ofLE, ih, hpow, Nat.mod_mul, hmod, hdiv]

/-- A header with the signature of a PE image has not that of a TE image. -/
theorem te_signature_ne {hdr : Bytes} (h : Nt.signature hdr = ntSignature) :
    Te.signature hdr ≠ teSignature := by
  have hlow : Te.signature hdr = Nt.signature hdr % 256 ^ 2 := by
    unfold Te.signature Nt.signature field
    rw [← ofLE_take, slice, slice, List.take_take]
    rfl
  rw [hlow, h]
  decide

section Accepted

variable {image : Bytes}

theorem NoWrap.header_lt (hwrap : NoWrap image)
    (hin : headerOffset image + sizeofHeaderUnion ≤ image.length) :
    headerOffset image + sizeofHeaderUnion < 2 ^ 32 := by
  rcases hwrap with hsize | hoffset
  · omega
  · exact hoffset

theorem headerOffset_le (image : Bytes) : headerOffset image + sizeofHeaderUnion ≤ maxAddress := by
  have := peCoffHeaderOffset_lt (slice image 0 sizeofDosHeader)
  simp only [headerOffset, sizeofHeaderUnion, maxAddress]
  omega

/-- The two reads deliver the headers, and the signature leads to the branch for PE
images. -/
theorem getPeHeader_eq (hdos : sizeofDosHeader ≤ image.length)
    (hin : headerOffset image + sizeofHeaderUnion ≤ image.length)
    (hsig : Nt.signature (header image) = ntSignature) :
    getPeHeader image = do
      let ctx ← getNtHeader image (header image) (headerOffset image)
      refuseIf (¬imageFormatSupported ctx.machine)
      checkSections image none ctx.sizeOfHeaders (Nt.numberOfSections (header image))
        (sectionHeaderOffset (headerOffset image) (header image))
      return (ctx, header image) := by
  have hdosRead : imageRead image efiUnsupported 0 sizeofDosHeader =
      .ok (slice image 0 sizeofDosHeader) :=
    (imageRead_eq_ok (by decide) (by decide) (by decide)).mpr ⟨by omega, rfl⟩
  have hread : imageRead image efiUnsupported (headerOffset image) sizeofHeaderUnion =
      .ok (header image) :=
    (imageRead_eq_ok (headerOffset_le image) (by decide) (by decide)).mpr ⟨hin, rfl⟩
  unfold getPeHeader
  rw [hdosRead]
  change (imageRead image efiUnsupported (headerOffset image) sizeofHeaderUnion >>= _) = _
  rw [hread]
  change (if Te.signature (header image) = teSignature then _ else _) = _
  rw [if_neg (te_signature_ne hsig), if_pos hsig]
  rfl

/-- A header that is delivered is in the image. -/
theorem getPeHeader_ok_in {ctx : ImageContext} {hdr : Bytes}
    (h : getPeHeader image = .ok (ctx, hdr)) :
    sizeofDosHeader ≤ image.length ∧ headerOffset image + sizeofHeaderUnion ≤ image.length := by
  obtain ⟨dosHdr, hdos, h⟩ := bind_eq_ok.mp h
  obtain ⟨hdosIn, rfl⟩ := (imageRead_eq_ok (by decide) (by decide) (by decide)).mp hdos
  obtain ⟨raw, hraw, -⟩ := bind_eq_ok.mp h
  obtain ⟨hin, -⟩ := (imageRead_eq_ok (headerOffset_le image) (by decide) (by decide)).mp hraw
  exact ⟨by omega, hin⟩

/-- What `PeCoffLoaderGetPeHeader` lets through, where the signature is that of a PE
image. -/
theorem getPeHeader_eq_ok (hwrap : NoWrap image) (hsig : Nt.signature (header image) = ntSignature)
    {ctx : ImageContext} {hdr : Bytes} :
    getPeHeader image = .ok (ctx, hdr) ↔
      (sizeofDosHeader ≤ image.length ∧
        headerOffset image + sizeofHeaderUnion ≤ image.length ∧
        NtHeaderFits image (header image) (headerOffset image) ∧
        imageFormatSupported (Nt.machine (header image)) ∧
        ∀ s ∈ sections image, s.Fits image (Nt.sizeOfHeaders (header image))) ∧
      ctx = ntContext (header image) (headerOffset image) ∧ hdr = header image := by
  have hsections (hfits : NtHeaderFits image (header image) (headerOffset image))
      (hlt : headerOffset image + sizeofHeaderUnion < 2 ^ 32) :
      checkSections image none (Nt.sizeOfHeaders (header image))
          (Nt.numberOfSections (header image))
          (sectionHeaderOffset (headerOffset image) (header image)) = .ok () ↔
        ∀ s ∈ sections image, s.Fits image (Nt.sizeOfHeaders (header image)) := by
    have htable := hfits.table_in_headers
    have hin := hfits.headers_in
    have hsoh : Nt.sizeOfHeaders (header image) < 256 ^ 4 := field_lt (header image) 84 4
    rw [sectionHeaderOffset_eq hlt (sizeOfOptionalHeader_le hfits), checkSections_eq_ok (by omega)]
    exact and_iff_right fun _ => by omega
  constructor
  · intro h
    obtain ⟨hdos, hin⟩ := getPeHeader_ok_in h
    have hlt := hwrap.header_lt hin
    rw [getPeHeader_eq hdos hin hsig] at h
    obtain ⟨ctx', hnt, h⟩ := bind_eq_ok.mp h
    obtain ⟨hfits, rfl⟩ := (getNtHeader_eq_ok hlt).mp hnt
    obtain ⟨hmachine, h⟩ := bind_unit_eq_ok.mp h
    obtain ⟨hcheck, h⟩ := bind_unit_eq_ok.mp h
    cases h
    exact ⟨⟨hdos, hin, hfits, not_not.mp (refuseIf_eq_ok.mp hmachine),
      (hsections hfits hlt).mp hcheck⟩, rfl, rfl⟩
  · rintro ⟨⟨hdos, hin, hfits, hmachine, hall⟩, rfl, rfl⟩
    have hlt := hwrap.header_lt hin
    rw [getPeHeader_eq hdos hin hsig]
    refine bind_eq_ok.mpr ⟨_, (getNtHeader_eq_ok hlt).mpr ⟨hfits, rfl⟩, ?_⟩
    refine bind_unit_eq_ok.mpr ⟨refuseIf_eq_ok.mpr (not_not.mpr hmachine), ?_⟩
    exact bind_unit_eq_ok.mpr ⟨(hsections hfits hlt).mpr hall, rfl⟩

theorem mem_sectionTable {count off : Nat} {s : SectionHeader}
    (h : s ∈ sectionTable image count off) : ∃ raw, s = sectionHeader raw := by
  induction count generalizing off with
  | zero => simp [sectionTable] at h
  | succ count ih =>
      rcases List.mem_cons.mp h with rfl | h
      · exact ⟨_, rfl⟩
      · exact ih h

theorem fileOffsetOf_lt {count off rva : Nat} (hrva : rva < 2 ^ 32) :
    fileOffsetOf (sectionTable image count off) rva < 2 ^ 33 := by
  unfold fileOffsetOf
  split
  · decide
  · next s hfind =>
    obtain ⟨raw, rfl⟩ := mem_sectionTable (List.mem_of_find?_eq_some hfind)
    have hpointer : (sectionHeader raw).pointerToRawData < 256 ^ 4 := field_lt raw 20 4
    omega

/-- The debug directory is searched without an error when its entries are in the
image. -/
theorem getNtImageInfo_ok_iff
    (hfits : NtHeaderFits image (header image) (headerOffset image)) :
    (∃ ctx, getNtImageInfo image (ntContext (header image) (headerOffset image)) (header image) =
        .ok ctx) ↔
      (directoryEntryDebug < Nt.numberOfRvaAndSizes (header image) → debugOffset image ≠ 0 →
        DebugEntriesFit image (debugOffset image)
          (debugRounds (Nt.dataDirectory (header image) directoryEntryDebug).size)) := by
  have hrva : (Nt.dataDirectory (header image) directoryEntryDebug).virtualAddress < 2 ^ 32 :=
    field_lt _ _ 4
  have hsize : (Nt.dataDirectory (header image) directoryEntryDebug).size < 2 ^ 32 :=
    field_lt _ _ 4
  have hoffset : debugOffset image < 2 ^ 33 := fileOffsetOf_lt hrva
  have hfind : findDebugDirectory image
      (Nt.dataDirectory (header image) directoryEntryDebug).virtualAddress
      (Nt.numberOfSections (header image)) (tableOffset (header image) (headerOffset image)) =
        .ok (debugOffset image) := by
    have htable := hfits.table_in_headers
    have hin := hfits.headers_in
    have hsoh : Nt.sizeOfHeaders (header image) < 256 ^ 4 := field_lt (header image) 84 4
    refine findDebugDirectory_eq ?_ fun _ => by omega
    simp only [maxAddress]
    omega
  have haddress : debugOffset image + 0 + sizeofDebugEntry *
      debugRounds (Nt.dataDirectory (header image) directoryEntryDebug).size ≤ maxAddress := by
    simp only [debugRounds, sizeofDebugEntry, maxAddress]
    omega
  have hloop : (∃ found, findCodeView image (debugOffset image)
        (debugRounds (Nt.dataDirectory (header image) directoryEntryDebug).size) 0 = .ok found) ↔
      DebugEntriesFit image (debugOffset image + 0)
        (debugRounds (Nt.dataDirectory (header image) directoryEntryDebug).size) :=
    findCodeView_ok_iff haddress
  unfold getNtImageInfo
  dsimp only
  by_cases hnum : directoryEntryDebug < Nt.numberOfRvaAndSizes (header image)
  · rw [if_pos hnum]
    change (∃ ctx, (findDebugDirectory image _ _
      (tableOffset (header image) (headerOffset image)) >>= _) = .ok ctx) ↔ _
    rw [hfind, ok_bind]
    by_cases hzero : debugOffset image ≠ 0
    · rw [if_pos hzero, exists_bind_ok, hloop, Nat.add_zero]
      · exact ⟨fun h _ _ => h, fun h => h hnum hzero⟩
      · intro found
        cases found with
        | none => exact ⟨_, rfl⟩
        | some entry => exact ⟨_, rfl⟩
    · rw [if_neg hzero]
      exact ⟨fun _ _ hne => absurd hne hzero, fun _ => ⟨_, rfl⟩⟩
  · rw [if_neg hnum]
    exact ⟨fun _ hlt => absurd hlt hnum, fun _ => ⟨_, rfl⟩⟩

theorem getImageInfo_nt {hdr : Bytes} {offset : Nat}
    (h : getPeHeader image = .ok (ntContext hdr offset, hdr)) :
    getImageInfo image = getNtImageInfo image (ntContext hdr offset) hdr := by
  have hpe : (ntContext hdr offset).isTeImage = false := rfl
  unfold getImageInfo
  rw [h, ok_bind]
  dsimp only
  rw [hpe, if_neg Bool.false_ne_true]

/-- `MeasurePeImage` goes on with exactly the well-formed images. -/
theorem locateHeader_eq_ok (hwrap : NoWrap image) {offset : Nat} {hdr : Bytes} :
    locateHeader image = .ok (offset, hdr) ↔
      WellFormed image ∧ offset = headerOffset image ∧ hdr = header image := by
  constructor
  · intro h
    obtain ⟨ctx, hinfo, h⟩ := bind_eq_ok.mp h
    obtain ⟨⟨ctx', hdr'⟩, hpe, -⟩ := bind_eq_ok.mp hinfo
    obtain ⟨hdos, hin⟩ := getPeHeader_ok_in hpe
    have hdosCopy : dosHeader image = .ok (slice image 0 sizeofDosHeader) := by
      rw [dosHeader, imageCopy, copyFrom_ok (by omega)]
    have hcopy : imageCopy image (headerOffset image) sizeofHeaderUnion = .ok (header image) := by
      rw [imageCopy, copyFrom_ok hin]
      rfl
    rw [hdosCopy, ok_bind] at h
    dsimp only at h
    rw [← headerOffset, hcopy, ok_bind] at h
    obtain ⟨hsig, h⟩ := bind_unit_eq_ok.mp h
    have hsig' : Nt.signature (header image) = ntSignature := not_not.mp (refuseIf_eq_ok.mp hsig)
    obtain ⟨⟨-, -, hfits, hmachine, hall⟩, rfl, rfl⟩ := (getPeHeader_eq_ok hwrap hsig').mp hpe
    rw [getImageInfo_nt hpe] at hinfo
    have hdebug := (getNtImageInfo_ok_iff hfits).mp ⟨ctx, hinfo⟩
    obtain ⟨rfl, rfl⟩ := Prod.mk.inj (Except.ok.inj h)
    exact ⟨{ hfits with
      dosHeader_in := hdos
      header_in := hin
      signature := hsig'
      machine := hmachine
      sections_fit := hall
      debug_fits := hdebug }, rfl, rfl⟩
  · rintro ⟨h, rfl, rfl⟩
    have hpe := (getPeHeader_eq_ok hwrap h.signature).mpr
      ⟨⟨h.dosHeader_in, h.header_in, h.toNtHeaderFits, h.machine, h.sections_fit⟩, rfl, rfl⟩
    obtain ⟨ctx, hinfo⟩ := (getNtImageInfo_ok_iff h.toNtHeaderFits).mpr h.debug_fits
    refine bind_eq_ok.mpr ⟨ctx, (getImageInfo_nt hpe).trans hinfo, ?_⟩
    have hdosCopy : dosHeader image = .ok (slice image 0 sizeofDosHeader) := by
      have := h.dosHeader_in
      rw [dosHeader, imageCopy, copyFrom_ok (by omega)]
    have hcopy : imageCopy image (headerOffset image) sizeofHeaderUnion = .ok (header image) := by
      rw [imageCopy, copyFrom_ok h.header_in]
      rfl
    rw [hdosCopy, ok_bind]
    dsimp only
    rw [← headerOffset, hcopy, ok_bind]
    exact bind_unit_eq_ok.mpr ⟨refuseIf_eq_ok.mpr (not_not.mpr h.signature), rfl⟩

end Accepted

/-- A PE32 image with one section and an empty directory entry for certificates. -/
def smallImage : Bytes :=
  ascii "PE" ++ zeros 2 ++ toLE 2 0x8664 ++ toLE 2 1 ++ zeros 12 ++ toLE 2 136 ++ zeros 2
    ++ toLE 2 Nt.hdr32Magic ++ zeros 54 ++ toLE 4 4096 ++ toLE 4 200 ++ zeros 28 ++ toLE 4 5
    ++ zeros 40 ++ zeros 8 ++ toLE 4 64 ++ toLE 4 200 ++ toLE 4 64 ++ toLE 4 200 ++ zeros 16
    ++ List.replicate 64 7

theorem smallImage_noWrap : NoWrap smallImage := Or.inl (by decide +kernel)

theorem smallImage_wellFormed : WellFormed smallImage := by
  have hrun : (locateHeader smallImage).toOption.map (fun _ => ()) = some () := by decide +kernel
  obtain ⟨⟨offset, hdr⟩, hok, -⟩ := exists_of_toOption_map hrun
  exact ((locateHeader_eq_ok smallImage_noWrap).mp hok).1

end MeasuredBoot.PeCoff
