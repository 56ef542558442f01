import MeasuredBoot.Common.Sha2
import MeasuredBoot.PeCoff.WellFormed

/-! # The data of an Authenticode digest

What is to be hashed of an image: the headers without the checksum and without the
directory entry of the certificates, the data of the sections in the order they have in
the file, and what follows behind as many bytes, without the certificates. For a
well-formed image `MeasurePeImage` reads that, and nothing outside of the image.
-/

namespace MeasuredBoot.PeCoff

open Binary Imperative

/-! ## The abstract data -/

/-- A byte string without `len` bytes at `off`. -/
def without (bytes : Bytes) (off len : Nat) : Bytes := bytes.take off ++ bytes.drop (off + len)

def checkSumOffset (image : Bytes) : Nat := headerOffset image + Nt.checkSumOffset

/-- Where the directory entry of the certificates stands. -/
def securityOffset (image : Bytes) : Nat :=
  headerOffset image + Nt.dataDirectoryOffset (header image) directoryEntrySecurity

/-- The image has a directory entry for certificates. -/
def HasSecurity (image : Bytes) : Prop :=
  directoryEntrySecurity < Nt.numberOfRvaAndSizes (header image)

instance (image : Bytes) : Decidable (HasSecurity image) := inferInstanceAs (Decidable (_ < _))

/-- The headers without what a signature changes in them. -/
def signedHeaders (image : Bytes) : Bytes :=
  let headers := image.take (Nt.sizeOfHeaders (header image))
  let unsigned := if HasSecurity image then without headers (securityOffset image) 8 else headers
  without unsigned (checkSumOffset image) 4

/-- The sections as they follow each other in the file. -/
def fileOrder (image : Bytes) : List SectionHeader :=
  (sections image).insertionSort fun s t => s.pointerToRawData ≤ t.pointerToRawData

def SectionHeader.data (image : Bytes) (s : SectionHeader) : Bytes :=
  slice image s.pointerToRawData s.sizeOfRawData

/-- The number of bytes of the headers and the sections. -/
def hashedSize (image : Bytes) : Nat :=
  Nt.sizeOfHeaders (header image) + ((sections image).map SectionHeader.sizeOfRawData).sum

/-- What follows behind as many bytes, without the certificates. -/
def trailer (image : Bytes) : Bytes :=
  slice image (hashedSize image)
    (image.length - certSize (header image) - hashedSize image)

def authenticode (image : Bytes) : Bytes :=
  signedHeaders image ++ (fileOrder image).flatMap (SectionHeader.data image) ++ trailer image

/-- What follows is at least as long as the certificates, or nothing does. -/
def CertificatesFit (image : Bytes) : Prop :=
  image.length ≤ hashedSize image ∨ hashedSize image + certSize (header image) ≤ image.length

instance (image : Bytes) : Decidable (CertificatesFit image) :=
  inferInstanceAs (Decidable (_ ∨ _))

/-! ## Positions in the headers -/

section Positions

variable {image : Bytes}

/-- The checksum, the directory entry and the section headers follow each other in the
headers. -/
theorem WellFormed.checkSum_lt (h : WellFormed image) :
    checkSumOffset image + 4 < Nt.sizeOfHeaders (header image) := by
  have htable := h.table_lt
  have hopt := h.optionalHeader
  have hdir : 96 ≤ Nt.headerWithoutDataDir (header image) := by
    unfold Nt.headerWithoutDataDir
    split <;> decide
  simp only [checkSumOffset, Nt.checkSumOffset, tableOffset] at htable ⊢
  omega

theorem checkSum_le_security (image : Bytes) : checkSumOffset image + 4 ≤ securityOffset image := by
  have hdir : 96 ≤ Nt.headerWithoutDataDir (header image) := by
    unfold Nt.headerWithoutDataDir
    split <;> decide
  simp only [checkSumOffset, Nt.checkSumOffset, securityOffset, Nt.dataDirectoryOffset]
  omega

theorem WellFormed.security_lt (h : WellFormed image) (hsecurity : HasSecurity image) :
    securityOffset image + 8 ≤ tableOffset (header image) (headerOffset image) ∧
      securityOffset image + 8 < Nt.sizeOfHeaders (header image) := by
  have htable := h.table_lt
  have hopt := h.optionalHeader
  simp only [HasSecurity, directoryEntrySecurity] at hsecurity
  simp only [securityOffset, Nt.dataDirectoryOffset, directoryEntrySecurity, tableOffset]
    at htable ⊢
  omega

end Positions

/-! ## Reading inside of the image -/

section Reading

variable {image : Bytes}

theorem imageCopy_ok {off count : Nat} (h : off + count ≤ image.length) :
    imageCopy image off count = .ok (slice image off count) := by
  rw [imageCopy, copyFrom_ok h]

/-- A number that is at most another one is subtracted from it in 64 bits. -/
theorem sub64 {a b : Nat} (hle : b ≤ a) (hlt : a < 2 ^ 64) : (a + 2 ^ 64 - b) % 2 ^ 64 = a - b := by
  omega

theorem sizeOfHeaders_lt (hdr : Bytes) : Nt.sizeOfHeaders hdr < 2 ^ 32 := field_lt hdr 84 4

theorem slice_eq_drop_take (bytes : Bytes) (off stop : Nat) :
    slice bytes off (stop - off) = (bytes.take stop).drop off := by
  rw [slice, List.drop_take]

/-- The areas are left out from the last one on. -/
theorem without_without {bytes : Bytes} {a n b m : Nat} (hab : a + n ≤ b)
    (hb : b ≤ bytes.length) :
    without (without bytes b m) a n =
      bytes.take a ++ (bytes.take b).drop (a + n) ++ bytes.drop (b + m) := by
  have hlen : (bytes.take b).length = b := by
    rw [List.length_take]
    omega
  unfold without
  rw [List.take_append_of_le_length (by omega), List.take_take, Nat.min_eq_left (by omega),
    List.drop_append_of_le_length (by omega), List.append_assoc]

/-- The headers are read in pieces between what is left out. -/
theorem hashHeaders_eq (h : WellFormed image) :
    hashHeaders image (header image) (headerOffset image) = .ok (signedHeaders image) := by
  have hcheck := h.checkSum_lt
  have hin := h.headers_in
  have hsoh := sizeOfHeaders_lt (header image)
  unfold hashHeaders signedHeaders
  dsimp only
  rw [← checkSumOffset, imageCopy_ok (by omega), ok_bind]
  by_cases hnum : HasSecurity image
  · obtain ⟨-, hlt⟩ := h.security_lt hnum
    have hle := checkSum_le_security image
    have hbehind : headerOffset image +
        Nt.dataDirectoryOffset (header image) (directoryEntrySecurity + 1) =
          securityOffset image + 8 := by
      simp only [securityOffset, Nt.dataDirectoryOffset]
      omega
    rw [if_neg (not_le.mpr hnum), if_pos hnum, ← securityOffset, hbehind, sub64 hlt.le (by omega),
      imageCopy_ok (by omega), ok_bind, imageCopy_ok (by omega), ok_bind]
    have hlen : (image.take (Nt.sizeOfHeaders (header image))).length =
        Nt.sizeOfHeaders (header image) := by
      rw [List.length_take]
      omega
    rw [without_without hle (by omega), slice_eq_drop_take, slice_eq_drop_take,
      List.take_take, List.take_take, Nat.min_eq_left (by omega), Nat.min_eq_left (by omega)]
    rfl
  · rw [if_pos (not_lt.mp hnum), if_neg hnum, sub64 hcheck.le (by omega),
      imageCopy_ok (by omega), ok_bind, slice_eq_drop_take, without, List.take_take,
      Nat.min_eq_left (by omega)]
    rfl

/-- The section headers are read through the pointer behind the optional header. -/
theorem sectionsFrom_eq {count off : Nat}
    (h : 0 < count → off + sizeofSectionHeader * count ≤ image.length) :
    sectionsFrom image count off = .ok (sectionTable image count off) := by
  induction count generalizing off with
  | zero => rfl
  | succ count ih =>
      simp only [sizeofSectionHeader] at h ih
      have hrest : sectionsFrom image count (off + 40) =
          .ok (sectionTable image count (off + 40)) := ih fun _ => by omega
      simp only [sectionsFrom, sizeofSectionHeader]
      rw [imageCopy_ok (by omega), ok_bind, hrest, ok_bind]
      rfl

theorem hashSections_eq {table : List SectionHeader}
    (h : ∀ s ∈ table, 0 < s.sizeOfRawData → s.pointerToRawData + s.sizeOfRawData ≤ image.length) :
    hashSections image table = .ok (table.flatMap (SectionHeader.data image)) := by
  induction table with
  | nil => rfl
  | cons s table ih =>
      have hrest := ih fun t ht => h t (List.mem_cons_of_mem s ht)
      rw [hashSections, List.flatMap_cons]
      by_cases hzero : s.sizeOfRawData = 0
      · rw [if_pos hzero, hrest, SectionHeader.data, hzero, slice, List.take_zero, List.nil_append]
      · rw [if_neg hzero, imageCopy_ok (h s List.mem_cons_self (by omega)), ok_bind, hrest, ok_bind]
        rfl

/-- The loop of step 12 puts the sections into the order of the file. -/
theorem sortSections_eq (xs : List SectionHeader) :
    sortSections xs = xs.insertionSort fun s t => s.pointerToRawData ≤ t.pointerToRawData :=
  InsertionSort.insertAll_nil SectionHeader.pointerToRawData (List.length_replicate ..)

theorem mem_fileOrder {s : SectionHeader} : s ∈ fileOrder image ↔ s ∈ sections image :=
  List.mem_insertionSort _

/-- The sum does not depend on the order of the sections. -/
theorem sumOfBytesHashed_eq (image : Bytes) :
    sumOfBytesHashed (header image) (fileOrder image) = hashedSize image := by
  have hperm : (fileOrder image).Perm (sections image) := List.perm_insertionSort _ _
  rw [sumOfBytesHashed, hashedSize, (hperm.map _).sum_nat]

theorem hashTrailer_eq (image : Bytes) :
    hashTrailer image (header image) (hashedSize image) =
      if CertificatesFit image then .ok (trailer image) else .error (.status efiUnsupported) := by
  unfold hashTrailer trailer
  by_cases hsize : image.length > hashedSize image
  · rw [if_pos hsize]
    by_cases hmore : image.length > certSize (header image) + hashedSize image
    · have hfit : CertificatesFit image := Or.inr (by omega)
      rw [if_pos hmore, imageCopy_ok (by omega), if_pos hfit]
    · rw [if_neg hmore]
      by_cases hless : image.length < certSize (header image) + hashedSize image
      · have hunfit : ¬CertificatesFit image := by
          unfold CertificatesFit
          omega
        rw [if_pos hless, if_neg hunfit]
      · have hfit : CertificatesFit image := Or.inr (by omega)
        have hzero : image.length - certSize (header image) - hashedSize image = 0 := by omega
        rw [if_neg hless, if_pos hfit, hzero, slice, List.take_zero]
        rfl
  · have hfit : CertificatesFit image := Or.inl (by omega)
    have hzero : image.length - certSize (header image) - hashedSize image = 0 := by omega
    rw [if_neg hsize, if_pos hfit, hzero, slice, List.take_zero]
    rfl

/-- Steps 3 to 16 of a well-formed image. -/
theorem hashImage_eq (h : WellFormed image) :
    hashImage true image (header image) (headerOffset image) =
      if CertificatesFit image then .ok (authenticode image)
      else .error (.status efiUnsupported) := by
  have htable := h.table_in_headers
  have hin := h.headers_in
  have hsections : sectionsFrom image (Nt.numberOfSections (header image))
      (headerOffset image + 24 + Nt.sizeOfOptionalHeader (header image)) = .ok (sections image) :=
    sectionsFrom_eq fun _ => htable.trans hin
  have hdata : hashSections image (fileOrder image) =
      .ok ((fileOrder image).flatMap (SectionHeader.data image)) :=
    hashSections_eq fun s hs hpos => (h.sections_fit s (mem_fileOrder.mp hs) hpos).2.2.2
  unfold hashImage
  rw [hashHeaders_eq h, ok_bind, if_neg (by decide), hsections, ok_bind]
  dsimp only
  rw [sortSections_eq, ← fileOrder, hdata, ok_bind, sumOfBytesHashed_eq, hashTrailer_eq]
  by_cases hcert : CertificatesFit image
  · rw [if_pos hcert, if_pos hcert]
    rfl
  · rw [if_neg hcert, if_neg hcert]
    rfl

theorem hashImage_no_table (h : WellFormed image) :
    hashImage false image (header image) (headerOffset image) =
      .error (.status efiOutOfResources) := by
  unfold hashImage
  rw [hashHeaders_eq h, ok_bind, if_pos rfl]

end Reading

/-! ## `MeasurePeImage` -/

section Measure

variable {n : Nat} {image : Bytes}

/-- The pointers `DosHdr` and `Hdr` are used only where the loader has read. -/
theorem locateHeader_returns (image : Bytes) : Returns (locateHeader image) := by
  refine .bind (getImageInfo_returns image) fun ctx hinfo => ?_
  obtain ⟨found, hpe, -⟩ := bind_eq_ok.mp hinfo
  obtain ⟨hdos, hin⟩ := getPeHeader_ok_in hpe
  rw [dosHeader, imageCopy_ok (by omega), ok_bind]
  dsimp only
  rw [← headerOffset, imageCopy_ok hin, ok_bind]
  exact .bind (.refuseIf _) fun _ _ => .pure _

/-- An image that is not well-formed is turned down with an error status. -/
theorem locateHeader_error (hwrap : NoWrap image) (h : ¬WellFormed image) :
    ∃ status, locateHeader image = .error (.status status) ∧ efiError status := by
  rcases (locateHeader_returns image).cases with ⟨⟨offset, hdr⟩, hok⟩ | hrefused
  · exact absurd ((locateHeader_eq_ok hwrap).mp hok).1 h
  · exact hrefused

/-- What `MeasurePeImage` does with a well-formed image. -/
theorem measurePeImage_of_wellFormed (md : Md n) (env : MeasureEnv) (hwrap : NoWrap image)
    (h : WellFormed image) :
    measurePeImage md env image =
      if env.ctxAllocated = false ∨ env.digestInit = false then .ok (efiSuccess, none)
      else if env.tableAllocated = false then .ok (efiOutOfResources, none)
      else if CertificatesFit image then .ok (digestUpdated, some (md (authenticode image)))
      else .ok (efiUnsupported, none) := by
  have hlocate := (locateHeader_eq_ok hwrap).mpr ⟨h, rfl, rfl⟩
  unfold measurePeImage
  rw [hlocate]
  dsimp only
  split
  · rfl
  · cases htable : env.tableAllocated with
    | false => rw [hashImage_no_table h, if_pos rfl]
    | true =>
        rw [hashImage_eq h]
        by_cases hcert : CertificatesFit image
        · simp only [if_pos hcert, Bool.true_eq_false, if_false]
        · simp only [if_neg hcert, Bool.true_eq_false, if_false]

/-- What `MeasurePeImage` does with any other image. -/
theorem measurePeImage_of_not_wellFormed (md : Md n) (env : MeasureEnv) (hwrap : NoWrap image)
    (h : ¬WellFormed image) :
    ∃ status, efiError status ∧
      measurePeImage md env image =
        if env.staleCtx then .error .fault else .ok (status, none) := by
  obtain ⟨status, hlocate, herror⟩ := locateHeader_error hwrap h
  refine ⟨status, herror, ?_⟩
  unfold measurePeImage
  rw [hlocate]

/-- No access of `MeasurePeImage` is outside of the image, and none of its loops runs for
ever. It stops at the cleanup of an image that is turned down, and exactly if the pointer
that never got a value is not `NULL`. -/
theorem measurePeImage_stops_iff (md : Md n) (env : MeasureEnv) (hwrap : NoWrap image)
    (why : Stop) :
    measurePeImage md env image = .error why ↔
      why = .fault ∧ env.staleCtx ∧ ¬WellFormed image := by
  by_cases h : WellFormed image
  · rw [measurePeImage_of_wellFormed md env hwrap h]
    have hno : ¬(why = .fault ∧ env.staleCtx ∧ ¬WellFormed image) := fun hw => hw.2.2 h
    refine ⟨fun hstop => ?_, fun hw => absurd hw hno⟩
    split at hstop
    · cases hstop
    split at hstop
    · cases hstop
    split at hstop <;> cases hstop
  · obtain ⟨status, -, hrun⟩ := measurePeImage_of_not_wellFormed md env hwrap h
    rw [hrun]
    cases env.staleCtx with
    | false => exact ⟨(fun hstop => by cases hstop), fun hw => by cases hw.2.1⟩
    | true =>
        exact ⟨fun hstop => ⟨(Except.error.inj hstop).symm, rfl, h⟩, fun hw => by rw [hw.1]; rfl⟩

/-- The accesses of a run on a well-formed image, with a value on the stack. -/
theorem measurePeImage_stops_iff_smallImage :
    measurePeImage Sha256.sha256 ⟨true, true, true, true⟩ smallImage ≠ .error .fault :=
  fun hstop => ((measurePeImage_stops_iff _ _ smallImage_noWrap _).mp hstop).2.2
    smallImage_wellFormed

/-- A digest is written for exactly the well-formed images whose certificates fit, and
it is the Authenticode digest. -/
theorem measurePeImage_digest_iff (md : Md n) (env : MeasureEnv) (hwrap : NoWrap image)
    (status : UInt64) (hash : Digest n) :
    measurePeImage md env image = .ok (status, some hash) ↔
      (env.ctxAllocated ∧ env.digestInit ∧ env.tableAllocated) ∧ WellFormed image ∧
        CertificatesFit image ∧ status = digestUpdated ∧ hash = md (authenticode image) := by
  by_cases h : WellFormed image
  · rw [measurePeImage_of_wellFormed md env hwrap h]
    constructor
    · intro hrun
      split at hrun
      · cases hrun
      · next hctx =>
        split at hrun
        · cases hrun
        · next htable =>
          split at hrun
          · next hcert =>
            obtain ⟨hstatus, hhash⟩ := Prod.mk.inj (Except.ok.inj hrun)
            refine ⟨⟨?_, ?_, ?_⟩, h, hcert, hstatus.symm, (Option.some.inj hhash).symm⟩ <;> simp_all
          · cases hrun
    · rintro ⟨⟨hctx, hinit, htable⟩, -, hcert, rfl, rfl⟩
      rw [hctx, hinit, htable]
      simp [hcert]
  · obtain ⟨code, -, hrun⟩ := measurePeImage_of_not_wellFormed md env hwrap h
    rw [hrun]
    refine ⟨fun hdigest => ?_, fun hw => absurd hw.2.1 h⟩
    split at hdigest <;> cases hdigest

/-- A status that is no error comes without a digest exactly where the digest context
cannot be set up: the status is still that of the loader. -/
theorem measurePeImage_unreported_iff (md : Md n) (env : MeasureEnv) (hwrap : NoWrap image) :
    (∃ status, measurePeImage md env image = .ok (status, none) ∧ ¬efiError status) ↔
      WellFormed image ∧ (env.ctxAllocated = false ∨ env.digestInit = false) := by
  by_cases h : WellFormed image
  · rw [measurePeImage_of_wellFormed md env hwrap h]
    constructor
    · rintro ⟨status, hrun, hno⟩
      refine ⟨h, ?_⟩
      by_contra hctx
      rw [if_neg hctx] at hrun
      split at hrun
      · cases hrun
        exact hno (by decide)
      · split at hrun
        · cases hrun
        · cases hrun
          exact hno (by decide)
    · rintro ⟨-, hctx⟩
      exact ⟨efiSuccess, if_pos hctx, by decide⟩
  · obtain ⟨code, herror, hrun⟩ := measurePeImage_of_not_wellFormed md env hwrap h
    rw [hrun]
    constructor
    · rintro ⟨status, hok, hno⟩
      split at hok
      · cases hok
      · cases hok
        exact absurd herror hno
    · exact fun hw => absurd hw.1 h

/-- What a caller can conclude: a digest is written for exactly the well-formed images
whose certificates fit, and it is the Authenticode digest; but there is a success without
a digest where the digest context cannot be set up. -/
theorem measurePeImage_status_iff (md : Md n) (env : MeasureEnv) (hwrap : NoWrap image) :
    (∀ status hash, measurePeImage md env image = .ok (status, some hash) ↔
      (env.ctxAllocated ∧ env.digestInit ∧ env.tableAllocated) ∧ WellFormed image ∧
        CertificatesFit image ∧ status = digestUpdated ∧ hash = md (authenticode image)) ∧
    ((∃ status, measurePeImage md env image = .ok (status, none) ∧ ¬efiError status) ↔
      WellFormed image ∧ (env.ctxAllocated = false ∨ env.digestInit = false)) :=
  ⟨measurePeImage_digest_iff md env hwrap, measurePeImage_unreported_iff md env hwrap⟩

theorem smallImage_certificatesFit : CertificatesFit smallImage := by decide +kernel

theorem measurePeImage_status_iff_smallImage :
    measurePeImage Sha256.sha256 ⟨true, true, true, false⟩ smallImage =
        .ok (digestUpdated, some (Sha256.sha256 (authenticode smallImage))) ∧
      ∃ status, measurePeImage Sha256.sha256 ⟨false, true, true, false⟩ smallImage =
        .ok (status, none) ∧ ¬efiError status :=
  ⟨((measurePeImage_status_iff _ _ smallImage_noWrap).1 _ _).mpr
      ⟨⟨rfl, rfl, rfl⟩, smallImage_wellFormed, smallImage_certificatesFit, rfl, rfl⟩,
    (measurePeImage_status_iff _ _ smallImage_noWrap).2.mpr
      ⟨smallImage_wellFormed, Or.inl rfl⟩⟩

end Measure

end MeasuredBoot.PeCoff
