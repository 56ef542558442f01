import MeasuredBoot.PeCoff.Authenticode

/-! # What a digest says of an image

An image without gaps is hashed as it is but for the checksum, the directory entry of
the certificates and the certificates at its end. Its digest binds everything else, and
a signature does not change it.
-/

namespace MeasuredBoot.PeCoff

open Binary Imperative

/-! ## Images without gaps -/

/-- The sections that have data follow each other from `start` on. -/
def Tiles : Nat → List SectionHeader → Prop
  | _, [] => True
  | start, s :: table =>
      if s.sizeOfRawData = 0 then Tiles start table
      else s.pointerToRawData = start ∧ Tiles (start + s.sizeOfRawData) table

instance decidableTiles :
    (start : Nat) → (table : List SectionHeader) → Decidable (Tiles start table)
  | _, [] => isTrue trivial
  | start, s :: table =>
      have := decidableTiles start table
      have := decidableTiles (start + s.sizeOfRawData) table
      inferInstanceAs (Decidable (if s.sizeOfRawData = 0 then _ else _ ∧ _))

/-- The image without its certificates. -/
def bodyLength (image : Bytes) : Nat := image.length - certSize (header image)

/-- The sections cover the image from the headers on, with room for the certificates
behind them. -/
structure Contiguous (image : Bytes) : Prop where
  tiles : Tiles (Nt.sizeOfHeaders (header image)) (fileOrder image)
  room : hashedSize image + certSize (header image) ≤ image.length

/-- An image without everything a signature changes. -/
def unsigned (image : Bytes) : Bytes :=
  let body := image.take (bodyLength image)
  without (if HasSecurity image then without body (securityOffset image) 8 else body)
    (checkSumOffset image) 4

/-- Adjacent data is one piece of the image. -/
theorem Tiles.data_eq {image : Bytes} {table : List SectionHeader} {start : Nat}
    (h : Tiles start table) :
    table.flatMap (SectionHeader.data image) =
      slice image start (table.map SectionHeader.sizeOfRawData).sum := by
  induction table generalizing start with
  | nil => simp [slice]
  | cons s table ih =>
      rw [List.flatMap_cons, List.map_cons, List.sum_cons]
      unfold Tiles at h
      by_cases hzero : s.sizeOfRawData = 0
      · rw [if_pos hzero] at h
        rw [ih h, SectionHeader.data, hzero, Nat.zero_add]
        simp [slice]
      · rw [if_neg hzero] at h
        obtain ⟨rfl, h⟩ := h
        rw [ih h, SectionHeader.data, slice, slice, slice, ← List.drop_drop, List.take_add]

/-- Leaving out a part of the first of two strings. -/
theorem without_append {bytes : Bytes} (rest : Bytes) {off len : Nat}
    (h : off + len ≤ bytes.length) :
    without (bytes ++ rest) off len = without bytes off len ++ rest := by
  unfold without
  rw [List.take_append_of_le_length (by omega), List.drop_append_of_le_length h,
    List.append_assoc]

theorem without_length {bytes : Bytes} {off len : Nat} (h : off + len ≤ bytes.length) :
    (without bytes off len).length = bytes.length - len := by
  simp only [without, List.length_append, List.length_take, List.length_drop]
  omega

/-- Two neighbouring slices. -/
theorem slice_append_slice (bytes : Bytes) {a b c : Nat} (hab : a ≤ b) (hbc : b ≤ c) :
    slice bytes a (b - a) ++ slice bytes b (c - b) = slice bytes a (c - a) := by
  have hdrop : bytes.drop b = (bytes.drop a).drop (b - a) := by
    rw [List.drop_drop]
    congr 1
    omega
  have hsum : c - a = (b - a) + (c - b) := by omega
  rw [slice, slice, slice, hdrop, hsum, List.take_add]

section Body

variable {image : Bytes}

theorem hashedSize_eq (image : Bytes) :
    hashedSize image =
      Nt.sizeOfHeaders (header image) + ((fileOrder image).map SectionHeader.sizeOfRawData).sum :=
  (sumOfBytesHashed_eq image).symm

theorem Contiguous.headers_le (hc : Contiguous image) :
    Nt.sizeOfHeaders (header image) ≤ bodyLength image := by
  have hroom := hc.room
  simp only [hashedSize, bodyLength] at hroom ⊢
  omega

/-- What is hashed of an image without gaps is the image without what a signature
changes. -/
theorem Contiguous.authenticode_eq (h : WellFormed image) (hc : Contiguous image) :
    authenticode image = unsigned image := by
  have hroom := hc.room
  have hsize := hashedSize_eq image
  have hle := hc.headers_le
  have hcheck := h.checkSum_lt
  have hin := h.headers_in
  have hdata : (fileOrder image).flatMap (SectionHeader.data image) ++ trailer image =
      (image.take (bodyLength image)).drop (Nt.sizeOfHeaders (header image)) := by
    have htrailer : trailer image =
        slice image (hashedSize image) (bodyLength image - hashedSize image) := rfl
    have hsum : ((fileOrder image).map SectionHeader.sizeOfRawData).sum =
        hashedSize image - Nt.sizeOfHeaders (header image) := by omega
    have hbody : hashedSize image ≤ bodyLength image := by
      simp only [bodyLength]
      omega
    rw [hc.tiles.data_eq, hsum, htrailer, slice_append_slice image (by omega) hbody,
      slice_eq_drop_take]
  have hsplit : image.take (bodyLength image) =
      image.take (Nt.sizeOfHeaders (header image)) ++
        (image.take (bodyLength image)).drop (Nt.sizeOfHeaders (header image)) := by
    have := List.take_append_drop (Nt.sizeOfHeaders (header image)) (image.take (bodyLength image))
    rw [List.take_take, Nat.min_eq_left hle] at this
    exact this.symm
  have hlen : (image.take (Nt.sizeOfHeaders (header image))).length =
      Nt.sizeOfHeaders (header image) := by
    rw [List.length_take]
    omega
  unfold authenticode unsigned signedHeaders
  dsimp only
  rw [List.append_assoc, hdata]
  by_cases hsecurity : HasSecurity image
  · obtain ⟨-, hlt⟩ := h.security_lt hsecurity
    have hpos := checkSum_le_security image
    rw [if_pos hsecurity, if_pos hsecurity]
    conv_rhs => rw [hsplit]
    rw [without_append _ (by omega), without_append]
    rw [without_length (by omega)]
    omega
  · rw [if_neg hsecurity, if_neg hsecurity]
    conv_rhs => rw [hsplit]
    rw [without_append _ (by omega)]

end Body

/-! ## Images that differ in their signature -/

/-- A position of the image that a signature does not change. -/
def Signed (image : Bytes) (i : Nat) : Prop :=
  (i < checkSumOffset image ∨ checkSumOffset image + 4 ≤ i) ∧
    (HasSecurity image → i < securityOffset image ∨ securityOffset image + 8 ≤ i)

/-- The images have the same bytes but for the checksum, the directory entry of the
certificates, and the certificates. -/
structure SameUpToSignature (image image' : Bytes) : Prop where
  offset : headerOffset image = headerOffset image'
  security : HasSecurity image ↔ HasSecurity image'
  entry : securityOffset image = securityOffset image'
  length : bodyLength image = bodyLength image'
  agree : ∀ i < bodyLength image, Signed image i → image[i]? = image'[i]?

/-- What is left when an area is left out, by position. -/
theorem without_getElem? {bytes : Bytes} {off len : Nat} (h : off + len ≤ bytes.length)
    (i : Nat) : (without bytes off len)[i]? = if i < off then bytes[i]? else bytes[i + len]? := by
  have hlen : (bytes.take off).length = off := by
    rw [List.length_take]
    omega
  unfold without
  split
  · next hi => rw [List.getElem?_append_left (by omega), List.getElem?_take_of_lt hi]
  · next hi =>
    rw [List.getElem?_append_right (by omega), hlen, List.getElem?_drop]
    congr 1
    omega

/-- Where a byte outside of the area stands when it is left out. -/
def keptPosition (off len i : Nat) : Nat := if i < off then i else i - len

theorem without_keptPosition {bytes : Bytes} {off len i : Nat} (h : off + len ≤ bytes.length)
    (hi : i < off ∨ off + len ≤ i) :
    (without bytes off len)[keptPosition off len i]? = bytes[i]? := by
  rw [without_getElem? h]
  unfold keptPosition
  rcases hi with hbefore | hbehind
  · rw [if_pos hbefore, if_pos hbefore]
  · have hnot : ¬i < off := by omega
    rw [if_neg hnot, if_neg (by omega), Nat.sub_add_cancel (by omega)]

/-- Strings that agree on an area have the same bytes there. -/
theorem slice_congr {xs ys : Bytes} {off count : Nat}
    (h : ∀ i, off ≤ i → i < off + count → xs[i]? = ys[i]?) :
    slice xs off count = slice ys off count := by
  refine List.ext_getElem? fun i => ?_
  by_cases hi : i < count
  · rw [slice, slice, List.getElem?_take_of_lt hi, List.getElem?_take_of_lt hi,
      List.getElem?_drop, List.getElem?_drop]
    exact h (off + i) (by omega) (by omega)
  · rw [List.getElem?_eq_none, List.getElem?_eq_none]
    · simp only [slice, List.length_take]
      omega
    · simp only [slice, List.length_take]
      omega

theorem field_congr {xs ys : Bytes} {off width : Nat}
    (h : ∀ i, off ≤ i → i < off + width → xs[i]? = ys[i]?) :
    field xs off width = field ys off width :=
  congrArg ofLE (slice_congr h)

section Positions

variable {image : Bytes}

/-- Where a byte of the image is in the unsigned image. -/
def unsignedPosition (image : Bytes) (i : Nat) : Nat :=
  keptPosition (checkSumOffset image) 4
    (if HasSecurity image then keptPosition (securityOffset image) 8 i else i)

theorem bodyLength_le (image : Bytes) : bodyLength image ≤ image.length := Nat.sub_le _ _

theorem body_length (image : Bytes) :
    (image.take (bodyLength image)).length = bodyLength image := by
  rw [List.length_take, Nat.min_eq_left (bodyLength_le image)]

/-- The bytes that are kept stand at their positions. -/
theorem unsigned_getElem? (h : WellFormed image) (hc : Contiguous image) {i : Nat}
    (hi : i < bodyLength image) (hsigned : Signed image i) :
    (unsigned image)[unsignedPosition image i]? = image[i]? := by
  obtain ⟨hcheck, hentry⟩ := hsigned
  have hlt := h.checkSum_lt
  have hle := hc.headers_le
  have hpos := checkSum_le_security image
  have hbody : (image.take (bodyLength image))[i]? = image[i]? := List.getElem?_take_of_lt hi
  unfold unsigned unsignedPosition
  dsimp only
  by_cases hsecurity : HasSecurity image
  · have hroom := (h.security_lt hsecurity).2
    have hin : securityOffset image + 8 ≤ (image.take (bodyLength image)).length := by
      rw [body_length]
      omega
    rw [if_pos hsecurity, if_pos hsecurity, without_keptPosition,
      without_keptPosition hin (hentry hsecurity), hbody]
    · rw [without_length hin, body_length]
      omega
    · unfold keptPosition
      have := hentry hsecurity
      split <;> omega
  · rw [if_neg hsecurity, if_neg hsecurity, without_keptPosition _ hcheck, hbody]
    rw [body_length]
    omega

theorem unsigned_length (h : WellFormed image) (hc : Contiguous image) :
    (unsigned image).length + (if HasSecurity image then 12 else 4) = bodyLength image := by
  have hlt := h.checkSum_lt
  have hle := hc.headers_le
  have hpos := checkSum_le_security image
  unfold unsigned
  dsimp only
  by_cases hsecurity : HasSecurity image
  · have hroom := (h.security_lt hsecurity).2
    have hin : securityOffset image + 8 ≤ (image.take (bodyLength image)).length := by
      rw [body_length]
      omega
    rw [if_pos hsecurity, if_pos hsecurity, without_length, without_length hin, body_length]
    · omega
    · rw [without_length hin, body_length]
      omega
  · rw [if_neg hsecurity, if_neg hsecurity, without_length, body_length]
    · omega
    · rw [body_length]
      omega

/-- Every byte of the unsigned image is one that is kept. -/
theorem unsignedPosition_surj (h : WellFormed image) (hc : Contiguous image) {j : Nat}
    (hj : j < (unsigned image).length) :
    ∃ i < bodyLength image, Signed image i ∧ unsignedPosition image i = j := by
  have hlen := unsigned_length h hc
  have hpos := checkSum_le_security image
  unfold Signed unsignedPosition keptPosition
  by_cases hsecurity : HasSecurity image
  · simp only [hsecurity, if_true] at hlen ⊢
    by_cases hcheck : j < checkSumOffset image
    · refine ⟨j, by omega, ⟨by omega, fun _ => by omega⟩, ?_⟩
      rw [if_pos (show j < securityOffset image by omega), if_pos hcheck]
    · by_cases hentry : j + 4 < securityOffset image
      · refine ⟨j + 4, by omega, ⟨by omega, fun _ => by omega⟩, ?_⟩
        rw [if_pos hentry, if_neg (by omega), Nat.add_sub_cancel]
      · refine ⟨j + 12, by omega, ⟨by omega, fun _ => by omega⟩, ?_⟩
        rw [if_neg (show ¬j + 12 < securityOffset image by omega), if_neg (by omega)]
        omega
  · simp only [hsecurity, if_false] at hlen ⊢
    by_cases hcheck : j < checkSumOffset image
    · exact ⟨j, by omega, ⟨by omega, fun hs => hs.elim⟩, if_pos hcheck⟩
    · refine ⟨j + 4, by omega, ⟨by omega, fun hs => hs.elim⟩, ?_⟩
      rw [if_neg (by omega), Nat.add_sub_cancel]

end Positions

/-- Images that are the same up to their signature are hashed alike. -/
theorem SameUpToSignature.unsigned_eq {image image' : Bytes}
    (hs : SameUpToSignature image image') (h : WellFormed image) (h' : WellFormed image')
    (hc : Contiguous image) (hc' : Contiguous image') : unsigned image = unsigned image' := by
  have hlen := unsigned_length h hc
  have hlen' := unsigned_length h' hc'
  have hcheck : checkSumOffset image = checkSumOffset image' := by
    rw [checkSumOffset, checkSumOffset, hs.offset]
  have hposition (i : Nat) : unsignedPosition image i = unsignedPosition image' i := by
    simp only [unsignedPosition, hcheck, hs.entry, hs.security]
  have hsigned {i : Nat} (hi : Signed image i) : Signed image' i := by
    simpa only [Signed, hcheck, hs.entry, hs.security] using hi
  have heq : (unsigned image).length = (unsigned image').length := by
    simp only [hs.security, hs.length] at hlen
    omega
  refine List.ext_getElem? fun j => ?_
  by_cases hj : j < (unsigned image).length
  · obtain ⟨i, hi, hkept, rfl⟩ := unsignedPosition_surj h hc hj
    rw [unsigned_getElem? h hc hi hkept, hposition,
      unsigned_getElem? h' hc' (hs.length ▸ hi) (hsigned hkept)]
    exact hs.agree i hi hkept
  · rw [List.getElem?_eq_none (by omega), List.getElem?_eq_none (by omega)]

/-- A field of the header is one of the image. -/
theorem header_field (image : Bytes) {off width : Nat} (h : off + width ≤ sizeofHeaderUnion) :
    field (header image) off width = field image (headerOffset image + off) width :=
  field_slice image _ _ h

section Binding

variable {image image' : Bytes}

/-- The bytes in front of the checksum, and those between it and the directory entry. -/
theorem agree_of_unsigned_eq (h : WellFormed image) (h' : WellFormed image')
    (hc : Contiguous image) (hc' : Contiguous image') (heq : unsigned image = unsigned image')
    {i : Nat} (hi : i < bodyLength image) (hi' : i < bodyLength image') (hs : Signed image i)
    (hs' : Signed image' i) (hposition : unsignedPosition image i = unsignedPosition image' i) :
    image[i]? = image'[i]? := by
  rw [← unsigned_getElem? h hc hi hs, ← unsigned_getElem? h' hc' hi' hs', heq, hposition]

theorem signed_of_lt (image : Bytes) {i : Nat} (hi : i < checkSumOffset image) :
    Signed image i ∧ unsignedPosition image i = i := by
  have hpos := checkSum_le_security image
  refine ⟨⟨Or.inl hi, fun _ => Or.inl (by omega)⟩, ?_⟩
  have hlt : i < securityOffset image := by omega
  simp only [unsignedPosition, keptPosition, if_pos hlt, ite_self, if_pos hi]

theorem signed_between (image : Bytes) {i : Nat} (hi : checkSumOffset image + 4 ≤ i)
    (hlt : i < securityOffset image) :
    Signed image i ∧ unsignedPosition image i = i - 4 := by
  have hnot : ¬i < checkSumOffset image := by omega
  refine ⟨⟨Or.inr hi, fun _ => Or.inl hlt⟩, ?_⟩
  simp only [unsignedPosition, keptPosition, if_pos hlt, ite_self, if_neg hnot]

theorem WellFormed.checkSum_lt_body (h : WellFormed image) (hc : Contiguous image) :
    checkSumOffset image + 4 < bodyLength image := h.checkSum_lt.trans_le hc.headers_le

/-- The directory entry would stand in the headers, so the field in front of it does. -/
theorem WellFormed.number_lt (h : WellFormed image) (hc : Contiguous image) :
    headerOffset image + (24 + Nt.headerWithoutDataDir (header image)) ≤ bodyLength image := by
  have htable := h.table_lt
  have hopt := h.optionalHeader
  have hle := hc.headers_le
  simp only [tableOffset] at htable
  omega

/-- The unsigned image tells where the header is, which format it has and whether there
is a directory entry for certificates. -/
theorem layout_of_unsigned_eq (h : WellFormed image) (h' : WellFormed image')
    (hc : Contiguous image) (hc' : Contiguous image') (heq : unsigned image = unsigned image') :
    headerOffset image = headerOffset image' ∧ securityOffset image = securityOffset image' ∧
      (HasSecurity image ↔ HasSecurity image') := by
  have hbody := h.checkSum_lt_body hc
  have hbody' := h'.checkSum_lt_body hc'
  have hfront {i : Nat} (hi : i < checkSumOffset image) (hi' : i < checkSumOffset image') :
      image[i]? = image'[i]? := by
    obtain ⟨hs, hpos⟩ := signed_of_lt image hi
    obtain ⟨hs', hpos'⟩ := signed_of_lt image' hi'
    exact agree_of_unsigned_eq h h' hc hc' heq (by omega) (by omega) hs hs' (hpos.trans hpos'.symm)
  have hdos : slice image 0 sizeofDosHeader = slice image' 0 sizeofDosHeader := by
    refine slice_congr fun i _ hi => hfront ?_ ?_ <;>
    · simp only [sizeofDosHeader, checkSumOffset, Nt.checkSumOffset] at hi ⊢
      omega
  have hoffset : headerOffset image = headerOffset image' := by
    rw [headerOffset, headerOffset, hdos]
  have hcheck : checkSumOffset image = checkSumOffset image' := by
    rw [checkSumOffset, checkSumOffset, hoffset]
  have hmagic : Nt.magic (header image) = Nt.magic (header image') := by
    rw [Nt.magic, Nt.magic, header_field _ (by decide), header_field _ (by decide), hoffset]
    refine field_congr fun i _ hi => hfront ?_ ?_ <;>
    · simp only [checkSumOffset, Nt.checkSumOffset]
      omega
  have hdir : Nt.headerWithoutDataDir (header image) = Nt.headerWithoutDataDir (header image') := by
    rw [Nt.headerWithoutDataDir, Nt.headerWithoutDataDir, hmagic]
  have hentry : securityOffset image = securityOffset image' := by
    rw [securityOffset, securityOffset, Nt.dataDirectoryOffset, Nt.dataDirectoryOffset, hdir,
      hoffset]
  have hnumber :
      Nt.numberOfRvaAndSizes (header image) = Nt.numberOfRvaAndSizes (header image') := by
    have hlarge : 96 ≤ Nt.headerWithoutDataDir (header image') := by
      unfold Nt.headerWithoutDataDir
      split <;> decide
    have hsmall : Nt.headerWithoutDataDir (header image') ≤ 112 := by
      unfold Nt.headerWithoutDataDir
      split <;> decide
    have hin := h.number_lt hc
    have hin' := h'.number_lt hc'
    rw [Nt.numberOfRvaAndSizes, Nt.numberOfRvaAndSizes, hdir,
      header_field _ (by simp only [sizeofHeaderUnion]; omega),
      header_field _ (by simp only [sizeofHeaderUnion]; omega), hoffset]
    refine field_congr fun i hle hi => ?_
    have hbetween : checkSumOffset image' + 4 ≤ i ∧ i < securityOffset image' := by
      simp only [checkSumOffset, Nt.checkSumOffset, securityOffset, Nt.dataDirectoryOffset,
        directoryEntrySecurity]
      omega
    obtain ⟨hs, hpos⟩ := signed_between image (hcheck ▸ hbetween.1) (hentry ▸ hbetween.2)
    obtain ⟨hs', hpos'⟩ := signed_between image' hbetween.1 hbetween.2
    exact agree_of_unsigned_eq h h' hc hc' heq (by omega) (by omega) hs hs' (hpos.trans hpos'.symm)
  exact ⟨hoffset, hentry, by rw [HasSecurity, HasSecurity, hnumber]⟩

/-- Without what a signature changes, an image says everything else. -/
theorem unsigned_eq_iff (h : WellFormed image) (h' : WellFormed image') (hc : Contiguous image)
    (hc' : Contiguous image') :
    unsigned image = unsigned image' ↔ SameUpToSignature image image' := by
  refine ⟨fun heq => ?_, fun hs => hs.unsigned_eq h h' hc hc'⟩
  obtain ⟨hoffset, hentry, hsecurity⟩ := layout_of_unsigned_eq h h' hc hc' heq
  have hcheck : checkSumOffset image = checkSumOffset image' := by
    rw [checkSumOffset, checkSumOffset, hoffset]
  have hlength : bodyLength image = bodyLength image' := by
    rw [← unsigned_length h hc, ← unsigned_length h' hc', heq]
    simp only [hsecurity]
  refine ⟨hoffset, hsecurity, hentry, hlength, fun i hi hs => ?_⟩
  have hs' : Signed image' i := by simpa only [Signed, hcheck, hentry, hsecurity] using hs
  refine agree_of_unsigned_eq h h' hc hc' heq hi (hlength ▸ hi) hs hs' ?_
  simp only [unsignedPosition, hcheck, hentry, hsecurity]

end Binding

/-! ## Signing -/

/-- An image with a checksum and with certificates behind it. -/
def attachCertificates (image : Bytes) (checkSum : Nat) (certs : Bytes) : Bytes :=
  overwrite (overwrite image (checkSumOffset image) (toLE 4 checkSum)) (securityOffset image)
    (toLE 4 image.length ++ toLE 4 certs.length) ++ certs

/-- `image'` has the bytes of `image` where a signature does not change them. -/
structure Keeps (image image' : Bytes) : Prop where
  length : image.length ≤ image'.length
  agree : ∀ i < image.length, Signed image i → image'[i]? = image[i]?

section Signing

variable {image image' : Bytes}

theorem Keeps.headerOffset_eq (hk : Keeps image image') (h : WellFormed image) :
    headerOffset image' = headerOffset image := by
  have hlt := h.checkSum_lt
  have hin := h.headers_in
  have hdos : slice image' 0 sizeofDosHeader = slice image 0 sizeofDosHeader := by
    refine slice_congr fun i _ hi => ?_
    have hi' : i < checkSumOffset image := by
      simp only [sizeofDosHeader, checkSumOffset, Nt.checkSumOffset] at hi ⊢
      omega
    exact hk.agree i (by omega) (signed_of_lt image hi').1
  rw [headerOffset, headerOffset, hdos]

/-- A field of the header that is not changed. -/
theorem Keeps.field_eq (hk : Keeps image image') (h : WellFormed image) {off width : Nat}
    (hin : off + width ≤ sizeofHeaderUnion)
    (hsigned : ∀ i, off ≤ i → i < off + width → Signed image (headerOffset image + i)) :
    field (header image') off width = field (header image) off width := by
  have hheader := h.header_in
  rw [header_field _ hin, header_field _ hin, hk.headerOffset_eq h]
  refine field_congr fun i hle hi => hk.agree i (by omega) ?_
  have := hsigned (i - headerOffset image) (by omega) (by omega)
  rwa [Nat.add_sub_cancel' (by omega)] at this

theorem signed_low (image : Bytes) {i : Nat} (hi : i < 88) :
    Signed image (headerOffset image + i) :=
  (signed_of_lt image (by simp only [checkSumOffset, Nt.checkSumOffset]; omega)).1

/-- Behind the checksum, the fields of the format that do not belong to the certificates
are not changed. -/
theorem signed_high (image : Bytes) {i : Nat} (hi : 92 ≤ i)
    (hentry : i < Nt.dataDirectoryOffset (header image) directoryEntrySecurity ∨
      Nt.dataDirectoryOffset (header image) directoryEntrySecurity + 8 ≤ i) :
    Signed image (headerOffset image + i) := by
  refine ⟨Or.inr ?_, fun _ => ?_⟩
  · simp only [checkSumOffset, Nt.checkSumOffset]
    omega
  · simp only [securityOffset]
    omega

theorem headerWithoutDataDir_bounds (hdr : Bytes) :
    96 ≤ Nt.headerWithoutDataDir hdr ∧ Nt.headerWithoutDataDir hdr ≤ 112 := by
  unfold Nt.headerWithoutDataDir
  split <;> decide

/-- What the headers say but for the certificates. -/
structure SameHeaders (hdr hdr' : Bytes) : Prop where
  signature : Nt.signature hdr' = Nt.signature hdr
  machine : Nt.machine hdr' = Nt.machine hdr
  numberOfSections : Nt.numberOfSections hdr' = Nt.numberOfSections hdr
  sizeOfOptionalHeader : Nt.sizeOfOptionalHeader hdr' = Nt.sizeOfOptionalHeader hdr
  magic : Nt.magic hdr' = Nt.magic hdr
  sizeOfImage : Nt.sizeOfImage hdr' = Nt.sizeOfImage hdr
  sizeOfHeaders : Nt.sizeOfHeaders hdr' = Nt.sizeOfHeaders hdr
  dataDirs : Nt.headerWithoutDataDir hdr' = Nt.headerWithoutDataDir hdr
  numberOfRvaAndSizes : Nt.numberOfRvaAndSizes hdr' = Nt.numberOfRvaAndSizes hdr
  debug : Nt.dataDirectory hdr' directoryEntryDebug = Nt.dataDirectory hdr directoryEntryDebug

theorem Keeps.sameHeaders (hk : Keeps image image') (h : WellFormed image) :
    SameHeaders (header image) (header image') := by
  obtain ⟨hlow, hhigh⟩ := headerWithoutDataDir_bounds (header image)
  have hfront (off width : Nat) (hin : off + width ≤ 88) :
      field (header image') off width = field (header image) off width :=
    hk.field_eq h (hin.trans (by decide)) fun i _ hi => signed_low image (by omega)
  have hmagic : Nt.magic (header image') = Nt.magic (header image) := hfront 24 2 (by decide)
  have hdir : Nt.headerWithoutDataDir (header image') = Nt.headerWithoutDataDir (header image) := by
    rw [Nt.headerWithoutDataDir, Nt.headerWithoutDataDir, hmagic]
  have hback (off width : Nat) (hin : off + width ≤ 264) (hoff : 92 ≤ off)
      (hentry : off + width ≤ Nt.dataDirectoryOffset (header image) directoryEntrySecurity ∨
        Nt.dataDirectoryOffset (header image) directoryEntrySecurity + 8 ≤ off) :
      field (header image') off width = field (header image) off width :=
    hk.field_eq h hin fun i _ _ => signed_high image (by omega) (by omega)
  simp only [Nt.dataDirectoryOffset, directoryEntrySecurity] at hback
  exact {
    signature := hfront 0 4 (by decide)
    machine := hfront 4 2 (by decide)
    numberOfSections := hfront 6 2 (by decide)
    sizeOfOptionalHeader := hfront 20 2 (by decide)
    magic := hmagic
    sizeOfImage := hfront 80 4 (by decide)
    sizeOfHeaders := hfront 84 4 (by decide)
    dataDirs := hdir
    numberOfRvaAndSizes := by
      rw [Nt.numberOfRvaAndSizes, Nt.numberOfRvaAndSizes, hdir]
      exact hback _ _ (by omega) (by omega) (by omega)
    debug := by
      simp only [Nt.dataDirectory, dataDirectoryAt, Nt.dataDirectoryOffset, hdir,
        directoryEntryDebug]
      rw [hback _ _ (by omega) (by omega) (by omega), hback _ _ (by omega) (by omega) (by omega)] }

theorem sectionTable_congr {count off : Nat}
    (h : ∀ i, off ≤ i → i < off + sizeofSectionHeader * count → image'[i]? = image[i]?) :
    sectionTable image' count off = sectionTable image count off := by
  induction count generalizing off with
  | zero => rfl
  | succ count ih =>
      simp only [sizeofSectionHeader] at h ih
      have hfirst : slice image' off 40 = slice image off 40 :=
        slice_congr fun i hle hi => h i hle (by omega)
      rw [sectionTable, sectionTable, sizeofSectionHeader, hfirst,
        ih fun i hle hi => h i (by omega) (by omega)]

/-- Everything from the section headers on is kept. -/
theorem Keeps.agree_behind (hk : Keeps image image') (h : WellFormed image) {i : Nat}
    (hi : i < image.length) (hle : tableOffset (header image) (headerOffset image) ≤ i) :
    image'[i]? = image[i]? := by
  refine hk.agree i hi ⟨Or.inr ?_, fun hsecurity => Or.inr ?_⟩
  · have hopt := h.optionalHeader
    obtain ⟨hlow, -⟩ := headerWithoutDataDir_bounds (header image)
    simp only [tableOffset, checkSumOffset, Nt.checkSumOffset] at hle ⊢
    omega
  · exact (h.security_lt hsecurity).1.trans hle

theorem Keeps.sections_eq (hk : Keeps image image') (h : WellFormed image) :
    sections image' = sections image := by
  have hsame := hk.sameHeaders h
  have htable := h.table_in_headers
  have hin := h.headers_in
  have hoffset : tableOffset (header image') (headerOffset image') =
      tableOffset (header image) (headerOffset image) := by
    rw [tableOffset, tableOffset, hk.headerOffset_eq h, hsame.sizeOfOptionalHeader]
  rw [sections, sections, hoffset, hsame.numberOfSections]
  exact sectionTable_congr fun i hle hi => hk.agree_behind h (by omega) hle

theorem Keeps.debugOffset_eq (hk : Keeps image image') (h : WellFormed image) :
    debugOffset image' = debugOffset image := by
  rw [debugOffset, debugOffset, hk.sections_eq h, (hk.sameHeaders h).debug]

/-- Debug entries behind the headers stay as they are. -/
theorem Keeps.debugEntriesFit (hk : Keeps image image') (h : WellFormed image) {rounds : Nat}
    (hbehind : Nt.sizeOfHeaders (header image) ≤ debugOffset image)
    (hfit : DebugEntriesFit image (debugOffset image) rounds) :
    DebugEntriesFit image' (debugOffset image) rounds := by
  have hlt := h.table_lt
  have hlen := hk.length
  intro j hj hbefore
  have hin : debugOffset image + sizeofDebugEntry * (j + 1) ≤ image.length := by
    induction j using Nat.strong_induction_on with
    | h j ih =>
        refine hfit j hj fun i hi => ?_
        have hentry := ih i hi (by omega) fun k hk => hbefore k (by omega)
        rw [← field_congr fun k hle hk' => hk.agree_behind h ?_ ?_]
        · exact hbefore i hi
        · simp only [sizeofDebugEntry] at hentry hk'
          omega
        · omega
  omega

/-- An image stays well-formed when it is signed, if its debug directory is not in the
headers. -/
theorem Keeps.wellFormed (hk : Keeps image image') (h : WellFormed image)
    (hsecurity : HasSecurity image →
      (Nt.dataDirectory (header image') directoryEntrySecurity).Fits image')
    (hdebug : debugOffset image ≠ 0 → Nt.sizeOfHeaders (header image) ≤ debugOffset image) :
    WellFormed image' := by
  have hsame := hk.sameHeaders h
  have hoffset := hk.headerOffset_eq h
  have hlen := hk.length
  have htable : tableOffset (header image') (headerOffset image') =
      tableOffset (header image) (headerOffset image) := by
    rw [tableOffset, tableOffset, hoffset, hsame.sizeOfOptionalHeader]
  exact {
    magic := by rw [hsame.magic]; exact h.magic
    directories := by rw [hsame.numberOfRvaAndSizes]; exact h.directories
    optionalHeader := by
      rw [hsame.sizeOfOptionalHeader, hsame.dataDirs, hsame.numberOfRvaAndSizes]
      exact h.optionalHeader
    table_in_memory := by
      rw [htable, hsame.numberOfSections, hsame.sizeOfImage]
      exact h.table_in_memory
    table_lt := by rw [htable, hsame.sizeOfHeaders]; exact h.table_lt
    table_in_headers := by
      rw [htable, hsame.numberOfSections, hsame.sizeOfHeaders]
      exact h.table_in_headers
    headers_in_memory := by
      rw [hsame.sizeOfHeaders, hsame.sizeOfImage]
      exact h.headers_in_memory
    headers_in := by rw [hsame.sizeOfHeaders]; exact h.headers_in.trans hlen
    security_fits := fun hnum => hsecurity (by
      rw [hsame.numberOfRvaAndSizes] at hnum
      exact hnum)
    dosHeader_in := h.dosHeader_in.trans hlen
    header_in := by rw [hoffset]; exact h.header_in.trans hlen
    signature := by rw [hsame.signature]; exact h.signature
    machine := by rw [hsame.machine]; exact h.machine
    sections_fit := by
      rw [hk.sections_eq h, hsame.sizeOfHeaders]
      intro s hs hpos
      obtain ⟨haddress, hpointer, hmax, hin⟩ := h.sections_fit s hs hpos
      exact ⟨haddress, hpointer, hmax, hin.trans hlen⟩
    debug_fits := by
      rw [hsame.numberOfRvaAndSizes, hsame.debug, hk.debugOffset_eq h]
      exact fun hnum hne => hk.debugEntriesFit h (hdebug hne) (h.debug_fits hnum hne) }

/-- Only the checksum, the directory entry and the end of the image are written. -/
theorem attachCertificates_keeps (h : WellFormed image) (hsecurity : HasSecurity image)
    (checkSum : Nat) (certs : Bytes) : Keeps image (attachCertificates image checkSum certs) := by
  have hcheck := h.checkSum_lt
  have hentry := (h.security_lt hsecurity).2
  have hin := h.headers_in
  have hfirst : (overwrite image (checkSumOffset image) (toLE 4 checkSum)).length =
      image.length := overwrite_length (by rw [toLE_length]; omega)
  have hdata : (toLE 4 image.length ++ toLE 4 certs.length).length = 8 := by simp
  have hsecond : (overwrite (overwrite image (checkSumOffset image) (toLE 4 checkSum))
      (securityOffset image) (toLE 4 image.length ++ toLE 4 certs.length)).length =
        image.length := by
    rw [overwrite_length (by rw [hfirst, hdata]; omega), hfirst]
  refine ⟨?_, fun i hi hs => ?_⟩
  · rw [attachCertificates, List.length_append, hsecond]
    omega
  · have hout := hs.2 hsecurity
    rw [attachCertificates, List.getElem?_append_left (by omega),
      getElem?_overwrite (by rw [hfirst, hdata]; omega) (by rw [hdata]; exact hout),
      getElem?_overwrite (by rw [toLE_length]; omega) (by rw [toLE_length]; exact hs.1)]

theorem attachCertificates_length (h : WellFormed image) (hsecurity : HasSecurity image)
    (checkSum : Nat) (certs : Bytes) :
    (attachCertificates image checkSum certs).length = image.length + certs.length := by
  have hcheck := h.checkSum_lt
  have hentry := (h.security_lt hsecurity).2
  have hin := h.headers_in
  have hfirst : (overwrite image (checkSumOffset image) (toLE 4 checkSum)).length =
      image.length := overwrite_length (by rw [toLE_length]; omega)
  rw [attachCertificates, List.length_append, overwrite_length, hfirst]
  simp only [List.length_append, toLE_length, hfirst]
  omega

/-- The directory entry is that of the certificates. -/
theorem attachCertificates_entry (h : WellFormed image) (hsecurity : HasSecurity image)
    (checkSum : Nat) {certs : Bytes} (hsize : image.length + certs.length < 2 ^ 32) :
    Nt.dataDirectory (header (attachCertificates image checkSum certs)) directoryEntrySecurity =
      ⟨image.length, certs.length⟩ := by
  have hk := attachCertificates_keeps h hsecurity checkSum certs
  have hsame := hk.sameHeaders h
  obtain ⟨-, hhigh⟩ := headerWithoutDataDir_bounds (header image)
  have hcheck := h.checkSum_lt
  have hentry := (h.security_lt hsecurity).2
  have hin := h.headers_in
  have hfirst : (overwrite image (checkSumOffset image) (toLE 4 checkSum)).length =
      image.length := overwrite_length (by rw [toLE_length]; omega)
  have hread (k : Nat) (hk' : k + 4 ≤ 8) :
      field (header (attachCertificates image checkSum certs))
          (Nt.dataDirectoryOffset (header image) directoryEntrySecurity + k) 4 =
        ofLE (slice (toLE 4 image.length ++ toLE 4 certs.length) k 4) := by
    have hbound : Nt.dataDirectoryOffset (header image) directoryEntrySecurity + k + 4 ≤
        sizeofHeaderUnion := by
      simp only [Nt.dataDirectoryOffset, directoryEntrySecurity, sizeofHeaderUnion]
      omega
    rw [header_field _ hbound, hk.headerOffset_eq h, ← Nat.add_assoc, ← securityOffset, field,
      attachCertificates, slice_append_left, slice_overwrite]
    · rw [hfirst]
      omega
    · simpa using hk'
    · rw [overwrite_length (by simp only [List.length_append, toLE_length, hfirst]; omega), hfirst]
      omega
  have haddress : slice (toLE 4 image.length ++ toLE 4 certs.length) 0 4 = toLE 4 image.length :=
    slice_middle List.length_nil.symm (toLE_length ..).symm
  have hcerts : slice (toLE 4 image.length ++ toLE 4 certs.length) 4 4 = toLE 4 certs.length := by
    rw [← List.append_nil (toLE 4 image.length ++ toLE 4 certs.length)]
    exact slice_middle (toLE_length ..).symm (toLE_length ..).symm
  have hfield := hread 0 (by decide)
  rw [Nat.add_zero, haddress, ofLE_toLE_of_lt (by omega)] at hfield
  have hfield' := hread 4 (by decide)
  rw [hcerts, ofLE_toLE_of_lt (by omega)] at hfield'
  rw [Nt.dataDirectory, dataDirectoryAt, Nt.dataDirectoryOffset, hsame.dataDirs,
    ← Nt.dataDirectoryOffset, hfield, hfield']

/-- Signing an image without certificates: it stays well-formed and without gaps, and
only the signature is new. -/
theorem attachCertificates_same (h : WellFormed image) (hc : Contiguous image)
    (hsecurity : HasSecurity image) (hunsigned : certSize (header image) = 0)
    (hdebug : debugOffset image ≠ 0 → Nt.sizeOfHeaders (header image) ≤ debugOffset image)
    (checkSum : Nat) {certs : Bytes} (hsize : image.length + certs.length < 2 ^ 32) :
    WellFormed (attachCertificates image checkSum certs) ∧
      Contiguous (attachCertificates image checkSum certs) ∧
      SameUpToSignature image (attachCertificates image checkSum certs) := by
  have hk := attachCertificates_keeps h hsecurity checkSum certs
  have hsame := hk.sameHeaders h
  have hlength := attachCertificates_length h hsecurity checkSum certs
  have hentry := attachCertificates_entry h hsecurity checkSum hsize
  have hsections := hk.sections_eq h
  generalize attachCertificates image checkSum certs = image' at hk hsame hlength hentry hsections ⊢
  have hsecurity' : HasSecurity image' := by
    rw [HasSecurity, hsame.numberOfRvaAndSizes]
    exact hsecurity
  have hcert : certSize (header image') = certs.length := by
    rw [certSize, if_neg (not_le.mpr hsecurity'), hentry]
  have hbody : bodyLength image = bodyLength image' := by
    rw [bodyLength, bodyLength, hunsigned, hcert, hlength]
    omega
  have hfits : (Nt.dataDirectory (header image') directoryEntrySecurity).Fits image' := by
    intro _
    rw [hentry, hlength]
    simp only [maxUint32]
    omega
  refine ⟨hk.wellFormed h (fun _ => hfits) hdebug, ⟨?_, ?_⟩, ?_⟩
  · rw [fileOrder, hsections, hsame.sizeOfHeaders]
    exact hc.tiles
  · have hroom := hc.room
    have hhashed : hashedSize image' = hashedSize image := by
      rw [hashedSize, hashedSize, hsections, hsame.sizeOfHeaders]
    omega
  · exact {
      offset := (hk.headerOffset_eq h).symm
      security := ⟨fun _ => hsecurity', fun _ => hsecurity⟩
      entry := by
        rw [securityOffset, securityOffset, hk.headerOffset_eq h, Nt.dataDirectoryOffset,
          Nt.dataDirectoryOffset, hsame.dataDirs]
      length := hbody
      agree := fun i hi hs => (hk.agree i (hi.trans_le (bodyLength_le image)) hs).symm }

end Signing

/-! ## Digests -/

section Digests

variable {n : Nat} {image image' : Bytes}

theorem Contiguous.certificatesFit (hc : Contiguous image) : CertificatesFit image := Or.inr hc.room

/-- Signing an image does not change what `MeasurePeImage` does. -/
theorem measurePeImage_attachCertificates (md : Md n) (env : MeasureEnv) (h : WellFormed image)
    (hc : Contiguous image) (hsecurity : HasSecurity image)
    (hunsigned : certSize (header image) = 0)
    (hdebug : debugOffset image ≠ 0 → Nt.sizeOfHeaders (header image) ≤ debugOffset image)
    (checkSum : Nat) (certs : Bytes) (hsize : image.length + certs.length < 2 ^ 32) :
    measurePeImage md env (attachCertificates image checkSum certs) =
      measurePeImage md env image := by
  obtain ⟨h', hc', hsame⟩ :=
    attachCertificates_same h hc hsecurity hunsigned hdebug checkSum hsize
  have hlength := attachCertificates_length h hsecurity checkSum certs
  have hdata : authenticode (attachCertificates image checkSum certs) = authenticode image := by
    rw [hc'.authenticode_eq h', hc.authenticode_eq h, hsame.unsigned_eq h h' hc hc']
  rw [measurePeImage_of_wellFormed md env (Or.inl (by omega)) h,
    measurePeImage_of_wellFormed md env (Or.inl (by omega)) h', hdata]
  simp only [if_pos hc.certificatesFit, if_pos hc'.certificatesFit]

theorem smallImage_contiguous : Contiguous smallImage := ⟨by decide +kernel, by decide +kernel⟩

theorem smallImage_debugOffset : debugOffset smallImage = 0 := by decide +kernel

theorem smallImage_length : smallImage.length = 264 := by decide +kernel

theorem smallImage_security : HasSecurity smallImage ∧ certSize (header smallImage) = 0 := by
  decide +kernel

theorem measurePeImage_attachCertificates_smallImage :
    measurePeImage Sha256.sha256 ⟨true, true, true, false⟩
        (attachCertificates smallImage 0xc0de (zeros 8)) =
      measurePeImage Sha256.sha256 ⟨true, true, true, false⟩ smallImage :=
  measurePeImage_attachCertificates _ _ smallImage_wellFormed smallImage_contiguous
    smallImage_security.1 smallImage_security.2 (fun h => absurd smallImage_debugOffset h) _ _
    (by rw [smallImage_length]; decide)

/-- The small image, signed. -/
def signedImage : Bytes := attachCertificates smallImage 0xc0de (zeros 8)

theorem signedImage_same :
    WellFormed signedImage ∧ Contiguous signedImage ∧ SameUpToSignature smallImage signedImage :=
  attachCertificates_same smallImage_wellFormed smallImage_contiguous smallImage_security.1
    smallImage_security.2 (fun h => absurd smallImage_debugOffset h) _
    (by rw [smallImage_length]; decide)

theorem signedImage_noWrap : NoWrap signedImage := by
  refine Or.inl ?_
  rw [signedImage, attachCertificates_length smallImage_wellFormed smallImage_security.1,
    smallImage_length]
  decide

/-- Images without gaps that are measured to one digest are the same but for their
signatures, or the hash collides; and a signature makes no difference. -/
theorem measurePeImage_binds (md : Md n) (env env' : MeasureEnv) (hwrap : NoWrap image)
    (hwrap' : NoWrap image') (hc : Contiguous image) (hc' : Contiguous image')
    {status status' : UInt64} {hash hash' : Digest n}
    (hrun : measurePeImage md env image = .ok (status, some hash))
    (hrun' : measurePeImage md env' image' = .ok (status', some hash')) :
    (SameUpToSignature image image' → hash = hash') ∧
      (hash = hash' → SameUpToSignature image image' ∨
        HashChain.Collides md [authenticode image] [authenticode image']) := by
  obtain ⟨-, h, -, -, rfl⟩ := (measurePeImage_digest_iff md env hwrap _ _).mp hrun
  obtain ⟨-, h', -, -, rfl⟩ := (measurePeImage_digest_iff md env' hwrap' _ _).mp hrun'
  have hdata := hc.authenticode_eq h
  have hdata' := hc'.authenticode_eq h'
  constructor
  · intro hs
    rw [hdata, hdata', hs.unsigned_eq h h' hc hc']
  · intro heq
    by_cases hsame : authenticode image = authenticode image'
    · rw [hdata, hdata'] at hsame
      exact Or.inl ((unsigned_eq_iff h h' hc hc').mp hsame)
    · exact Or.inr ⟨_, List.mem_singleton_self _, _, List.mem_singleton_self _, hsame, heq⟩

theorem measurePeImage_gapless {md : Md n} {env : MeasureEnv} (hwrap : NoWrap image)
    (henv : env.ctxAllocated ∧ env.digestInit ∧ env.tableAllocated) (h : WellFormed image)
    (hc : Contiguous image) :
    measurePeImage md env image = .ok (digestUpdated, some (md (authenticode image))) :=
  (measurePeImage_digest_iff md env hwrap _ _).mpr ⟨henv, h, hc.certificatesFit, rfl, rfl⟩

theorem measurePeImage_binds_smallImage :
    Sha256.sha256 (authenticode smallImage) = Sha256.sha256 (authenticode signedImage) :=
  (measurePeImage_binds Sha256.sha256 ⟨true, true, true, false⟩ ⟨true, true, true, false⟩
    smallImage_noWrap signedImage_noWrap smallImage_contiguous signedImage_same.2.1
    (measurePeImage_gapless smallImage_noWrap ⟨rfl, rfl, rfl⟩ smallImage_wellFormed
      smallImage_contiguous)
    (measurePeImage_gapless signedImage_noWrap ⟨rfl, rfl, rfl⟩ signedImage_same.1
      signedImage_same.2.1)).1 signedImage_same.2.2

end Digests

end MeasuredBoot.PeCoff
