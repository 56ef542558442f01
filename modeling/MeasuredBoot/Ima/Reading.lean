import MeasuredBoot.Ima.Records

/-! # What the parser reads

The reads of one record, on the bytes in front of the parser: what it gets where the log
ends before, which template data it then has, and how it walks the fields.
-/

namespace MeasuredBoot.Ima

open Binary Imperative Imperative.Proc

/-! ## Reads of the template data -/

/-- The bytes lie in the template data; the offset is an `int`. -/
def RangeInside (data : Bytes) (offset : UInt32) (count : Nat) : Prop :=
  count = 0 ∨ offset.toNat < 2 ^ 31 ∧ offset.toNat + count ≤ data.length

/-- A string ends in the template data. -/
def StringInside (data : Bytes) (offset : UInt32) : Prop :=
  offset.toNat < 2 ^ 31 ∧ (0 : UInt8) ∈ data.drop offset.toNat

/-- The length of the string at an offset, as the `uint32_t` it is kept in. -/
def stringLen (data : Bytes) (offset : UInt32) : UInt32 :=
  UInt32.ofNat (cString (data.drop offset.toNat)).length

section Reads

variable {data : Bytes} {offset : UInt32}

theorem readAt_eq {count : Nat} (h : RangeInside data offset count) :
    readAt data offset count = .ok (slice data offset.toNat count) := by
  unfold readAt
  split_ifs with hzero hoffset
  · rw [hzero, slice, List.take_zero]
  · exact copyFrom_ok (h.resolve_left hzero).2
  · exact absurd (h.resolve_left hzero).1 hoffset

theorem rangeInside_of_readAt {count : Nat} {raw : Bytes}
    (h : readAt data offset count = .ok raw) : RangeInside data offset count := by
  unfold readAt copyFrom at h
  split_ifs at h with hzero hoffset hfits
  · exact Or.inl hzero
  · exact Or.inr ⟨hoffset, hfits⟩

theorem mem_zero_iff (object : Bytes) :
    (0 : UInt8) ∈ object ↔ (cString object).length < object.length := by
  induction object with
  | nil => simp
  | cons c object ih =>
      by_cases hc : c = 0
      · simp [cString, hc]
      · have hskip : cString (c :: object) = c :: cString object := by simp [cString, hc]
        rw [hskip, List.mem_cons, or_iff_right (Ne.symm hc), ih]
        simp

theorem stringInside_iff : StringInside data offset ↔ offset.toNat < 2 ^ 31 ∧
    offset.toNat + (cString (data.drop offset.toNat)).length < data.length := by
  unfold StringInside
  rw [mem_zero_iff, List.length_drop]
  omega

theorem strlenAt_eq (h : StringInside data offset) :
    strlenAt data offset = .ok (stringLen data offset) := by
  rw [stringInside_iff] at h
  unfold strlenAt
  rw [if_pos h.1, if_pos h.2, stringLen]

theorem stringInside_of_strlenAt {len : UInt32} (h : strlenAt data offset = .ok len) :
    StringInside data offset := by
  rw [stringInside_iff]
  unfold strlenAt at h
  dsimp only at h
  split_ifs at h with hoffset hends
  exact ⟨hoffset, hends⟩

/-- The characters of a string that ends inside are inside. -/
theorem StringInside.range (h : StringInside data offset) :
    RangeInside data offset (stringLen data offset).toNat := by
  rw [stringInside_iff] at h
  right
  have hle : (stringLen data offset).toNat ≤ (cString (data.drop offset.toNat)).length := by
    rw [stringLen, UInt32.toNat_ofNat']
    exact Nat.mod_le _ _
  exact ⟨h.1, by omega⟩

end Reads

/-! ## Fields -/

/-- What the branches of `get_template_data` do with a field. -/
inductive FieldKind where
  | digest
  | signature
  | modsig
  | name
  | skip
  deriving DecidableEq

/-- The branch for a field; the tests for the template compare prefixes. -/
def fieldKind (name f : Bytes) : FieldKind :=
  if startsWith name (ascii "ima-sig") then
    if startsWith f (ascii "d-ng") then .digest
    else if startsWith f (ascii "sig") then .signature
    else if startsWith f (ascii "n-ng") then .name
    else .skip
  else if startsWith name (ascii "ima-modsig") then
    if startsWith f (ascii "d-ng") then .skip
    else if startsWith f (ascii "d-modsig") then .digest
    else if f = ascii "modsig" then .modsig
    else if startsWith f (ascii "n-ng") then .name
    else .skip
  else if startsWith name (ascii "ima-ng") then
    if startsWith f (ascii "d-ng") then .digest
    else if startsWith f (ascii "n-ng") then .name
    else .skip
  else .skip

theorem fieldStep_eq (modsig : Bytes → Bool) (name data f : Bytes) (offset fieldLen : UInt32)
    (digest : Option DigestField) :
    fieldStep modsig name data f offset fieldLen digest =
      match fieldKind name f with
      | .digest => do
          let d ← digestField data offset fieldLen
          return .next (offset + fieldLen) (some d)
      | .signature => signatureStep data offset fieldLen digest
      | .modsig => do
          let raw ← modsigBytes data offset fieldLen
          return if modsig raw then .next (offset + fieldLen) digest else .next offset digest
      | .name => do
          let text ← getModuleName data offset fieldLen
          return .name text
      | .skip => .ok (.next (offset + fieldLen) digest) := by
  unfold fieldStep fieldKind
  dsimp only
  split_ifs <;> rfl

/-- The length word of a field lies in the template data. In the original template the
digest has a fixed length and the name ends by itself. -/
def LengthInside (name data f : Bytes) (offset : UInt32) : Prop :=
  if name = ascii "ima" ∧ f = ascii "d" then True
  else if name = ascii "ima" ∧ f = ascii "n" then StringInside data offset
  else RangeInside data offset 4

/-- The length of a field. -/
def lenOf (name data f : Bytes) (offset : UInt32) : UInt32 :=
  if name = ascii "ima" ∧ f = ascii "d" then 20
  else if name = ascii "ima" ∧ f = ascii "n" then stringLen data offset
  else UInt32.ofNat (ofLE (slice data offset.toNat 4))

/-- Where the bytes of a field start. -/
def startOf (name f : Bytes) (offset : UInt32) : UInt32 :=
  if name = ascii "ima" ∧ f = ascii "d" then offset
  else if name = ascii "ima" ∧ f = ascii "n" then offset
  else offset + 4

/-- What is printed of a signature: the length of its header is taken off a `size_t`. -/
def signatureSize (len : UInt32) : Nat :=
  if 9 ≤ len.toNat then len.toNat - 9 else len.toNat + (2 ^ 64 - 9)

/-- A field that starts before the end, with the type of a signature. -/
def IsSignature (data : Bytes) (offset : UInt32) : Prop :=
  offset.toNat < data.length ∧ slice data offset.toNat 1 = [3]

instance (data : Bytes) (offset : UInt32) : Decidable (IsSignature data offset) :=
  inferInstanceAs (Decidable (_ ∧ _))

/-- The signature behind its header, if the field looks like one; before that the digest
is printed. -/
structure SignatureInside (data : Bytes) (offset len : UInt32) (digest : Option DigestField) :
    Prop where
  digest : ∀ d ∈ digest, RangeInside data d.offset d.len.toNat
  kind : offset.toNat < data.length → RangeInside data offset 1
  signature : IsSignature data offset → RangeInside data (offset + 9) (signatureSize len)

/-- What is parsed as a module signature. -/
def modsigOf (data : Bytes) (offset len : UInt32) : Bytes :=
  slice data offset.toNat
    (if len.toNat < 2 ^ 31 then len.toNat else (stringLen data offset).toNat)

/-- What the branch of a field reads lies in the template data. -/
def ContentInside (name data f : Bytes) (offset len : UInt32) (digest : Option DigestField) :
    Prop :=
  match fieldKind name f with
  | .digest => StringInside data offset
  | .signature => SignatureInside data offset len digest
  | .modsig => if len.toNat < 2 ^ 31 then RangeInside data offset len.toNat
      else StringInside data offset
  | .name => RangeInside data offset len.toNat
  | .skip => True

/-- Where the next field starts. The bytes of a signature or module signature that is not
recognised are not skipped. -/
def nextOffset (modsig : Bytes → Bool) (name data f : Bytes) (offset len : UInt32) : UInt32 :=
  match fieldKind name f with
  | .signature => if IsSignature data offset then offset + len else offset
  | .modsig => if modsig (modsigOf data offset len) then offset + len else offset
  | _ => offset + len

/-- The digest to be printed behind a field. -/
def digestBehind (name data f : Bytes) (offset len : UInt32) (digest : Option DigestField) :
    Option DigestField :=
  if fieldKind name f = .digest then
    some ⟨offset + (stringLen data offset + 1), len - (stringLen data offset + 1)⟩
  else digest

section Field

variable {modsig : Bytes → Bool} {name data f : Bytes} {offset len : UInt32}
  {digest : Option DigestField}

theorem fieldLength_eq (h : LengthInside name data f offset) :
    fieldLength name data f offset = .ok (lenOf name data f offset, startOf name f offset) := by
  unfold LengthInside at h
  unfold fieldLength lenOf startOf
  split_ifs at h ⊢
  · rfl
  · rw [strlenAt_eq h]
    rfl
  · rw [readAt_eq h]
    rfl

theorem lengthInside_of_fieldLength {r : UInt32 × UInt32}
    (h : fieldLength name data f offset = .ok r) : LengthInside name data f offset := by
  unfold fieldLength at h
  unfold LengthInside
  split_ifs at h ⊢
  · obtain ⟨n, hn, _⟩ := bind_eq_ok.mp h
    exact stringInside_of_strlenAt hn
  · obtain ⟨raw, hraw, _⟩ := bind_eq_ok.mp h
    exact rangeInside_of_readAt hraw

theorem printDigest_eq (h : ∀ d ∈ digest, RangeInside data d.offset d.len.toNat) :
    printDigest data digest = .ok () := by
  cases digest with
  | none => rfl
  | some d =>
      rw [printDigest, readAt_eq (h d rfl)]
      rfl

theorem inside_of_printDigest {u : Unit} (h : printDigest data digest = .ok u) :
    ∀ d ∈ digest, RangeInside data d.offset d.len.toNat := by
  intro d hd
  obtain rfl := Option.mem_def.mp hd
  obtain ⟨raw, hraw, _⟩ := bind_eq_ok.mp h
  exact rangeInside_of_readAt hraw

theorem signatureStep_eq (h : SignatureInside data offset len digest) :
    signatureStep data offset len digest =
      .ok (.next (if IsSignature data offset then offset + len else offset) digest) := by
  unfold signatureStep
  rw [printDigest_eq h.digest]
  simp only [bind, Except.bind, pure, Except.pure]
  by_cases hend : data.length ≤ offset.toNat
  · have hnot : ¬IsSignature data offset := fun hsig => absurd hsig.1 (Nat.not_lt.mpr hend)
    rw [if_pos hend, if_neg hnot]
  · have hlt : offset.toNat < data.length := Nat.lt_of_not_le hend
    rw [if_neg hend, readAt_eq (h.kind hlt)]
    dsimp only
    by_cases hthree : slice data offset.toNat 1 = [3]
    · have hsig : IsSignature data offset := ⟨hlt, hthree⟩
      have hread := readAt_eq (h.signature hsig)
      unfold signatureSize at hread
      rw [if_neg (not_not_intro hthree), if_pos hsig, hread]
    · have hnot : ¬IsSignature data offset := fun hsig => hthree hsig.2
      rw [if_pos hthree, if_neg hnot]

theorem signatureInside_of_step {step : FieldStep}
    (h : signatureStep data offset len digest = .ok step) :
    SignatureInside data offset len digest := by
  unfold signatureStep at h
  obtain ⟨u, hprint, h⟩ := bind_eq_ok.mp h
  have hdigest := inside_of_printDigest hprint
  split at h
  · next hend =>
      exact ⟨hdigest, fun hlt => absurd hlt (Nat.not_lt.mpr hend),
        fun hsig => absurd hsig.1 (Nat.not_lt.mpr hend)⟩
  · obtain ⟨kind, hkind, h⟩ := bind_eq_ok.mp h
    have hone := rangeInside_of_readAt hkind
    rw [readAt_eq hone] at hkind
    obtain rfl := Except.ok.inj hkind
    dsimp only at h
    split at h
    · next hother => exact ⟨hdigest, fun _ => hone, fun hsig => absurd hsig.2 hother⟩
    · obtain ⟨raw, hraw, _⟩ := bind_eq_ok.mp h
      exact ⟨hdigest, fun _ => hone, fun _ => rangeInside_of_readAt hraw⟩

theorem modsigBytes_eq (h : if len.toNat < 2 ^ 31 then RangeInside data offset len.toNat
    else StringInside data offset) :
    modsigBytes data offset len = .ok (modsigOf data offset len) := by
  unfold modsigBytes modsigOf
  split_ifs at h ⊢
  · exact readAt_eq h
  · rw [strlenAt_eq h]
    exact readAt_eq h.range

theorem inside_of_modsigBytes {raw : Bytes} (h : modsigBytes data offset len = .ok raw) :
    if len.toNat < 2 ^ 31 then RangeInside data offset len.toNat
      else StringInside data offset := by
  unfold modsigBytes at h
  split_ifs at h ⊢
  · exact rangeInside_of_readAt h
  · obtain ⟨n, hn, _⟩ := bind_eq_ok.mp h
    exact stringInside_of_strlenAt hn

/-- A field with its content inside that is not the name leads to the next one. -/
theorem fieldStep_of_inside (h : ContentInside name data f offset len digest)
    (hname : fieldKind name f ≠ .name) :
    fieldStep modsig name data f offset len digest =
      .ok (.next (nextOffset modsig name data f offset len)
        (digestBehind name data f offset len digest)) := by
  rw [fieldStep_eq]
  unfold ContentInside at h
  unfold nextOffset digestBehind
  cases hkind : fieldKind name f with
  | digest =>
      simp only [hkind] at h
      simp only [digestField, strlenAt_eq h]
      rfl
  | signature =>
      simp only [hkind] at h
      simpa using signatureStep_eq h
  | modsig =>
      simp only [hkind] at h
      simp only [modsigBytes_eq h, bind, Except.bind, pure, Except.pure]
      cases modsig (modsigOf data offset len) <;> rfl
  | name => exact absurd hkind hname
  | skip => simp

/-- The name ends the walk. -/
theorem fieldStep_of_name (h : ContentInside name data f offset len digest)
    (hname : fieldKind name f = .name) :
    fieldStep modsig name data f offset len digest =
      .ok (.name (cString (slice data offset.toNat len.toNat))) := by
  unfold ContentInside at h
  simp only [hname] at h
  rw [fieldStep_eq, hname]
  simp only [getModuleName, readAt_eq h]
  rfl

theorem contentInside_of_step {step : FieldStep}
    (h : fieldStep modsig name data f offset len digest = .ok step) :
    ContentInside name data f offset len digest := by
  rw [fieldStep_eq] at h
  unfold ContentInside
  cases hkind : fieldKind name f with
  | digest =>
      rw [hkind] at h
      obtain ⟨d, hd, _⟩ := bind_eq_ok.mp h
      obtain ⟨n, hn, _⟩ := bind_eq_ok.mp hd
      exact stringInside_of_strlenAt hn
  | signature =>
      rw [hkind] at h
      exact signatureInside_of_step h
  | modsig =>
      rw [hkind] at h
      obtain ⟨raw, hraw, _⟩ := bind_eq_ok.mp h
      exact inside_of_modsigBytes hraw
  | name =>
      rw [hkind] at h
      obtain ⟨text, htext, _⟩ := bind_eq_ok.mp h
      obtain ⟨raw, hraw, _⟩ := bind_eq_ok.mp htext
      exact rangeInside_of_readAt hraw
  | skip => trivial

end Field

/-! ## The walk over the fields -/

/-- Every field up to the name lies in the template data, each behind the ones before. -/
def WalkInside (modsig : Bytes → Bool) (name data : Bytes) :
    List Bytes → UInt32 → Option DigestField → Prop
  | [], _, _ => True
  | f :: fs, offset, digest =>
      let len := lenOf name data f offset
      let start := startOf name f offset
      LengthInside name data f offset ∧ ContentInside name data f start len digest ∧
        (fieldKind name f ≠ .name →
          WalkInside modsig name data fs (nextOffset modsig name data f start len)
            (digestBehind name data f start len digest))

/-- Whether a field of the format gives the file name. -/
def HasName (name : Bytes) (fs : List Bytes) : Prop := ∃ f ∈ fs, fieldKind name f = .name

section Walk

variable {modsig : Bytes → Bool} {name data : Bytes}

theorem hasName_cons {f : Bytes} {fs : List Bytes} :
    HasName name (f :: fs) ↔ fieldKind name f = .name ∨ HasName name fs := by
  simp [HasName]

/-- If every field is inside, the loop finds a name where the format has one. -/
theorem fieldLoop_of_inside {fs : List Bytes} {offset : UInt32} {digest : Option DigestField}
    (h : WalkInside modsig name data fs offset digest) :
    ∃ found, fieldLoop modsig name data fs offset digest = .ok found ∧
      (found ≠ none ↔ HasName name fs) := by
  induction fs generalizing offset digest with
  | nil => exact ⟨none, rfl, by simp [HasName]⟩
  | cons f fs ih =>
      obtain ⟨hlength, hcontent, hrest⟩ := h
      rw [fieldLoop, fieldLength_eq hlength, hasName_cons]
      by_cases hname : fieldKind name f = .name
      · refine ⟨some (cString (slice data (startOf name f offset).toNat
          (lenOf name data f offset).toNat)), ?_, by simp [hname]⟩
        show (do let step ← fieldStep _ _ _ _ _ _ _; _) = _
        rw [fieldStep_of_name hcontent hname]
        rfl
      · obtain ⟨found, hfound, hiff⟩ := ih (hrest hname)
        refine ⟨found, ?_, hiff.trans (or_iff_right hname).symm⟩
        show (do let step ← fieldStep _ _ _ _ _ _ _; _) = _
        rw [fieldStep_of_inside hcontent hname]
        exact hfound

/-- A loop that comes to its end has read nothing outside. -/
theorem inside_of_fieldLoop {fs : List Bytes} {offset : UInt32} {digest : Option DigestField}
    {found : Option Bytes} (h : fieldLoop modsig name data fs offset digest = .ok found) :
    WalkInside modsig name data fs offset digest := by
  induction fs generalizing offset digest with
  | nil => trivial
  | cons f fs ih =>
      rw [fieldLoop] at h
      obtain ⟨r, hr, h⟩ := bind_eq_ok.mp h
      have hlength := lengthInside_of_fieldLength hr
      rw [fieldLength_eq hlength] at hr
      obtain rfl := Except.ok.inj hr
      obtain ⟨step, hstep, h⟩ := bind_eq_ok.mp h
      have hcontent := contentInside_of_step hstep
      refine ⟨hlength, hcontent, fun hname => ?_⟩
      rw [fieldStep_of_inside hcontent hname] at hstep
      obtain rfl := Except.ok.inj hstep
      exact ih h

/-- The loop gives a name where all it reads is inside and the format has a name. -/
theorem fieldLoop_some_iff {fs : List Bytes} {offset : UInt32} {digest : Option DigestField} :
    (∃ text, fieldLoop modsig name data fs offset digest = .ok (some text)) ↔
      WalkInside modsig name data fs offset digest ∧ HasName name fs := by
  constructor
  · rintro ⟨text, htext⟩
    have hinside := inside_of_fieldLoop htext
    obtain ⟨found, hfound, hname⟩ := fieldLoop_of_inside hinside
    cases htext.symm.trans hfound
    exact ⟨hinside, hname.mp (Option.some_ne_none text)⟩
  · rintro ⟨hinside, hname⟩
    obtain ⟨found, hfound, hiff⟩ := fieldLoop_of_inside hinside
    obtain ⟨text, rfl⟩ := Option.ne_none_iff_exists'.mp (hiff.mpr hname)
    exact ⟨text, hfound⟩

end Walk

/-! ## The template buffer -/

/-- What `buf_read` gets; that is nothing where the log ends before. -/
def got (size : Nat) (rest : Bytes) : Bytes := if size ≤ rest.length then rest.take size else []

/-- The log behind what was read. -/
def behind (size : Nat) (rest : Bytes) : Bytes :=
  if size ≤ rest.length then rest.drop size else rest

/-- The second length of an original record: what was read is copied behind the digest,
where 256 bytes are left, unless the log ends before. -/
def OriginalFits (rest : Bytes) : Prop :=
  ofLE (slice rest 20 4) ≤ 256 ∨ rest.length < 24 + ofLE (slice rest 20 4)

/-- What is copied behind the digest of an original record. -/
def originalName (rest : Bytes) : Bytes :=
  got (ofLE (got 4 (behind 20 rest))) (behind 4 (behind 20 rest))

/-- The template buffer of an original record. -/
def originalData (rest : Bytes) : Bytes :=
  overwrite (overwrite (zeros 276) 0 (got 20 rest)) 20 (originalName rest)

/-- The length in front of the template data, which is kept if the log ends in it. -/
def sizedLen (s : ImaRun) : UInt32 :=
  if 4 ≤ s.rest.length then UInt32.ofNat (ofLE (s.rest.take 4)) else s.templateDataLen

/-- A length that is negative as an `int` asks for more bytes than were allocated. -/
def SizedFits (s : ImaRun) : Prop :=
  (sizedLen s).toNat < 2 ^ 31 ∨ (behind 4 s.rest).length < intToSize (sizedLen s)

/-- The template data of any other record; it is zero where the log ends before. -/
def sizedData (s : ImaRun) : Bytes :=
  if intToSize (sizedLen s) ≤ (behind 4 s.rest).length then
    (behind 4 s.rest).take (intToSize (sizedLen s))
  else zeros (sizedLen s).toNat

def TemplateFits (name : Bytes) (s : ImaRun) : Prop :=
  if name = ascii "ima" then OriginalFits s.rest else SizedFits s

def bufferedData (name : Bytes) (s : ImaRun) : Bytes :=
  if name = ascii "ima" then originalData s.rest else sizedData s

/-- Everything is written into the buffer that was allocated. -/
def WritesInside (name : Bytes) (s : ImaRun) : Prop :=
  ∃ data t, readTemplateData name s = .next data t ∧ data.length = t.templateDataLen.toNat

section Buffer

variable {s : ImaRun}

theorem bufRead_eq (size : Nat) (s : ImaRun) : bufRead size s =
    if size ≤ s.rest.length then
      .next (some (s.rest.take size)) { s with rest := s.rest.drop size }
    else .next none s := rfl

theorem got_length_le (size : Nat) (rest : Bytes) : (got size rest).length ≤ size := by
  unfold got
  split
  · exact List.length_take_le _ _
  · exact Nat.zero_le _

/-- A read into a zeroed or empty destination, as its callers use it. -/
theorem bufRead_bind_getD {α : Type} (size : Nat) (f : Bytes → Proc ImaRun α) (s : ImaRun) :
    (do let raw ← bufRead size; f (raw.getD []) : Proc ImaRun α) s =
      f (got size s.rest) { s with rest := behind size s.rest } := by
  rw [bind_apply, bufRead_eq, got, behind]
  split <;> rfl

/-- The buffer with the digest of an original record. -/
theorem digestBuf_length (rest : Bytes) :
    (overwrite (zeros 276) 0 (got 20 rest)).length = 276 := by
  have hgot := got_length_le 20 rest
  rw [overwrite_length, zeros_length]
  rw [zeros_length]
  omega

/-- The copy of the name behind the digest. -/
def copyName (data : Bytes) (size : Nat) : Proc ImaRun Bytes := do
  let field ← bufRead size
  match field with
  | none => return data
  | some field =>
      if digestLength + field.length ≤ 276 then return overwrite data digestLength field
      else fault

/-- A name that is not read leaves the buffer as it is. -/
theorem copyName_eq (data : Bytes) (size : Nat) (s : ImaRun) : copyName data size s =
    if 20 + (got size s.rest).length ≤ 276 then
      .next (overwrite data 20 (got size s.rest)) { s with rest := behind size s.rest }
    else .stop .fault := by
  unfold copyName
  rw [bind_apply, bufRead_eq, got, behind]
  split
  · next hread =>
      show (if _ then _ else _ : Proc ImaRun Bytes) _ = _
      split
      · next hfits => exact (if_pos hfits).symm
      · next hfits => exact (if_neg hfits).symm
  · next hread =>
      have hsame : overwrite data 20 [] = data := by
        rw [overwrite, List.append_nil]
        exact List.take_append_drop 20 data
      rw [if_pos (by decide), hsame]
      rfl

/-- The second length and the name behind it. -/
def readName (data : Bytes) : Proc ImaRun Bytes := do
  let raw ← bufRead 4
  copyName data (ofLE (raw.getD []))

theorem readImaData_run (s : ImaRun) : readImaData s =
    if 20 + (originalName s.rest).length ≤ 276 then
      .next (originalData s.rest) { s with
        templateDataLen := 276
        rest := behind (ofLE (got 4 (behind 20 s.rest))) (behind 4 (behind 20 s.rest)) }
    else .stop .fault := by
  show (do
    let digest ← bufRead 20
    readName (overwrite (zeros 276) 0 (digest.getD [])) : Proc ImaRun Bytes)
      { s with templateDataLen := 276 } = _
  rw [bufRead_bind_getD 20 (fun digest => readName (overwrite (zeros 276) 0 digest))]
  unfold readName
  rw [bufRead_bind_getD 4 (fun len => copyName _ (ofLE len)), copyName_eq]
  rfl

theorem originalName_length_iff (rest : Bytes) :
    20 + (originalName rest).length ≤ 276 ↔ OriginalFits rest := by
  have hslice : slice rest 20 4 = (rest.drop 20).take 4 := rfl
  unfold originalName OriginalFits got behind
  rw [hslice]
  split_ifs <;> simp only [List.length_take, List.length_drop, List.length_nil] at * <;> omega

theorem originalData_length {rest : Bytes} (h : 20 + (originalName rest).length ≤ 276) :
    (originalData rest).length = 276 := by
  rw [originalData, overwrite_length, digestBuf_length]
  rw [digestBuf_length]
  exact h

theorem readSizedData_run (s : ImaRun) : readSizedData s = .next (sizedData s) { s with
    templateDataLen := sizedLen s
    rest := behind (intToSize (sizedLen s)) (behind 4 s.rest) } := by
  have hdata : ∀ u : ImaRun, u.templateDataLen = sizedLen s → u.rest = behind 4 s.rest →
      (do
        let data ← bufRead (intToSize u.templateDataLen)
        return data.getD (zeros u.templateDataLen.toNat) : Proc ImaRun Bytes) u =
      .next (sizedData s)
        { u with rest := behind (intToSize (sizedLen s)) (behind 4 s.rest) } := by
    intro u hlen hrest
    unfold sizedData
    rw [bind_apply, bufRead_eq, hlen, hrest]
    generalize behind 4 s.rest = rest at hrest ⊢
    unfold behind
    split
    · rfl
    · rw [← hrest, ← hlen]
      rfl
  unfold readSizedData
  rw [bind_apply, bufRead_eq]
  split
  · next hle =>
      have hrun := hdata { s with
        rest := s.rest.drop 4, templateDataLen := UInt32.ofNat (ofLE (s.rest.take 4)) }
        (if_pos hle).symm (if_pos hle).symm
      have hlen : sizedLen s = UInt32.ofNat (ofLE (s.rest.take 4)) := if_pos hle
      rw [hlen] at hrun ⊢
      exact hrun
  · next hle =>
      have hrun := hdata s (if_neg hle).symm (if_neg hle).symm
      have hlen : sizedLen s = s.templateDataLen := if_neg hle
      rw [hlen] at hrun ⊢
      exact hrun

theorem original_writes_iff : (∃ data t, readImaData s = .next data t ∧
    data.length = t.templateDataLen.toNat) ↔ OriginalFits s.rest := by
  rw [readImaData_run, ← originalName_length_iff]
  split
  · next hfits => exact iff_of_true ⟨_, _, rfl, originalData_length hfits⟩ hfits
  · next hfits =>
      refine iff_of_false ?_ hfits
      rintro ⟨_, _, hrun, _⟩
      cases hrun

theorem sized_writes_iff : (∃ data t, readSizedData s = .next data t ∧
    data.length = t.templateDataLen.toNat) ↔ SizedFits s := by
  have hwrites : (∃ data t, readSizedData s = .next data t ∧
      data.length = t.templateDataLen.toNat) ↔ (sizedData s).length = (sizedLen s).toNat := by
    rw [readSizedData_run]
    constructor
    · rintro ⟨data, t, hrun, hlen⟩
      cases hrun
      exact hlen
    · intro h
      exact ⟨_, _, rfl, h⟩
  have hlt := (sizedLen s).toNat_lt
  rw [hwrites, SizedFits, sizedData]
  split
  · next hle =>
      rw [List.length_take_of_le hle]
      unfold intToSize at hle ⊢
      split_ifs at hle ⊢ <;> omega
  · next hle =>
      rw [zeros_length]
      unfold intToSize at hle ⊢
      split_ifs at hle ⊢ <;> omega

theorem writesInside_iff (name : Bytes) : WritesInside name s ↔ TemplateFits name s := by
  unfold WritesInside TemplateFits readTemplateData
  split
  · exact original_writes_iff
  · exact sized_writes_iff

/-- Behind the template data, with the length that is kept for the next record. -/
def behindTemplate (name : Bytes) (s : ImaRun) : ImaRun :=
  if name = ascii "ima" then
    { s with
      templateDataLen := 276
      rest := behind (ofLE (got 4 (behind 20 s.rest))) (behind 4 (behind 20 s.rest)) }
  else
    { s with
      templateDataLen := sizedLen s
      rest := behind (intToSize (sizedLen s)) (behind 4 s.rest) }

/-- Reading stops only in an original record that does not fit its buffer. -/
theorem readTemplateData_next_iff {name data : Bytes} {t : ImaRun} :
    readTemplateData name s = .next data t ↔ (name = ascii "ima" → OriginalFits s.rest) ∧
      data = bufferedData name s ∧ t = behindTemplate name s := by
  unfold readTemplateData bufferedData behindTemplate
  by_cases hname : name = ascii "ima"
  · rw [if_pos hname, if_pos hname, if_pos hname, readImaData_run]
    by_cases hfits : OriginalFits s.rest
    · rw [if_pos ((originalName_length_iff s.rest).mpr hfits)]
      simp [hfits, eq_comm]
    · rw [if_neg (mt (originalName_length_iff s.rest).mp hfits)]
      simp [hname, hfits]
  · rw [if_neg hname, if_neg hname, if_neg hname, readSizedData_run]
    simp [hname, eq_comm]

/-- Whatever is read is the template data of the log; the descriptors are left alone. -/
theorem readTemplateData_run {name data : Bytes} {t : ImaRun}
    (h : readTemplateData name s = .next data t) :
    data = bufferedData name s ∧ t.fmtIsName = s.fmtIsName := by
  obtain ⟨-, hdata, rfl⟩ := readTemplateData_next_iff.mp h
  refine ⟨hdata, ?_⟩
  unfold behindTemplate
  split <;> rfl

theorem readTemplateData_next {name : Bytes} (h : TemplateFits name s) :
    ∃ t, readTemplateData name s = .next (bufferedData name s) t := by
  obtain ⟨data, t, hrun, _⟩ := (writesInside_iff name).mpr h
  rw [← (readTemplateData_run hrun).1]
  exact ⟨t, hrun⟩

end Buffer

/-! ## The record in front of the parser -/

/-- The parser is in front of a record whose name it reads. -/
structure InFront (s : ImaRun) : Prop where
  header : 28 ≤ s.rest.length
  name_le : ofLE (slice (s.rest.take 28) 24 4) ≤ eventNameLenMax

/-- The length of the name in the header. -/
def nameLen (s : ImaRun) : Nat := ofLE (slice (s.rest.take 28) 24 4)

/-- The name of the record; it is empty where the log ends in it. -/
def recordName (s : ImaRun) : Bytes := cString (got (nameLen s) (s.rest.drop 28))

/-- The run behind the name. -/
def behindName (s : ImaRun) : ImaRun := { s with rest := behind (nameLen s) (s.rest.drop 28) }

/-- The template data of the record. -/
def recordData (s : ImaRun) : Bytes := bufferedData (recordName s) (behindName s)

/-- The fields of the record's format. -/
def recordFields (s : ImaRun) : List Bytes := strsepAll 124 (fmtOf s.fmtIsName (recordName s))

/-- The digest of the template data is the one in the header. -/
def DigestMatches (libs : ImaLibs) (s : ImaRun) (data : Bytes) : Prop :=
  (libs.sha1 data).val = slice (s.rest.take 28) 4 20

section Record

variable {libs : ImaLibs} {s : ImaRun}

theorem parseRecord_eq (h : InFront s) :
    parseRecord libs (s.rest.take 28) { s with rest := s.rest.drop 28 } = (do
      let data ← readTemplateData (recordName s)
      finishRecord libs (s.rest.take 28) (recordName s) data : Proc ImaRun Unit)
        (behindName s) := by
  have hname : ¬eventNameLenMax < nameLen s := Nat.not_lt.mpr h.name_le
  unfold parseRecord
  dsimp only
  rw [show ofLE (slice (s.rest.take 28) 24 4) = nameLen s from rfl, Proc.when, if_neg hname,
    pure_bind]
  exact bufRead_bind_getD (nameLen s) (fun nameBuf => do
    let data ← readTemplateData (cString nameBuf)
    finishRecord libs (s.rest.take 28) (cString nameBuf) data) _

theorem recordFields_eq {data : Bytes} {t : ImaRun}
    (h : readTemplateData (recordName s) (behindName s) = .next data t) :
    strsepAll 124 (fmtOf t.fmtIsName (recordName s)) = recordFields s := by
  rw [(readTemplateData_run h).2]
  rfl

theorem getTemplateData_eq (name data : Bytes) (t : ImaRun) :
    getTemplateData libs.modsig name data t =
      lift (fieldLoop libs.modsig name data (strsepAll 124 (fmtOf t.fmtIsName name)) 0 none)
        { t with fmtIsName := t.fmtIsName || unknownTemplate name } := by
  rw [getTemplateData, bind_apply, templateFmt_eq, andThen_next]

/-- Behind the record; an unknown template name stays in the table. -/
def behindRecord (s : ImaRun) : ImaRun :=
  { behindTemplate (recordName s) (behindName s) with
    fmtIsName := s.fmtIsName || unknownTemplate (recordName s) }

/-- The bytes in front of the parser go through as a record, with nothing read where the log
ends before: the digest of the template data is the one in the header, and its fields lie in
it and give a name. -/
structure GoesThrough (libs : ImaLibs) (s : ImaRun) : Prop where
  front : InFront s
  copied : recordName s = ascii "ima" → OriginalFits (behindName s).rest
  digest : DigestMatches libs s (recordData s)
  inside : WalkInside libs.modsig (recordName s) (recordData s) (recordFields s) 0 none
  name : HasName (recordName s) (recordFields s)

theorem name_le_of_next {t : ImaRun} (h : parseRecord libs (s.rest.take 28)
    { s with rest := s.rest.drop 28 } = .next () t) : nameLen s ≤ eventNameLenMax := by
  by_contra hlong
  unfold parseRecord at h
  dsimp only at h
  rw [show ofLE (slice (s.rest.take 28) 24 4) = nameLen s from rfl, Proc.when,
    if_pos (Nat.lt_of_not_le hlong)] at h
  cases h

/-- A round goes on exactly where the bytes go through. -/
theorem parseRecord_next_iff (hheader : 28 ≤ s.rest.length) {t : ImaRun} :
    parseRecord libs (s.rest.take 28) { s with rest := s.rest.drop 28 } = .next () t ↔
      GoesThrough libs s ∧ ∃ text, fieldLoop libs.modsig (recordName s) (recordData s)
        (recordFields s) 0 none = .ok (some text) ∧
          t = printEntry libs text (recordData s) (behindRecord s) := by
  by_cases hname : nameLen s ≤ eventNameLenMax
  swap
  · exact iff_of_false (fun h => hname (name_le_of_next h)) fun h => hname h.1.front.name_le
  have hfront : InFront s := ⟨hheader, hname⟩
  rw [parseRecord_eq hfront, bind_apply]
  constructor
  · intro h
    cases hread : readTemplateData (recordName s) (behindName s) with
    | exit r u =>
        rw [hread] at h
        cases h
    | stop w =>
        rw [hread] at h
        cases h
    | next data u =>
        rw [hread, andThen_next] at h
        obtain ⟨hcopied, rfl, rfl⟩ := readTemplateData_next_iff.mp hread
        obtain ⟨hdigest, text, htext, rfl⟩ := finishRecord_next_iff.mp h
        rw [recordFields_eq hread] at htext
        obtain ⟨hinside, hhas⟩ := fieldLoop_some_iff.mp ⟨text, htext⟩
        refine ⟨⟨hfront, hcopied, hdigest, hinside, hhas⟩, text, htext, ?_⟩
        rw [(readTemplateData_run hread).2]
        rfl
  · rintro ⟨hthrough, text, htext, rfl⟩
    have hread := readTemplateData_next_iff.mpr ⟨hthrough.copied, rfl, rfl⟩
    rw [hread, andThen_next, finishRecord_next_iff, recordFields_eq hread,
      (readTemplateData_run hread).2]
    exact ⟨hthrough.digest, text, htext, rfl⟩

end Record

end MeasuredBoot.Ima
