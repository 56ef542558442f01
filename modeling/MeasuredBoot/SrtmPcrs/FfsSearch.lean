import Mathlib.Data.List.TakeWhile
import MeasuredBoot.SrtmPcrs.SecMain

/-! # Searching a firmware file system

A firmware volume as the list of its files, and a file as the list of its sections, with
the encoding the platform initialization specification gives them. On such a volume the
loops of `SecMain.c` find the first section of the wanted type in the files of the
wanted type, as far as the first file that is too short for a section.
-/

namespace MeasuredBoot.SrtmPcrs

open Binary Imperative

/-! ## Volumes -/

/-- The bytes between `pos` and the next multiple of `unit`. -/
def padding (unit : Nat) (fill : UInt8) (pos : Nat) : Bytes :=
  List.replicate (alignUp pos unit - pos) fill

structure FfsSection where
  type : UInt8
  body : Bytes
  size_lt : sizeofSectionHeader + body.length < 2 ^ 24

namespace FfsSection

def size (s : FfsSection) : Nat := sizeofSectionHeader + s.body.length

def bytes (s : FfsSection) : Bytes := toLE 3 s.size ++ [s.type] ++ s.body

theorem bytes_length (s : FfsSection) : s.bytes.length = s.size := by
  simp only [bytes, size, sizeofSectionHeader, List.length_append, toLE_length,
    List.length_singleton]

theorem size_pos (s : FfsSection) : 0 < s.size := by
  simp only [size, sizeofSectionHeader]
  omega

end FfsSection

/-- Sections from position `pos` of their file on, at multiples of 4. -/
def encodeSections : Nat → List FfsSection → Bytes
  | _, [] => []
  | pos, s :: rest =>
      padding 4 0 pos ++ s.bytes ++ encodeSections (alignUp pos 4 + s.size) rest

/-- The first section of the type, and where it starts. -/
def findSection (type : UInt8) (base : Nat) : Nat → List FfsSection → Option (Nat × FfsSection)
  | _, [] => none
  | pos, s :: rest =>
      if s.type = type then some (base + alignUp pos 4, s)
      else findSection type base (alignUp pos 4 + s.size) rest

/-- What is in a file: sections, or bytes of another kind. -/
inductive FfsContent where
  | sections (list : List FfsSection)
  | raw (bytes : Bytes)

def FfsContent.bytes : FfsContent → Bytes
  | .sections list => encodeSections 0 list
  | .raw bytes => bytes

/-- A file: its name with the integrity check, its type, attributes, state and content. -/
structure FfsFile where
  name : Bytes
  type : UInt8
  attributes : UInt8
  state : UInt8
  content : FfsContent
  name_length : name.length = 18
  size_lt : sizeofFileHeader + content.bytes.length < 2 ^ 24

namespace FfsFile

def size (f : FfsFile) : Nat := sizeofFileHeader + f.content.bytes.length

/-- There is no room for a section header behind the one of the file. -/
def HeaderOnly (f : FfsFile) : Prop := f.content.bytes.length < sizeofSectionHeader

instance (f : FfsFile) : Decidable f.HeaderOnly := Nat.decLt _ _

def header (f : FfsFile) : Bytes :=
  f.name ++ [f.type, f.attributes] ++ toLE 3 f.size ++ [f.state]

def bytes (f : FfsFile) : Bytes := f.header ++ f.content.bytes

theorem header_length (f : FfsFile) : f.header.length = sizeofFileHeader := by
  simp only [header, sizeofFileHeader, List.length_append, toLE_length, f.name_length,
    List.length_cons, List.length_nil]

theorem bytes_length (f : FfsFile) : f.bytes.length = f.size := by
  rw [bytes, size, List.length_append, f.header_length]

end FfsFile

/-- Files from position `pos` of the volume on, at multiples of 8. -/
def encodeFiles : Nat → List FfsFile → Bytes
  | _, [] => []
  | pos, f :: rest => padding 8 0xff pos ++ f.bytes ++ encodeFiles (alignUp pos 8 + f.size) rest

/-- The first section of the type in a file at `start`, if the file has its type. -/
def FfsFile.lookup (f : FfsFile) (fileType sectionType : UInt8) (start : Nat) :
    Option (Nat × FfsSection) :=
  match f.content with
  | .sections list =>
      if f.type = fileType then findSection sectionType (start + sizeofFileHeader) 0 list
      else none
  | .raw _ => none

/-- The first section of the type in a file of the type, and where it starts. -/
def findFile (fileType sectionType : UInt8) : Nat → List FfsFile → Option (Nat × FfsSection)
  | _, [] => none
  | pos, f :: rest =>
      match f.lookup fileType sectionType (alignUp pos 8) with
      | some found => some found
      | none => findFile fileType sectionType (alignUp pos 8 + f.size) rest

theorem padding_length {unit : Nat} (fill : UInt8) {pos : Nat} (h : 0 < unit) :
    pos + (padding unit fill pos).length = alignUp pos unit := by
  have hle : pos ≤ alignUp pos unit := le_alignUp h
  simp only [padding, List.length_replicate]
  omega

/-- Where the files end. -/
theorem encodeFiles_end (pos : Nat) (f : FfsFile) (rest : List FfsFile) :
    pos + (encodeFiles pos (f :: rest)).length =
      alignUp pos 8 + f.size + (encodeFiles (alignUp pos 8 + f.size) rest).length := by
  have hpadding : pos + (padding 8 0xff pos).length = alignUp pos 8 :=
    padding_length 0xff (by decide)
  simp only [encodeFiles, List.length_append, f.bytes_length]
  omega

theorem encodeFiles_append (pos : Nat) (xs ys : List FfsFile) :
    encodeFiles pos (xs ++ ys) =
      encodeFiles pos xs ++ encodeFiles (pos + (encodeFiles pos xs).length) ys := by
  induction xs generalizing pos with
  | nil => rfl
  | cons f xs ih =>
      rw [encodeFiles_end, List.cons_append, encodeFiles, ih, encodeFiles]
      simp only [List.append_assoc]

theorem findFile_append (fileType sectionType : UInt8) (pos : Nat) (xs ys : List FfsFile) :
    findFile fileType sectionType pos (xs ++ ys) =
      match findFile fileType sectionType pos xs with
      | some found => some found
      | none => findFile fileType sectionType (pos + (encodeFiles pos xs).length) ys := by
  induction xs generalizing pos with
  | nil => rfl
  | cons f xs ih =>
      rw [encodeFiles_end, List.cons_append]
      simp only [findFile]
      cases f.lookup fileType sectionType (alignUp pos 8) with
      | some found => rfl
      | none => exact ih (alignUp pos 8 + f.size)

/-! ## Sections are found -/

theorem alignUp_add (base pos : Nat) (h : base % 4 = 0) :
    alignUp (base + pos) 4 = base + alignUp pos 4 := by
  simp only [alignUp]
  omega

/-- A copy of the bytes between `pre` and `post`. -/
theorem copyFrom_middle {object pre mid post : Bytes} {off count : Nat}
    (hobject : object = pre ++ mid ++ post) (hoff : off = pre.length)
    (hcount : count = mid.length) : copyFrom object off count = .ok mid := by
  have hin : off + count ≤ object.length := by
    rw [hobject]
    simp only [List.length_append]
    omega
  rw [copyFrom_ok hin, hobject, slice_middle hoff hcount]

theorem readLE_middle {object pre mid post : Bytes} {off width : Nat}
    (hobject : object = pre ++ mid ++ post) (hoff : off = pre.length)
    (hwidth : width = mid.length) : readLE object off width = .ok (ofLE mid) := by
  unfold readLE
  rw [copyFrom_middle hobject hoff hwidth]
  rfl

/-- A number that fits its field is read back. -/
theorem readLE_toLE {object pre post : Bytes} {off width value : Nat}
    (hobject : object = pre ++ toLE width value ++ post) (hoff : off = pre.length)
    (hvalue : value < 256 ^ width) : readLE object off width = .ok value := by
  rw [readLE_middle hobject hoff (toLE_length width value).symm, ofLE_toLE_of_lt hvalue]

/-- One turn of the loop at a section with a sound header. -/
theorem findFfsSectionInstance_step {volume : Bytes} {sectionType endOfSections fuel : Nat}
    {endOfSection size type : Nat} (hne : endOfSection ≠ endOfSections)
    (hsize : readLE volume (alignUp endOfSection 4) 3 = .ok size)
    (htype : readLE volume (alignUp endOfSection 4 + 3) 1 = .ok type)
    (hlarge : sizeofSectionHeader ≤ size) (hin : alignUp endOfSection 4 + size ≤ endOfSections) :
    findFfsSectionInstance volume sectionType endOfSections (fuel + 1) endOfSection =
      if type = sectionType then .ok (.found (alignUp endOfSection 4))
      else findFfsSectionInstance volume sectionType endOfSections fuel
        (alignUp endOfSection 4 + size) := by
  have hpos : 0 < size := Nat.lt_of_lt_of_le (by decide) hlarge
  rw [findFfsSectionInstance, if_neg hne, if_neg (by omega), hsize]
  dsimp only [bind, Except.bind]
  rw [if_neg (by omega), if_neg (by omega), htype]
  rfl

/-- The search through the sections of a file that starts at a multiple of 4. -/
theorem findFfsSectionInstance_encoded {base : Nat} (hbase : base % 4 = 0) (type : UInt8)
    {sections : List FfsSection} {pre post : Bytes} {pos fuel : Nat}
    (hpre : pre.length = base + pos) (hfuel : sections.length < fuel) :
    findFfsSectionInstance (pre ++ encodeSections pos sections ++ post) type.toNat
        (pre.length + (encodeSections pos sections).length) fuel pre.length =
      .ok (match findSection type base pos sections with
        | some found => .found found.1
        | none => .notFound) := by
  induction sections generalizing pre pos fuel with
  | nil =>
      obtain ⟨fuel, rfl⟩ := Nat.exists_eq_succ_of_ne_zero (by omega : fuel ≠ 0)
      simp [findFfsSectionInstance, encodeSections, findSection, pure, Except.pure]
  | cons s rest ih =>
      obtain ⟨fuel, rfl⟩ := Nat.exists_eq_succ_of_ne_zero (by omega : fuel ≠ 0)
      have hsize := s.bytes_length
      have hpos := s.size_pos
      have hcurrent : alignUp pre.length 4 = (pre ++ padding 4 0 pos).length := by
        rw [hpre, alignUp_add base pos hbase, List.length_append, hpre, Nat.add_assoc,
          padding_length 0 (by decide)]
      have hvolume : pre ++ encodeSections pos (s :: rest) ++ post =
          pre ++ padding 4 0 pos ++ toLE 3 s.size ++ ([s.type] ++ s.body ++
            encodeSections (alignUp pos 4 + s.size) rest ++ post) := by
        simp [encodeSections, FfsSection.bytes]
      have hvolume' : pre ++ encodeSections pos (s :: rest) ++ post =
          pre ++ padding 4 0 pos ++ toLE 3 s.size ++ [s.type] ++ (s.body ++
            encodeSections (alignUp pos 4 + s.size) rest ++ post) := by
        simp [encodeSections, FfsSection.bytes]
      have htype : readLE (pre ++ encodeSections pos (s :: rest) ++ post)
          (alignUp pre.length 4 + 3) 1 = .ok (ofLE [s.type]) :=
        readLE_middle hvolume' (by simp only [hcurrent, List.length_append, toLE_length]) rfl
      have hend : pre.length + (encodeSections pos (s :: rest)).length =
          alignUp pre.length 4 + s.size +
            (encodeSections (alignUp pos 4 + s.size) rest).length := by
        simp only [hcurrent, encodeSections, List.length_append]
        omega
      have hpreNext : (pre ++ padding 4 0 pos ++ s.bytes).length =
          alignUp pre.length 4 + s.size := by
        simp only [hcurrent, List.length_append, hsize]
      have hbaseNext : (pre ++ padding 4 0 pos ++ s.bytes).length =
          base + (alignUp pos 4 + s.size) := by
        rw [hpreNext, hpre, alignUp_add base pos hbase, Nat.add_assoc]
      have hnext := ih hbaseNext (Nat.lt_of_succ_lt_succ hfuel)
      have hle : pre.length ≤ alignUp pre.length 4 := le_alignUp (by decide)
      have hrest : pre ++ padding 4 0 pos ++ s.bytes ++
            encodeSections (alignUp pos 4 + s.size) rest ++ post =
          pre ++ encodeSections pos (s :: rest) ++ post := by
        simp only [encodeSections, List.append_assoc]
      rw [hrest, hpreNext, ← hend] at hnext
      have hone : ofLE [s.type] = type.toNat ↔ s.type = type := by
        simp [ofLE, UInt8.toNat_inj]
      rw [findFfsSectionInstance_step (by omega)
        (readLE_toLE hvolume hcurrent s.size_lt) htype (Nat.le_add_right _ _) (by omega), hnext]
      simp only [hone, findSection]
      split
      · rw [hpre, alignUp_add base pos hbase]
      · rfl

/-! ## Files are found -/

/-- The files of the type consist of sections. -/
def Sectioned (fileType : UInt8) (files : List FfsFile) : Prop :=
  ∀ f ∈ files, f.type = fileType → ∃ sections, f.content = .sections sections

section Step

variable {volume : Bytes} {fileType sectionType endOfVolume fuel endOfFile size : Nat}

/-- One turn of the loop at a file of another type. -/
theorem findFfsFile_skip {type : Nat}
    (hsize : readLE volume (alignUp endOfFile 8 + 20) 3 = .ok size)
    (htype : readLE volume (alignUp endOfFile 8 + 18) 1 = .ok type) (hne : type ≠ fileType)
    (hlarge : sizeofFileHeader + sizeofSectionHeader ≤ size)
    (hin : alignUp endOfFile 8 + size ≤ endOfVolume) :
    findFfsFile volume fileType sectionType endOfVolume (fuel + 1) endOfFile =
      findFfsFile volume fileType sectionType endOfVolume fuel (alignUp endOfFile 8 + size) := by
  rw [findFfsFile, if_neg (by omega), hsize]
  dsimp only [bind, Except.bind]
  rw [if_neg (by omega), if_neg (by omega), htype]
  exact if_pos hne

/-- One turn of the loop at a file of the type that has the section. -/
theorem findFfsFile_found {start : Nat}
    (hsize : readLE volume (alignUp endOfFile 8 + 20) 3 = .ok size)
    (htype : readLE volume (alignUp endOfFile 8 + 18) 1 = .ok fileType)
    (hlarge : sizeofFileHeader + sizeofSectionHeader ≤ size)
    (hin : alignUp endOfFile 8 + size ≤ endOfVolume)
    (hsearch : findFfsSectionInSections volume (alignUp endOfFile 8 + sizeofFileHeader)
      (alignUp endOfFile 8 + size) sectionType = .ok (.found start)) :
    findFfsFile volume fileType sectionType endOfVolume (fuel + 1) endOfFile =
      .ok (some start) := by
  rw [findFfsFile, if_neg (by omega), hsize]
  dsimp only [bind, Except.bind]
  rw [if_neg (by omega), if_neg (by omega), htype]
  dsimp only
  rw [if_neg (not_not.mpr rfl), hsearch]
  rfl

/-- One turn of the loop at a file of the type that does not have it. -/
theorem findFfsFile_notFound (hsize : readLE volume (alignUp endOfFile 8 + 20) 3 = .ok size)
    (htype : readLE volume (alignUp endOfFile 8 + 18) 1 = .ok fileType)
    (hlarge : sizeofFileHeader + sizeofSectionHeader ≤ size)
    (hin : alignUp endOfFile 8 + size ≤ endOfVolume)
    (hsearch : findFfsSectionInSections volume (alignUp endOfFile 8 + sizeofFileHeader)
      (alignUp endOfFile 8 + size) sectionType = .ok .notFound) :
    findFfsFile volume fileType sectionType endOfVolume (fuel + 1) endOfFile =
      findFfsFile volume fileType sectionType endOfVolume fuel (alignUp endOfFile 8 + size) := by
  rw [findFfsFile, if_neg (by omega), hsize]
  dsimp only [bind, Except.bind]
  rw [if_neg (by omega), if_neg (by omega), htype]
  dsimp only
  rw [if_neg (not_not.mpr rfl), hsearch]

/-- The loop ends at a file that has no room for a section. -/
theorem findFfsFile_short (hin : alignUp endOfFile 8 ≤ endOfVolume)
    (hsize : readLE volume (alignUp endOfFile 8 + 20) 3 = .ok size)
    (hshort : size < sizeofFileHeader + sizeofSectionHeader) :
    findFfsFile volume fileType sectionType endOfVolume (fuel + 1) endOfFile = .ok none := by
  rw [findFfsFile, if_neg (Nat.not_lt.mpr hin), hsize]
  dsimp only [bind, Except.bind]
  rw [if_pos hshort]
  rfl

/-- The loop ends at a file that would end behind the volume. -/
theorem findFfsFile_behind (hin : alignUp endOfFile 8 ≤ endOfVolume)
    (hsize : readLE volume (alignUp endOfFile 8 + 20) 3 = .ok size)
    (hlarge : sizeofFileHeader + sizeofSectionHeader ≤ size)
    (hbehind : endOfVolume < alignUp endOfFile 8 + size) :
    findFfsFile volume fileType sectionType endOfVolume (fuel + 1) endOfFile = .ok none := by
  rw [findFfsFile, if_neg (by omega), hsize]
  dsimp only [bind, Except.bind]
  rw [if_neg (by omega), if_pos hbehind]
  rfl

end Step

namespace FfsFile

variable {f : FfsFile} {object pre post : Bytes}

theorem readLE_size (h : object = pre ++ f.bytes ++ post) :
    readLE object (pre.length + 20) 3 = .ok f.size := by
  have hsize : f.size < 256 ^ 3 := f.size_lt
  have hobject : object = (pre ++ (f.name ++ [f.type, f.attributes])) ++ toLE 3 f.size ++
      ([f.state] ++ f.content.bytes ++ post) := by
    simp [h, bytes, header]
  exact readLE_toLE hobject (by simp [f.name_length]) hsize

theorem readLE_type (h : object = pre ++ f.bytes ++ post) :
    readLE object (pre.length + 18) 1 = .ok f.type.toNat := by
  have hobject : object = (pre ++ f.name) ++ [f.type] ++
      ([f.attributes] ++ toLE 3 f.size ++ [f.state] ++ f.content.bytes ++ post) := by
    simp [h, bytes, header]
  have hread : readLE object (pre.length + 18) 1 = .ok (ofLE [f.type]) :=
    readLE_middle hobject (by simp [f.name_length]) rfl
  simpa [ofLE] using hread

end FfsFile

/-- The sections of a file are not more than the bytes of its volume. -/
theorem length_le_encodeSections (pos : Nat) (sections : List FfsSection) :
    sections.length ≤ (encodeSections pos sections).length := by
  induction sections generalizing pos with
  | nil => exact Nat.zero_le _
  | cons s rest ih =>
      have hrest := ih (alignUp pos 4 + s.size)
      have hpos := s.size_pos
      simp only [encodeSections, List.length_append, List.length_cons, s.bytes_length]
      omega

theorem length_le_encodeFiles (pos : Nat) (files : List FfsFile) :
    files.length ≤ (encodeFiles pos files).length := by
  induction files generalizing pos with
  | nil => exact Nat.zero_le _
  | cons f rest ih =>
      have hrest := ih (alignUp pos 8 + f.size)
      have hpos : 0 < f.size := Nat.lt_of_lt_of_le (by decide) (Nat.le_add_right _ _)
      simp only [encodeFiles, List.length_append, List.length_cons, f.bytes_length]
      omega

/-- The search through the sections of one file. -/
theorem FfsFile.search {f : FfsFile} {sections : List FfsSection}
    (hcontent : f.content = .sections sections) (sectionType : UInt8) {pre post : Bytes}
    (hpre : pre.length % 8 = 0) :
    findFfsSectionInSections (pre ++ f.bytes ++ post) (pre.length + sizeofFileHeader)
        (pre.length + f.size) sectionType.toNat =
      .ok (match findSection sectionType (pre.length + sizeofFileHeader) 0 sections with
        | some found => .found found.1
        | none => .notFound) := by
  have hvolume : pre ++ f.bytes ++ post =
      (pre ++ f.header) ++ encodeSections 0 sections ++ post := by
    simp only [FfsFile.bytes, FfsContent.bytes, hcontent, List.append_assoc]
  have hbase : (pre ++ f.header).length = pre.length + sizeofFileHeader := by
    rw [List.length_append, f.header_length]
  have hsize : f.size = sizeofFileHeader + (encodeSections 0 sections).length := by
    rw [FfsFile.size, hcontent]
    rfl
  have hcount := length_le_encodeSections 0 sections
  have haligned : (pre.length + sizeofFileHeader) % 4 = 0 := by
    simp only [sizeofFileHeader]
    omega
  have hlen : (pre ++ f.bytes ++ post).length =
      pre.length + f.size + post.length := by
    simp only [List.length_append, f.bytes_length]
  have hfuel : sections.length < (pre ++ f.bytes ++ post).length + 1 := by omega
  have hfound := @findFfsSectionInstance_encoded _ haligned sectionType sections _ post 0 _ hbase
    hfuel
  rw [← hvolume, hbase, Nat.add_assoc, ← hsize] at hfound
  exact hfound

/-- The files that `findFile` skips are passed by the loop. -/
theorem findFfsFile_encoded {fileType : UInt8} (sectionType : UInt8) {files : List FfsFile}
    (hsections : Sectioned fileType files) (hroom : ∀ f ∈ files, ¬f.HeaderOnly)
    {pre post : Bytes} {endOfVolume fuel : Nat}
    (hend : pre.length + (encodeFiles pre.length files).length ≤ endOfVolume) :
    findFfsFile (pre ++ encodeFiles pre.length files ++ post) fileType.toNat sectionType.toNat
        endOfVolume (files.length + fuel) pre.length =
      match findFile fileType sectionType pre.length files with
      | some found => .ok (some found.1)
      | none => findFfsFile (pre ++ encodeFiles pre.length files ++ post) fileType.toNat
          sectionType.toNat endOfVolume fuel
          (pre.length + (encodeFiles pre.length files).length) := by
  induction files generalizing pre with
  | nil => simp [encodeFiles, findFile]
  | cons f rest ih =>
      have hcurrent : alignUp pre.length 8 = (pre ++ padding 8 0xff pre.length).length := by
        rw [List.length_append, padding_length 0xff (by decide)]
      have hpreNext : (pre ++ padding 8 0xff pre.length ++ f.bytes).length =
          alignUp pre.length 8 + f.size := by
        simp only [hcurrent, List.length_append, f.bytes_length]
      have hrest : pre ++ padding 8 0xff pre.length ++ f.bytes ++
            encodeFiles (alignUp pre.length 8 + f.size) rest ++ post =
          pre ++ encodeFiles pre.length (f :: rest) ++ post := by
        simp only [encodeFiles, List.append_assoc]
      have hlength : pre.length + (encodeFiles pre.length (f :: rest)).length =
          alignUp pre.length 8 + f.size +
            (encodeFiles (alignUp pre.length 8 + f.size) rest).length := by
        simp only [hcurrent, encodeFiles, List.length_append, f.bytes_length]
        omega
      have hendNext : (pre ++ padding 8 0xff pre.length ++ f.bytes).length +
          (encodeFiles (pre ++ padding 8 0xff pre.length ++ f.bytes).length rest).length ≤
            endOfVolume := by
        rw [hpreNext, ← hlength]
        exact hend
      have hnext := ih (fun g hg => hsections g (List.mem_cons_of_mem f hg))
        (fun g hg => hroom g (List.mem_cons_of_mem f hg)) hendNext
      rw [hpreNext, hrest, ← hlength] at hnext
      have hfile : pre ++ encodeFiles pre.length (f :: rest) ++ post =
          (pre ++ padding 8 0xff pre.length) ++ f.bytes ++
            (encodeFiles (alignUp pre.length 8 + f.size) rest ++ post) := by
        simp only [encodeFiles, List.append_assoc]
      have hsize : readLE (pre ++ encodeFiles pre.length (f :: rest) ++ post)
          (alignUp pre.length 8 + 20) 3 = .ok f.size := by
        rw [hcurrent]
        exact FfsFile.readLE_size hfile
      have htype : readLE (pre ++ encodeFiles pre.length (f :: rest) ++ post)
          (alignUp pre.length 8 + 18) 1 = .ok f.type.toNat := by
        rw [hcurrent]
        exact FfsFile.readLE_type hfile
      have hlarge : sizeofFileHeader + sizeofSectionHeader ≤ f.size :=
        Nat.add_le_add_left (Nat.not_lt.mp (hroom f List.mem_cons_self)) _
      have hin : alignUp pre.length 8 + f.size ≤ endOfVolume := by omega
      rw [List.length_cons, Nat.succ_add]
      by_cases h : f.type = fileType
      · obtain ⟨sections, hcontent⟩ := hsections f List.mem_cons_self h
        rw [h] at htype
        have hmod : (pre ++ padding 8 0xff pre.length).length % 8 = 0 := by
          rw [← hcurrent, alignUp]
          omega
        have hsearch := @FfsFile.search f sections hcontent sectionType _
          (encodeFiles (alignUp pre.length 8 + f.size) rest ++ post) hmod
        rw [← hfile, ← hcurrent] at hsearch
        simp only [findFile, FfsFile.lookup, hcontent, if_pos h]
        cases hfound : findSection sectionType (alignUp pre.length 8 + sizeofFileHeader) 0
          sections with
        | some found =>
            rw [hfound] at hsearch
            exact findFfsFile_found hsize htype hlarge hin hsearch
        | none =>
            rw [hfound] at hsearch
            rw [findFfsFile_notFound hsize htype hlarge hin hsearch]
            exact hnext
      · have hne : f.type.toNat ≠ fileType.toNat := fun heq => h (UInt8.toNat_inj.mp heq)
        rw [findFfsFile_skip hsize htype hne hlarge hin]
        have hskip : findFile fileType sectionType pre.length (f :: rest) =
            findFile fileType sectionType (alignUp pre.length 8 + f.size) rest := by
          simp only [findFile, FfsFile.lookup, if_neg h]
          cases f.content <;> rfl
        rw [hskip]
        exact hnext

/-! ## Volumes are searched -/

/-- A volume: the header up to the length, its attributes, the rest of the header, the
files, and the space that is free behind them. -/
structure FfsVolume where
  head : Bytes
  attributes : Bytes
  tail : Bytes
  files : List FfsFile
  free : Nat
  head_length : head.length = 32
  attributes_length : attributes.length = 4
  headerLength_lt : 50 + tail.length < 2 ^ 16
  size_lt : 50 + tail.length + (encodeFiles (50 + tail.length) files).length + free < 2 ^ 24

namespace FfsVolume

def headerLength (v : FfsVolume) : Nat := 50 + v.tail.length

def endOfFiles (v : FfsVolume) : Nat :=
  v.headerLength + (encodeFiles v.headerLength v.files).length

def size (v : FfsVolume) : Nat := v.endOfFiles + v.free

/-- The files in front of the first one without room for a section. -/
def front (v : FfsVolume) : List FfsFile := v.files.takeWhile fun f => ¬f.HeaderOnly

def header (v : FfsVolume) : Bytes :=
  v.head ++ toLE 8 v.size ++ toLE 4 efiFvhSignature ++ v.attributes ++ toLE 2 v.headerLength ++
    v.tail

def bytes (v : FfsVolume) : Bytes :=
  v.header ++ encodeFiles v.headerLength v.files ++ List.replicate v.free 0xff

/-- The header of the file that is not there would begin in the volume and end behind it. -/
def Full (v : FfsVolume) : Prop :=
  alignUp v.endOfFiles 8 ≤ v.size ∧ v.size < alignUp v.endOfFiles 8 + 23

instance (v : FfsVolume) : Decidable v.Full := inferInstanceAs (Decidable (_ ∧ _))

theorem header_length (v : FfsVolume) : v.header.length = v.headerLength := by
  simp only [header, headerLength, List.length_append, toLE_length, v.head_length,
    v.attributes_length]

theorem bytes_length (v : FfsVolume) : v.bytes.length = v.size := by
  simp only [bytes, size, endOfFiles, List.length_append, v.header_length, List.length_replicate]

theorem readLE_signature (v : FfsVolume) : readLE v.bytes 40 4 = .ok efiFvhSignature := by
  have hobject : v.bytes = (v.head ++ toLE 8 v.size) ++ toLE 4 efiFvhSignature ++ (v.attributes ++
      toLE 2 v.headerLength ++ v.tail ++ encodeFiles v.headerLength v.files ++
      List.replicate v.free 0xff) := by
    simp [bytes, header]
  exact readLE_toLE hobject (by simp [v.head_length]) (by decide)

theorem readLE_fvLength (v : FfsVolume) : readLE v.bytes 32 8 = .ok v.size := by
  have hobject : v.bytes = v.head ++ toLE 8 v.size ++ (toLE 4 efiFvhSignature ++ v.attributes ++
      toLE 2 v.headerLength ++ v.tail ++ encodeFiles v.headerLength v.files ++
      List.replicate v.free 0xff) := by
    simp [bytes, header]
  have hlt : v.size < 256 ^ 8 := Nat.lt_trans v.size_lt (by decide)
  exact readLE_toLE hobject v.head_length.symm hlt

theorem readLE_headerLength (v : FfsVolume) : readLE v.bytes 48 2 = .ok v.headerLength := by
  have hobject : v.bytes = (v.head ++ toLE 8 v.size ++ toLE 4 efiFvhSignature ++ v.attributes) ++
      toLE 2 v.headerLength ++ (v.tail ++ encodeFiles v.headerLength v.files ++
      List.replicate v.free 0xff) := by
    simp [bytes, header]
  exact readLE_toLE hobject (by simp [v.head_length, v.attributes_length]) v.headerLength_lt

/-- The search begins at the first file. -/
theorem findFfsFileAndSection_eq (v : FfsVolume) (fileType sectionType : Nat) :
    findFfsFileAndSection v.bytes fileType sectionType =
      findFfsFile v.bytes fileType sectionType v.size (v.size + 1) v.headerLength := by
  unfold findFfsFileAndSection
  rw [v.readLE_signature, v.readLE_fvLength, v.readLE_headerLength, v.bytes_length]
  dsimp only [bind, Except.bind]
  exact if_neg (not_not.mpr rfl)

/-- The free space reads as a file of the largest size. -/
theorem readLE_free (v : FfsVolume) {off : Nat} (hfree : v.endOfFiles ≤ off)
    (hin : off + 3 ≤ v.size) : readLE v.bytes off 3 = .ok 0xffffff := by
  have hsplit : List.replicate v.free (0xff : UInt8) =
      List.replicate (off - v.endOfFiles) 0xff ++ List.replicate 3 0xff ++
        List.replicate (v.size - off - 3) 0xff := by
    simp only [List.replicate_append_replicate]
    congr 1
    simp only [size] at hin ⊢
    omega
  have hobject : v.bytes = (v.header ++ encodeFiles v.headerLength v.files ++
      List.replicate (off - v.endOfFiles) 0xff) ++ List.replicate 3 0xff ++
        List.replicate (v.size - off - 3) 0xff := by
    rw [bytes, hsplit]
    simp only [List.append_assoc]
  have hoff : off = (v.header ++ encodeFiles v.headerLength v.files ++
      List.replicate (off - v.endOfFiles) (0xff : UInt8)).length := by
    simp only [List.length_append, v.header_length, List.length_replicate]
    simp only [endOfFiles] at hfree ⊢
    omega
  have hvalue : ofLE (List.replicate 3 0xff) = 0xffffff := by simp [ofLE, List.replicate]
  rw [← hvalue]
  exact readLE_middle hobject hoff (List.length_replicate).symm

/-- What the loop does behind the last file. -/
theorem findFfsFile_free (v : FfsVolume) (fileType sectionType fuel : Nat) :
    findFfsFile v.bytes fileType sectionType v.size (fuel + 1) v.endOfFiles =
      if v.Full then .error .fault else .ok none := by
  have hlen := v.bytes_length
  have hlt : v.size < 2 ^ 24 := v.size_lt
  have hheader : 50 ≤ v.headerLength := Nat.le_add_right _ _
  have hfiles : v.headerLength ≤ v.endOfFiles := Nat.le_add_right _ _
  have hle : v.endOfFiles ≤ alignUp v.endOfFiles 8 := le_alignUp (by decide)
  by_cases hbehind : alignUp v.endOfFiles 8 > v.size
  · rw [findFfsFile, if_pos hbehind, if_neg (fun h => absurd h.1 (by omega))]
    rfl
  · by_cases hfull : v.size < alignUp v.endOfFiles 8 + 23
    · rw [findFfsFile, if_neg hbehind, if_pos ⟨by omega, hfull⟩]
      unfold readLE
      rw [copyFrom_fault (by omega)]
      rfl
    · have hsize := v.readLE_free (by omega : v.endOfFiles ≤ alignUp v.endOfFiles 8 + 20)
        (by omega)
      have hlarge : sizeofFileHeader + sizeofSectionHeader ≤ 0xffffff := by
        simp only [sizeofFileHeader, sizeofSectionHeader]
        omega
      rw [if_neg (fun h => hfull h.2)]
      exact findFfsFile_behind (by omega) hsize hlarge (by omega)

theorem front_room (v : FfsVolume) : ∀ f ∈ v.front, ¬f.HeaderOnly := by
  intro f hf
  have hroom := List.mem_takeWhile_imp (p := fun f : FfsFile => ¬f.HeaderOnly) hf
  exact of_decide_eq_true hroom

theorem front_eq (v : FfsVolume) (h : ∀ f ∈ v.files, ¬f.HeaderOnly) : v.front = v.files :=
  List.takeWhile_eq_self_iff.mpr fun f hf => decide_eq_true (h f hf)

/-- What is left behind the front begins with a file without room. -/
theorem files_split (v : FfsVolume) (h : ∃ f ∈ v.files, f.HeaderOnly) :
    ∃ f rest, f.HeaderOnly ∧ v.files = v.front ++ f :: rest := by
  have hsplit := List.takeWhile_append_dropWhile (p := fun f : FfsFile => ¬f.HeaderOnly)
    (l := v.files)
  cases hrest : v.files.dropWhile fun f => ¬f.HeaderOnly with
  | nil =>
      obtain ⟨f, hf, honly⟩ := h
      exact absurd honly (of_decide_eq_true (List.dropWhile_eq_nil_iff.mp hrest f hf))
  | cons f rest =>
      have hhead := List.head_dropWhile_not (fun f : FfsFile => ¬f.HeaderOnly) (l := v.files)
        (by rw [hrest]; exact List.cons_ne_nil f rest)
      simp only [hrest, List.head_cons, decide_eq_false_iff_not, not_not] at hhead
      rw [hrest] at hsplit
      exact ⟨f, rest, hhead, hsplit.symm⟩

/-- Where the search goes on behind the front. -/
theorem search_front (v : FfsVolume) {fileType : UInt8} (sectionType : UInt8)
    (hsections : Sectioned fileType v.front) {rest : Bytes}
    (hfiles : encodeFiles v.headerLength v.files = encodeFiles v.headerLength v.front ++ rest) :
    ∃ fuel, findFfsFileAndSection v.bytes fileType.toNat sectionType.toNat =
      match findFile fileType sectionType v.headerLength v.front with
      | some found => .ok (some found.1)
      | none => findFfsFile v.bytes fileType.toNat sectionType.toNat v.size (fuel + 1)
          (v.headerLength + (encodeFiles v.headerLength v.front).length) := by
  have hinside : v.headerLength + (encodeFiles v.headerLength v.front).length ≤ v.size := by
    rw [size, endOfFiles, hfiles, List.length_append]
    omega
  have hcount : v.front.length ≤ v.size :=
    (length_le_encodeFiles v.headerLength v.front).trans
      ((Nat.le_add_left _ _).trans hinside)
  obtain ⟨fuel, hfuel⟩ := Nat.exists_eq_add_of_le hcount
  have hend : v.header.length + (encodeFiles v.header.length v.front).length ≤ v.size := by
    rw [v.header_length]
    exact hinside
  have hloop := @findFfsFile_encoded _ sectionType _ hsections v.front_room v.header
    (rest ++ List.replicate v.free 0xff) _ (fuel + 1) hend
  have hbytes : v.header ++ encodeFiles v.headerLength v.front ++
      (rest ++ List.replicate v.free 0xff) = v.bytes := by
    rw [bytes, hfiles]
    simp only [List.append_assoc]
  rw [v.header_length, hbytes] at hloop
  refine ⟨fuel, ?_⟩
  rw [v.findFfsFileAndSection_eq, hfuel, Nat.add_assoc, ← hfuel]
  exact hloop

/-- The search through a volume whose files have all room for a section. -/
theorem search (v : FfsVolume) {fileType : UInt8} (sectionType : UInt8)
    (hsections : Sectioned fileType v.front) (hroom : ∀ f ∈ v.files, ¬f.HeaderOnly) :
    findFfsFileAndSection v.bytes fileType.toNat sectionType.toNat =
      match findFile fileType sectionType v.headerLength v.front with
      | some found => .ok (some found.1)
      | none => if v.Full then .error .fault else .ok none := by
  have hfront := v.front_eq hroom
  have hfiles : encodeFiles v.headerLength v.files =
      encodeFiles v.headerLength v.front ++ [] := by
    rw [hfront, List.append_nil]
  obtain ⟨fuel, hsearch⟩ := v.search_front sectionType hsections hfiles
  have hend : v.headerLength + (encodeFiles v.headerLength v.front).length = v.endOfFiles := by
    rw [hfront]
    rfl
  rw [hsearch, hend, v.findFfsFile_free]

/-- The search ends at the first file without room. -/
theorem search_headerOnly (v : FfsVolume) {fileType : UInt8} (sectionType : UInt8)
    (hsections : Sectioned fileType v.front) (hshort : ∃ f ∈ v.files, f.HeaderOnly) :
    findFfsFileAndSection v.bytes fileType.toNat sectionType.toNat =
      match findFile fileType sectionType v.headerLength v.front with
      | some found => .ok (some found.1)
      | none => .ok none := by
  obtain ⟨f, rest, honly, hfiles⟩ := v.files_split hshort
  have hencoded := encodeFiles_append v.headerLength v.front (f :: rest)
  rw [← hfiles] at hencoded
  obtain ⟨fuel, hsearch⟩ := v.search_front sectionType hsections hencoded
  rw [hsearch]
  cases findFile fileType sectionType v.headerLength v.front with
  | some found => rfl
  | none =>
      let pos := v.headerLength + (encodeFiles v.headerLength v.front).length
      have hpre : (v.header ++ encodeFiles v.headerLength v.front ++
          padding 8 0xff pos).length = alignUp pos 8 := by
        rw [List.length_append, List.length_append, v.header_length]
        exact padding_length 0xff (by decide)
      have hbytes : v.bytes = (v.header ++ encodeFiles v.headerLength v.front ++
          padding 8 0xff pos) ++ f.bytes ++ (encodeFiles (alignUp pos 8 + f.size) rest ++
            List.replicate v.free 0xff) := by
        rw [bytes, hencoded, encodeFiles]
        simp only [List.append_assoc]
        rfl
      have hsize := FfsFile.readLE_size hbytes
      rw [hpre] at hsize
      have hin : alignUp pos 8 ≤ v.size := by
        have hlen := congrArg List.length hbytes
        rw [v.bytes_length, List.length_append, List.length_append, hpre] at hlen
        omega
      exact findFfsFile_short hin hsize (Nat.add_lt_add_left honly _)

/-- What stands in the front is found. -/
theorem search_found (v : FfsVolume) {fileType sectionType : UInt8} {start : Nat}
    {s : FfsSection} (hsections : Sectioned fileType v.front)
    (h : findFile fileType sectionType v.headerLength v.front = some (start, s)) :
    findFfsFileAndSection v.bytes fileType.toNat sectionType.toNat = .ok (some start) := by
  by_cases hshort : ∃ f ∈ v.files, f.HeaderOnly
  · rw [v.search_headerOnly sectionType hsections hshort, h]
  · have hroom : ∀ f ∈ v.files, ¬f.HeaderOnly := fun f hf honly => hshort ⟨f, hf, honly⟩
    rw [v.search sectionType hsections hroom, h]

end FfsVolume

/-! ## What is found -/

/-- The section that is found has the type, and stands where it is found. -/
theorem findSection_bytes {type : UInt8} {base pos start : Nat} {sections : List FfsSection}
    {s : FfsSection} {pre : Bytes} (hpre : pre.length = base + pos)
    (h : findSection type base pos sections = some (start, s)) :
    s.type = type ∧ ∃ before after, before.length = start ∧
      pre ++ encodeSections pos sections = before ++ s.bytes ++ after := by
  induction sections generalizing pre pos with
  | nil => cases h
  | cons x rest ih =>
      have hstart : (pre ++ padding 4 0 pos).length = base + alignUp pos 4 := by
        rw [List.length_append, hpre, Nat.add_assoc, padding_length 0 (by decide)]
      unfold findSection at h
      split at h
      · next htype =>
        cases h
        exact ⟨htype, pre ++ padding 4 0 pos, encodeSections (alignUp pos 4 + s.size) rest,
          hstart, by simp only [encodeSections, List.append_assoc]⟩
      · have hnext : (pre ++ padding 4 0 pos ++ x.bytes).length =
            base + (alignUp pos 4 + x.size) := by
          rw [List.length_append, hstart, x.bytes_length, Nat.add_assoc]
        obtain ⟨htype, before, after, hbefore, hbytes⟩ := ih hnext h
        refine ⟨htype, before, after, hbefore, ?_⟩
        rw [← hbytes]
        simp only [encodeSections, List.append_assoc]

theorem FfsFile.lookup_bytes {f : FfsFile} {fileType sectionType : UInt8} {start : Nat}
    {s : FfsSection} {pre : Bytes}
    (h : f.lookup fileType sectionType pre.length = some (start, s)) :
    s.type = sectionType ∧ ∃ before after, before.length = start ∧
      pre ++ f.bytes = before ++ s.bytes ++ after := by
  unfold FfsFile.lookup at h
  split at h
  · next sections hcontent =>
    split at h
    · have hbase : (pre ++ f.header).length = pre.length + sizeofFileHeader + 0 := by
        rw [List.length_append, f.header_length, Nat.add_zero]
      obtain ⟨htype, before, after, hbefore, hbytes⟩ := findSection_bytes hbase h
      refine ⟨htype, before, after, hbefore, ?_⟩
      rw [← hbytes, FfsFile.bytes, hcontent, FfsContent.bytes, List.append_assoc]
    · cases h
  · cases h

theorem findFile_bytes {fileType sectionType : UInt8} {start : Nat} {files : List FfsFile}
    {s : FfsSection} {pre : Bytes}
    (h : findFile fileType sectionType pre.length files = some (start, s)) :
    s.type = sectionType ∧ ∃ before after, before.length = start ∧
      pre ++ encodeFiles pre.length files = before ++ s.bytes ++ after := by
  induction files generalizing pre with
  | nil => cases h
  | cons f rest ih =>
      have hstart : (pre ++ padding 8 0xff pre.length).length = alignUp pre.length 8 := by
        rw [List.length_append, padding_length 0xff (by decide)]
      have hnext : (pre ++ padding 8 0xff pre.length ++ f.bytes).length =
          alignUp pre.length 8 + f.size := by
        rw [List.length_append, hstart, f.bytes_length]
      have hsplit : pre ++ encodeFiles pre.length (f :: rest) =
          pre ++ padding 8 0xff pre.length ++ f.bytes ++
            encodeFiles (alignUp pre.length 8 + f.size) rest := by
        simp only [encodeFiles, List.append_assoc]
      unfold findFile at h
      split at h
      · next found hfound =>
        obtain rfl := Option.some.inj h
        rw [← hstart] at hfound
        obtain ⟨htype, before, after, hbefore, hbytes⟩ := FfsFile.lookup_bytes hfound
        refine ⟨htype, before, after ++ encodeFiles (alignUp pre.length 8 + f.size) rest,
          hbefore, ?_⟩
        rw [hsplit, hbytes]
        simp only [List.append_assoc]
      · rw [← hnext] at h
        obtain ⟨htype, before, after, hbefore, hbytes⟩ := ih h
        refine ⟨htype, before, after, hbefore, ?_⟩
        rw [hsplit, ← hbytes, hnext]

namespace FfsVolume

/-- What is found in the front is the first in the volume. -/
theorem findFile_front {v : FfsVolume} {fileType sectionType : UInt8} {found : Nat × FfsSection}
    (h : findFile fileType sectionType v.headerLength v.front = some found) :
    findFile fileType sectionType v.headerLength v.files = some found := by
  have hsplit : v.files = v.front ++ v.files.dropWhile fun f => ¬f.HeaderOnly :=
    List.takeWhile_append_dropWhile.symm
  rw [hsplit, findFile_append, h]

/-- Where a section is found in a volume, the volume has its bytes. -/
theorem findFile_slice {v : FfsVolume} {fileType sectionType : UInt8} {start : Nat}
    {s : FfsSection} (h : findFile fileType sectionType v.headerLength v.files = some (start, s)) :
    s.type = sectionType ∧ ∃ before after, before.length = start ∧
      v.bytes = before ++ s.bytes ++ after := by
  rw [← v.header_length] at h
  obtain ⟨htype, before, after, hbefore, hbytes⟩ := findFile_bytes h
  rw [v.header_length] at hbytes
  refine ⟨htype, before, after ++ List.replicate v.free 0xff, hbefore, ?_⟩
  rw [bytes, hbytes]
  simp only [List.append_assoc]

end FfsVolume

/-- A pad file of nothing but its header. -/
def padFile : FfsFile where
  name := List.replicate 18 0xff
  type := 0xf0
  attributes := 0
  state := 0xf8
  content := .raw []
  name_length := rfl
  size_lt := by decide

end MeasuredBoot.SrtmPcrs
