import MeasuredBoot.Common.File
import MeasuredBoot.Lib.CText

/-! # Descriptions of GPT headers

`write_gpt_header` of `common/gpt.c`: the fields of a `UEFI_PARTITION_TABLE_HEADER`
as text, for the event log.
-/

namespace MeasuredBoot.SrtmPcrs

open Binary Imperative

/-- The little-endian field of `width` bytes at `off` of the header. -/
def gptField (header : Bytes) (off width : Nat) : Nat := ofLE (slice header off width)

def hexField (header : Bytes) (name : String) (off width : Nat) : Bytes :=
  ascii (name ++ ": 0x") ++ hexNumber (gptField header off width)

def decField (header : Bytes) (name : String) (off width : Nat) : Bytes :=
  ascii (name ++ ": ") ++ decText (gptField header off width)

/-- `write_guid`. -/
def writeGuid (guid : Bytes) : Bytes :=
  hexPadded 8 (gptField guid 0 4) ++ ascii "-" ++ hexPadded 4 (gptField guid 4 2) ++ ascii "-"
    ++ hexPadded 4 (gptField guid 6 2) ++ ascii "-" ++ hexText (slice guid 8 2) ++ ascii "-"
    ++ hexText (slice guid 10 6)

/-- The text of the first `snprintf`. The signature is printed as a string. -/
def gptHead (header : Bytes) : Bytes :=
  ascii "UEFI Partition Table: Signature: " ++ cString header ++ ascii ", "
    ++ hexField header "Revision" 8 4 ++ ascii ", " ++ decField header "HeaderSize" 12 4
    ++ ascii ", " ++ hexField header "HeaderCRC32" 16 4 ++ ascii ", "
    ++ hexField header "MyLBA" 24 8 ++ ascii ", " ++ hexField header "AlternateLBA" 32 8
    ++ ascii ", " ++ hexField header "FirstUsableLBA" 40 8 ++ ascii ", "
    ++ hexField header "LastUsableLBA" 48 8 ++ ascii ", "

/-- The text of the second. -/
def gptDisk (header : Bytes) : Bytes :=
  ascii "DiskGUID: " ++ writeGuid (slice header 56 16) ++ ascii ", "

/-- The text of the third. -/
def gptTail (header : Bytes) : Bytes :=
  hexField header "PartitionEntryLBA" 72 8 ++ ascii ", "
    ++ decField header "NumberOfPartitionEntries" 80 4 ++ ascii ", "
    ++ decField header "SizeOfPartitionEntry" 84 4 ++ ascii ", "
    ++ hexField header "PartitionEntryArrayCRC32" 88 4

def gptBufSize : Nat := 1024

/-- `snprintf` to the position `off` of a buffer that holds `text` up to its NUL. -/
def snprintfAt (text : Bytes) (off : Nat) (more : Bytes) : Bytes :=
  if gptBufSize ≤ off then text else text.take off ++ more.take (gptBufSize - off - 1)

/-- `write_gpt_header`: the text, or none where it returns `NULL`. The length the first
`snprintf` returns is where both others write. -/
def writeGptHeader (allocates : Bool) (header : Bytes) : Except Stop (Option Bytes) :=
  let ret := (gptHead header).length
  if !allocates then .ok none
  else if (0 : UInt8) ∉ header then .error .fault
  else if gptBufSize < ret then .error .fault
  else
    let buf := snprintfAt [] 0 (gptHead header)
    let buf := snprintfAt buf ret (gptDisk header)
    .ok (some (snprintfAt buf ret (gptTail header)))

/-! ## The text -/

theorem gptField_lt (header : Bytes) (off width : Nat) :
    gptField header off width < 256 ^ width := by
  refine Nat.lt_of_lt_of_le (ofLE_lt _) (Nat.pow_le_pow_right (by decide) ?_)
  rw [slice, List.length_take]
  exact Nat.min_le_left ..

section Lengths

variable (header : Bytes) (name : String) (off : Nat)

theorem hexField_length_le (width : Nat) (h : 0 < width) :
    (hexField header name off width).length ≤ (ascii (name ++ ": 0x")).length + 2 * width := by
  have hlt := gptField_lt header off width
  have hbase : 256 ^ width = 16 ^ (2 * width) := by rw [Nat.pow_mul]
  rw [hbase] at hlt
  have hlen := hexNumber_length_le (by omega) hlt
  rw [hexField, List.length_append]
  omega

theorem decField_length_le :
    (decField header name off 4).length ≤ (ascii (name ++ ": ")).length + 10 := by
  have hlt := gptField_lt header off 4
  have hlen := decText_length_le (n := gptField header off 4) (k := 10) (by decide) (by omega)
  rw [decField, List.length_append]
  omega

end Lengths

theorem gptHead_length_le (header : Bytes) :
    (gptHead header).length ≤ 300 + (cString header).length := by
  have hrevision := hexField_length_le header "Revision" 8 4 (by decide)
  have hsize := decField_length_le header "HeaderSize" 12
  have hcrc := hexField_length_le header "HeaderCRC32" 16 4 (by decide)
  have hmy := hexField_length_le header "MyLBA" 24 8 (by decide)
  have halternate := hexField_length_le header "AlternateLBA" 32 8 (by decide)
  have hfirst := hexField_length_le header "FirstUsableLBA" 40 8 (by decide)
  have hlast := hexField_length_le header "LastUsableLBA" 48 8 (by decide)
  simp only [gptHead, List.length_append]
  simp [ascii] at hrevision hsize hcrc hmy halternate hfirst hlast ⊢
  omega

theorem gptTail_length_le (header : Bytes) : (gptTail header).length ≤ 200 := by
  have hlba := hexField_length_le header "PartitionEntryLBA" 72 8 (by decide)
  have hnumber := decField_length_le header "NumberOfPartitionEntries" 80
  have hsize := decField_length_le header "SizeOfPartitionEntry" 84
  have hcrc := hexField_length_le header "PartitionEntryArrayCRC32" 88 4 (by decide)
  simp only [gptTail, List.length_append]
  simp [ascii] at hlba hnumber hsize hcrc ⊢
  omega

/-- The third text overwrites the second: the GUID is not in the description. -/
theorem writeGptHeader_eq {header : Bytes} (hnul : (0 : UInt8) ∈ header)
    (hshort : (cString header).length ≤ 500) :
    writeGptHeader true header = .ok (some (gptHead header ++ gptTail header)) := by
  have hhead := gptHead_length_le header
  have htail := gptTail_length_le header
  have hbuf : gptBufSize = 1024 := rfl
  have hfirst : snprintfAt [] 0 (gptHead header) = gptHead header := by
    rw [snprintfAt, if_neg (by omega), List.take_nil, List.nil_append,
      List.take_of_length_le (by omega)]
  have hsecond : ∃ more, snprintfAt (gptHead header) (gptHead header).length (gptDisk header) =
      gptHead header ++ more := by
    rw [snprintfAt, if_neg (by omega), List.take_length]
    exact ⟨_, rfl⟩
  obtain ⟨more, hmore⟩ := hsecond
  have hthird : snprintfAt (gptHead header ++ more) (gptHead header).length (gptTail header) =
      gptHead header ++ gptTail header := by
    rw [snprintfAt, if_neg (by omega), List.take_left, List.take_of_length_le (by omega)]
  unfold writeGptHeader
  simp only [Bool.not_true, Bool.false_eq_true, if_false, not_not.mpr hnul, hfirst, hmore, hthird,
    if_neg (show ¬gptBufSize < (gptHead header).length by omega)]

/-! ## What the description identifies -/

/-- A header in memory, with a signature of eight characters and a `Revision` whose low byte
ends the string. -/
structure GptHeader where
  bytes : Bytes
  size : 92 ≤ bytes.length
  signature : (0 : UInt8) ∉ slice bytes 0 8
  revision : bytes[8]? = some 0

theorem GptHeader.split (h : GptHeader) :
    h.bytes = slice h.bytes 0 8 ++ 0 :: h.bytes.drop 9 := by
  obtain ⟨hlt, hzero⟩ := List.getElem?_eq_some_iff.mp h.revision
  rw [← hzero, ← List.drop_eq_getElem_cons hlt, slice, List.drop_zero, List.take_append_drop]

theorem GptHeader.cString_eq (h : GptHeader) : cString h.bytes = slice h.bytes 0 8 := by
  rw [h.split, cString_append_nul h.signature, ← h.split]

theorem GptHeader.writeGptHeader_eq (h : GptHeader) :
    writeGptHeader true h.bytes = .ok (some (gptHead h.bytes ++ gptTail h.bytes)) := by
  have hmem : (0 : UInt8) ∈ h.bytes := List.mem_of_getElem? h.revision
  refine SrtmPcrs.writeGptHeader_eq hmem ?_
  rw [h.cString_eq, slice, List.length_take]
  omega

/-- The headers agree in the fields printed as numbers. -/
structure SamePrinted (header header' : Bytes) : Prop where
  revision : gptField header 8 4 = gptField header' 8 4
  headerSize : gptField header 12 4 = gptField header' 12 4
  headerCRC32 : gptField header 16 4 = gptField header' 16 4
  myLBA : gptField header 24 8 = gptField header' 24 8
  alternateLBA : gptField header 32 8 = gptField header' 32 8
  firstUsableLBA : gptField header 40 8 = gptField header' 40 8
  lastUsableLBA : gptField header 48 8 = gptField header' 48 8
  partitionEntryLBA : gptField header 72 8 = gptField header' 72 8
  numberOfPartitionEntries : gptField header 80 4 = gptField header' 80 4
  sizeOfPartitionEntry : gptField header 84 4 = gptField header' 84 4
  partitionEntryArrayCRC32 : gptField header 88 4 = gptField header' 88 4

/-- Two numbers with the same text up to a comma are equal, and so is what follows. -/
theorem number_next {digits digits' rest rest' : Bytes}
    (hdigits : ∀ c ∈ digits, (hexDigitValue c).isSome)
    (hdigits' : ∀ c ∈ digits', (hexDigitValue c).isSome)
    (h : digits ++ (ascii ", " ++ rest) = digits' ++ (ascii ", " ++ rest')) :
    digits = digits' ∧ rest = rest' := by
  have hcomma : ∀ text : Bytes, (∀ c ∈ text, (hexDigitValue c).isSome) → (44 : UInt8) ∉ text :=
    fun text hall hmem => absurd (hall 44 hmem) (by decide)
  obtain ⟨heq, htail⟩ := delimited_injective (hcomma digits hdigits) (hcomma digits' hdigits') h
  have hspace : ascii " " ++ rest = ascii " " ++ rest' := htail
  exact ⟨heq, List.append_cancel_left hspace⟩

section Fields

variable {header header' : Bytes} {name : String} {off width : Nat} {rest rest' : Bytes}

theorem hexField_next (h : hexField header name off width ++ (ascii ", " ++ rest) =
    hexField header' name off width ++ (ascii ", " ++ rest')) :
    gptField header off width = gptField header' off width ∧ rest = rest' := by
  rw [hexField, hexField, List.append_assoc, List.append_assoc] at h
  obtain ⟨hnumber, hrest⟩ := number_next (toDigits_isSome (by decide) (by decide) _)
    (toDigits_isSome (by decide) (by decide) _) (List.append_cancel_left h)
  exact ⟨hexNumber_injective hnumber, hrest⟩

theorem decField_next (h : decField header name off width ++ (ascii ", " ++ rest) =
    decField header' name off width ++ (ascii ", " ++ rest')) :
    gptField header off width = gptField header' off width ∧ rest = rest' := by
  rw [decField, decField, List.append_assoc, List.append_assoc] at h
  obtain ⟨hnumber, hrest⟩ := number_next (toDigits_isSome (by decide) (by decide) _)
    (toDigits_isSome (by decide) (by decide) _) (List.append_cancel_left h)
  exact ⟨decText_injective hnumber, hrest⟩

theorem hexField_last (h : hexField header name off width = hexField header' name off width) :
    gptField header off width = gptField header' off width :=
  hexNumber_injective (List.append_cancel_left h)

end Fields

theorem samePrinted_of_text {h h' : GptHeader} (hsig : slice h.bytes 0 8 = slice h'.bytes 0 8)
    (htext : gptHead h.bytes ++ gptTail h.bytes = gptHead h'.bytes ++ gptTail h'.bytes) :
    SamePrinted h.bytes h'.bytes := by
  simp only [gptHead, gptTail, List.append_assoc, h.cString_eq, h'.cString_eq, hsig] at htext
  have htext := List.append_cancel_left (List.append_cancel_left (List.append_cancel_left htext))
  obtain ⟨hrevision, htext⟩ := hexField_next htext
  obtain ⟨hsize, htext⟩ := decField_next htext
  obtain ⟨hcrc, htext⟩ := hexField_next htext
  obtain ⟨hmy, htext⟩ := hexField_next htext
  obtain ⟨halternate, htext⟩ := hexField_next htext
  obtain ⟨hfirst, htext⟩ := hexField_next htext
  obtain ⟨hlast, htext⟩ := hexField_next htext
  obtain ⟨hlba, htext⟩ := hexField_next htext
  obtain ⟨hnumber, htext⟩ := decField_next htext
  obtain ⟨hentry, htext⟩ := decField_next htext
  exact ⟨hrevision, hsize, hcrc, hmy, halternate, hfirst, hlast, hlba, hnumber, hentry,
    hexField_last htext⟩

/-- Headers that agree in what is printed have one description. -/
theorem text_of_samePrinted {h h' : GptHeader} (hsig : slice h.bytes 0 8 = slice h'.bytes 0 8)
    (hsame : SamePrinted h.bytes h'.bytes) :
    gptHead h.bytes ++ gptTail h.bytes = gptHead h'.bytes ++ gptTail h'.bytes := by
  obtain ⟨hrevision, hsize, hcrc, hmy, halternate, hfirst, hlast, hlba, hnumber, hentry,
    harray⟩ := hsame
  simp only [gptHead, gptTail, hexField, decField, h.cString_eq, h'.cString_eq, hsig, hrevision,
    hsize, hcrc, hmy, halternate, hfirst, hlast, hlba, hnumber, hentry, harray]

/-- Two headers with one signature whose descriptions are the same agree in every field but
the reserved one. -/
def IdentifiesTable (h h' : GptHeader) : Prop :=
  slice h.bytes 0 8 = slice h'.bytes 0 8 → ∀ allocates allocates' text,
    writeGptHeader allocates h.bytes = .ok (some text) →
    writeGptHeader allocates' h'.bytes = .ok (some text) →
    SamePrinted h.bytes h'.bytes ∧ slice h.bytes 56 16 = slice h'.bytes 56 16

theorem writeGptHeader_some {allocates : Bool} {h : GptHeader} {text : Bytes}
    (htext : writeGptHeader allocates h.bytes = .ok (some text)) :
    text = gptHead h.bytes ++ gptTail h.bytes := by
  cases allocates with
  | false => cases htext
  | true =>
      rw [h.writeGptHeader_eq] at htext
      exact (Option.some.inj (Except.ok.inj htext)).symm

/-- What the description does not tell is the GUID of the disk. -/
theorem identifiesTable_iff (h h' : GptHeader) :
    IdentifiesTable h h' ↔
      (slice h.bytes 0 8 = slice h'.bytes 0 8 → SamePrinted h.bytes h'.bytes →
        slice h.bytes 56 16 = slice h'.bytes 56 16) := by
  constructor
  · intro hidentifies hsig hsame
    have htext := h'.writeGptHeader_eq
    rw [← text_of_samePrinted hsig hsame] at htext
    exact (hidentifies hsig true true _ h.writeGptHeader_eq htext).2
  · intro hguid hsig allocates allocates' text htext htext'
    have hsame := samePrinted_of_text hsig
      ((writeGptHeader_some htext).symm.trans (writeGptHeader_some htext'))
    exact ⟨hsame, hguid hsig hsame⟩

/-- A header that is empty but for the GUID of its disk. -/
def headerOfDisk (guid : UInt8) : GptHeader where
  bytes := ascii "EFI PART" ++ zeros 48 ++ [guid] ++ zeros 35
  size := by
    rw [List.length_append, zeros_length]
    exact Nat.le_add_left ..
  signature := by
    show (0 : UInt8) ∉ ascii "EFI PART"
    decide
  revision := rfl

theorem not_identifiesTable_guid : ¬IdentifiesTable (headerOfDisk 1) (headerOfDisk 2) := by
  intro hidentifies
  have hsame : SamePrinted (headerOfDisk 1).bytes (headerOfDisk 2).bytes := by
    constructor <;> decide
  have htext := (headerOfDisk 2).writeGptHeader_eq
  rw [← text_of_samePrinted (h := headerOfDisk 1) (by decide) hsame] at htext
  have hguid := (hidentifies (by decide) true true _ (headerOfDisk 1).writeGptHeader_eq htext).2
  exact absurd hguid (by decide)

end MeasuredBoot.SrtmPcrs
