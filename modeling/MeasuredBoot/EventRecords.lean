import MeasuredBoot.Ima.Generator
import MeasuredBoot.Lib.JsonReading
import MeasuredBoot.Lib.JsonScalars
import MeasuredBoot.SrtmPcrs.Program
import MeasuredBoot.Tdx.JsonLog

/-! # The three `evlog_add`

Each program formats a record into a buffer of fixed size, with its strings as they are,
and appends what fits to a log. The records are read back as JSON objects.
-/

namespace MeasuredBoot.EventRecords

open Binary Imperative
open Ima (ImaFormat basenamePath imaFormatRecord imaEvlogAdd)

/-! ## Records and objects -/

/-- What one record says. Only one of the programs marks a record as optional. -/
structure Record where
  name : Bytes
  index : Int
  digest : Bytes
  desc : Bytes
  optional : Option Bool
  deriving DecidableEq

/-- What the records of one program have in common; the label stands in front of the
description. -/
structure Shape where
  type : Bytes
  digestKey : Bytes
  label : Int → Bytes
  type_plain : Json.Plain type
  digestKey_plain : Json.Plain digestKey
  label_plain : ∀ index, Json.Plain (label index)

def readOptional : List (Bytes × Json.Value) → Option (Option Bool)
  | [] => some none
  | [(key, .bool optional)] => if key = ascii "optional" then some (some optional) else none
  | _ => none

/-- The record an object stands for, if it has the members of one and no others. -/
def decodeRecord (shape : Shape) : Json.Value → Option Record
  | .object ((typeKey, .string type) :: (nameKey, .string name) :: (indexKey, .number index) ::
      (digestKey, .string digest) :: (descKey, .string desc) :: more) => do
      let keys := [ascii "type", ascii "subtype", ascii "index", shape.digestKey,
        ascii "description"]
      if [typeKey, nameKey, indexKey, digestKey, descKey] = keys ∧ type = shape.type then
        let name ← Json.unescape name
        let index ← Json.readInteger index
        let digest ← readHex digest
        let text ← Json.unescape desc
        let optional ← readOptional more
        if startsWith text (shape.label index) then
          return ⟨name, index, digest, text.drop (shape.label index).length, optional⟩
        else none
      else none
  | _ => none

section Text

variable (shape : Shape)

/-- A line of the object from its key on. -/
def line (key after : Bytes) : Bytes := Json.member (ascii "\n\t") key after

/-- What closes the object behind the description. -/
def recordEnd : Option Bool → Bytes
  | none => ascii "\n\x7d"
  | some optional =>
      44 :: line (ascii "optional") ((if optional then ascii "true" else ascii "false") ++
        ascii "\n" ++ [125])

def descLine (r : Record) (ending : Bytes) : Bytes :=
  line (ascii "description") (34 :: (shape.label r.index ++ r.desc ++ 34 :: ending))

def indexLine (r : Record) (ending : Bytes) : Bytes :=
  line (ascii "index") (Json.integer r.index ++ 44 ::
    line shape.digestKey (Json.quoted (hexText r.digest) ++ 44 :: descLine shape r ending))

def nameLine (r : Record) (ending : Bytes) : Bytes :=
  line (ascii "subtype") (34 :: (r.name ++ 34 :: 44 :: indexLine shape r ending))

/-- The text of a record up to the end of its description, and what follows. -/
def openText (r : Record) (ending : Bytes) : Bytes :=
  123 :: line (ascii "type") (Json.quoted shape.type ++ 44 :: nameLine shape r ending)

/-- The object that is formatted for a record. -/
def recordText (r : Record) : Bytes := openText shape r (recordEnd r.optional)

theorem recordText_append (r : Record) (more : Bytes) :
    recordText shape r ++ more = openText shape r (recordEnd r.optional ++ more) := by
  simp [recordText, openText, nameLine, indexLine, descLine, line, Json.member]

def optionalField : Option Bool → List (Bytes × Json.Value)
  | none => []
  | some optional => [(ascii "optional", .bool optional)]

/-- What the object of a record with plain strings says. -/
def recordValue (r : Record) : Json.Value :=
  .object ([(ascii "type", .string shape.type), (ascii "subtype", .string r.name),
    (ascii "index", .number (Json.integer r.index)),
    (shape.digestKey, .string (hexText r.digest)),
    (ascii "description", .string (shape.label r.index ++ r.desc))] ++ optionalField r.optional)

end Text

/-! ## Records with plain strings -/

section Plain

variable {shape : Shape} {r : Record}

theorem line_blank : Json.Blank (ascii "\n\t") := by decide

theorem reads_bool (optional : Bool) :
    Json.Reads 1 (if optional then ascii "true" else ascii "false") (.bool optional) := by
  intro fuel hfuel rest _
  obtain ⟨fuel, rfl⟩ : ∃ n, fuel = n + 1 := ⟨fuel - 1, by omega⟩
  cases optional <;> rfl

/-- The description and what is behind it. -/
theorem descLine_reads (shape : Shape) (hdesc : Json.Unescaped r.desc) :
    Json.ReadsMembers 3 (descLine shape r (recordEnd r.optional))
      ((ascii "description", .string (shape.label r.index ++ r.desc)) ::
        optionalField r.optional) := by
  have hplain := (shape.label_plain r.index).unescaped.append hdesc
  have htext := Json.Reads.string hplain
  cases hoptional : r.optional with
  | none =>
      have hlast := Json.ReadsMembers.last (ascii "description") (ascii "\n") line_blank
        (by decide) (htext.mono (by decide : 1 ≤ 2)) (by decide)
      rw [descLine]
      simpa [line, recordEnd, Json.quoted, ascii, optionalField] using hlast
  | some optional =>
      have hlast := Json.ReadsMembers.last (ascii "optional") (ascii "\n") line_blank
        (by decide) (reads_bool optional) (by decide)
      have hboth := hlast.cons (ascii "description") line_blank (by decide)
        (htext.mono (by decide : 1 ≤ 2))
      rw [descLine]
      simpa [line, recordEnd, Json.quoted, optionalField] using hboth

theorem recordText_reads (shape : Shape) (hname : Json.Unescaped r.name)
    (hdesc : Json.Unescaped r.desc) :
    Json.Reads 8 (recordText shape r) (recordValue shape r) := by
  have hfour := (descLine_reads shape hdesc).cons shape.digestKey line_blank
    shape.digestKey_plain.unescaped
    ((Json.Reads.string (Json.plain_hexText r.digest).unescaped).mono (by decide))
  have hthree := hfour.cons (ascii "index") line_blank (by decide)
    ((Json.reads_integer r.index).mono (by decide))
  have htwo := hthree.cons (ascii "subtype") line_blank (by decide)
    ((Json.Reads.string hname).mono (by decide))
  have hone := htwo.cons (ascii "type") line_blank (by decide)
    ((Json.Reads.string shape.type_plain.unescaped).mono (by decide))
  have hobject := hone.object line_blank
  rw [recordText, openText, nameLine, indexLine]
  simpa [line, Json.quoted, recordValue] using hobject

theorem readOptional_optionalField (optional : Option Bool) :
    readOptional (optionalField optional) = some optional := by cases optional <;> rfl

theorem decodeRecord_recordValue (hname : Json.Unescaped r.name)
    (hdesc : Json.Unescaped r.desc) : decodeRecord shape (recordValue shape r) = some r := by
  have hplain := (shape.label_plain r.index).unescaped.append hdesc
  have hdrop : (shape.label r.index ++ r.desc).drop (shape.label r.index).length = r.desc :=
    List.drop_left
  simp only [recordValue, List.cons_append, List.nil_append, decodeRecord, true_and, if_true,
    Json.unescape_unescaped hname, Json.readInteger_integer, readHex_hexText,
    Json.unescape_unescaped hplain, readOptional_optionalField, Option.bind_eq_bind,
    Option.bind_some, startsWith_append, hdrop]
  rfl

/-- The object is UTF-8 as far as its strings are. -/
theorem isUtf8_recordText (shape : Shape) (r : Record) :
    Json.isUtf8 (recordText shape r) = true ↔
      Json.isUtf8 r.name = true ∧ Json.isUtf8 r.desc = true := by
  have hquote : (34 : UInt8) < 0x80 := by decide
  have hcomma : (44 : UInt8) < 0x80 := by decide
  have hopen : ∀ text : Bytes, Json.isUtf8 (123 :: text) = Json.isUtf8 text :=
    Json.isUtf8_cons (by decide)
  have hline : ∀ key after : Bytes, Json.isUtf8 (line key after) =
      (Json.isUtf8 key && Json.isUtf8 after) := Json.isUtf8_member (by decide)
  have hkeys : Json.isUtf8 (ascii "type") = true ∧ Json.isUtf8 (ascii "subtype") = true ∧
      Json.isUtf8 (ascii "index") = true ∧ Json.isUtf8 (ascii "description") = true := by decide
  obtain ⟨htype, hsubtype, hindex, hdescription⟩ := hkeys
  have hending : ∀ optional, Json.isUtf8 (recordEnd optional) = true := by
    rintro (_ | _ | _) <;> decide
  have hdesc : Json.isUtf8 (descLine shape r (recordEnd r.optional)) = Json.isUtf8 r.desc := by
    rw [descLine, hline, hdescription, Bool.true_and, Json.isUtf8_cons hquote,
      Json.isUtf8_split hquote, hending, Bool.and_true,
      Json.isUtf8_append (shape.label_plain r.index).utf8]
  have hbehind : Json.isUtf8 (indexLine shape r (recordEnd r.optional)) =
      Json.isUtf8 r.desc := by
    rw [indexLine, hline, Json.isUtf8_split hcomma, hline, Json.isUtf8_split hcomma,
      Json.isUtf8_quoted, hindex, (Json.plain_integer r.index).utf8, shape.digestKey_plain.utf8,
      (Json.plain_hexText r.digest).utf8, hdesc]
    rfl
  rw [recordText, openText, hopen, hline, Json.isUtf8_split hcomma, Json.isUtf8_quoted, nameLine,
    hline, Json.isUtf8_cons hquote, Json.isUtf8_split hquote, Json.isUtf8_cons hcomma, hbehind,
    htype, hsubtype, shape.type_plain.utf8, Bool.true_and, Bool.true_and, Bool.true_and,
    Bool.and_eq_true]

/-- The object of a record with plain strings is read back, and nothing behind it. -/
theorem parse_recordText (hname : Json.Plain r.name) (hdesc : Json.Plain r.desc) :
    Json.parse (recordText shape r) = some (recordValue shape r) := by
  have hlength : 3 ≤ (recordText shape r).length := by
    simp only [recordText, openText, line, Json.member, List.length_cons, List.length_append]
    omega
  have hread := recordText_reads shape hname.unescaped hdesc.unescaped
    (2 * (recordText shape r).length + 2) (by omega) [] fun c hc => by cases hc
  rw [List.append_nil] at hread
  refine Json.parse_eq_some.mpr ⟨(isUtf8_recordText shape r).mpr ⟨hname.utf8, hdesc.utf8⟩, ?_⟩
  unfold Json.document
  rw [hread]
  rfl

end Plain

/-! ## Reading any record back -/

section Decoded

variable {shape : Shape} {r : Record}

/-- The members of an object that is read as a record. -/
structure Decodes (shape : Shape) (fields : List (Bytes × Json.Value)) (r : Record) : Prop where
  members : ∃ name index digest desc more, fields = (ascii "type", .string shape.type) ::
      (ascii "subtype", .string name) :: (ascii "index", .number index) ::
      (shape.digestKey, .string digest) :: (ascii "description", .string desc) :: more ∧
    Json.unescape name = some r.name ∧
    Json.unescape desc = some (shape.label r.index ++ r.desc)

theorem decodes_of_some {value : Json.Value} (h : decodeRecord shape value = some r) :
    ∃ fields, value = .object fields ∧ Decodes shape fields r := by
  unfold decodeRecord at h
  split at h
  · next typeKey type nameKey name indexKey index digestKey digest descKey desc more =>
      dsimp only at h
      split at h
      · next hkeys =>
          simp only [Option.bind_eq_bind, Option.bind_eq_some_iff] at h
          obtain ⟨name', hname, index', hindex, digest', hdigest, text, htext, optional, _, h⟩ := h
          split at h
          · next hlabel =>
              obtain rfl := Option.some.inj h
              obtain ⟨hkeys, rfl⟩ := hkeys
              simp only [List.cons.injEq, and_true] at hkeys
              obtain ⟨rfl, rfl, rfl, rfl, rfl⟩ := hkeys
              rw [startsWith, List.isPrefixOf_iff_prefix] at hlabel
              obtain ⟨tail, rfl⟩ := hlabel
              have hdesc : Json.unescape desc = some (shape.label index' ++
                  (shape.label index' ++ tail).drop (shape.label index').length) := by
                rw [List.drop_left]
                exact htext
              exact ⟨_, rfl, ⟨name, index, digest, desc, more, rfl, hname, hdesc⟩⟩
          · cases h
      · cases h
  · cases h

/-- Where a string of the text ends, its line ends too. -/
theorem stringBody_indexLine (ending : Bytes) :
    Json.stringBody 0 (44 :: indexLine shape r ending) = none := rfl

theorem stringBody_recordEnd (optional : Option Bool) (more : Bytes) :
    Json.stringBody 0 (recordEnd optional ++ more) = none := by cases optional <;> rfl

/-- The name has to be plain to come back, and then the description is read. -/
theorem openText_decodes {fuel : Nat} {ending rest : Bytes} {value : Json.Value} {s : Record}
    (hread : Json.value fuel (openText shape r ending) = some (value, rest))
    (h : decodeRecord shape value = some s) (hname : s.name = r.name) :
    Json.Unescaped r.name ∧ ∃ shown behind, Json.stringBody 0 (shape.label r.index ++ r.desc ++
        34 :: ending) = some (shown, behind) ∧
      Json.unescape shown = some (shape.label s.index ++ s.desc) := by
  obtain ⟨fields, rfl, hdecodes⟩ := decodes_of_some h
  obtain ⟨name, index, digest, desc, tail, rfl, hunescape, hdesc⟩ := hdecodes.members
  obtain ⟨fuel, hread⟩ := Json.value_object hread line_blank
  obtain ⟨fuel, _, hread, hfields⟩ := Json.members_item hread line_blank (by decide)
    (Json.Reads.string shape.type_plain.unescaped)
  cases hfields
  obtain ⟨shown, behind, _, hshown, hfields⟩ := Json.members_string hread line_blank (by decide)
  cases hfields
  rw [hname] at hunescape
  have hplain : Json.Unescaped r.name :=
    Json.unescaped_of_unescape (stringBody_indexLine ending) hshown hunescape
  have hquoted : nameLine shape r ending =
      line (ascii "subtype") (Json.quoted r.name ++ 44 :: indexLine shape r ending) := by
    simp [nameLine, Json.quoted]
  rw [hquoted] at hread
  obtain ⟨fuel, _, hread, hfields⟩ := Json.members_item hread line_blank (by decide)
    (Json.Reads.string hplain)
  cases hfields
  obtain ⟨fuel, _, hread, hfields⟩ := Json.members_item hread line_blank (by decide)
    (Json.reads_integer r.index)
  cases hfields
  obtain ⟨fuel, _, hread, hfields⟩ := Json.members_item hread line_blank
    shape.digestKey_plain.unescaped (Json.Reads.string (Json.plain_hexText r.digest).unescaped)
  cases hfields
  obtain ⟨shown, behind, _, hshown, hfields⟩ := Json.members_string hread line_blank (by decide)
  cases hfields
  exact ⟨hplain, desc, behind, hshown, hdesc⟩

/-- Only a record without anything to escape is read back as itself. -/
theorem unescaped_of_decodes {fuel : Nat} {more rest : Bytes} {value : Json.Value}
    (hread : Json.value fuel (recordText shape r ++ more) = some (value, rest))
    (h : decodeRecord shape value = some r) : Json.Unescaped r.name ∧ Json.Unescaped r.desc := by
  rw [recordText_append] at hread
  obtain ⟨hname, shown, behind, hshown, hdesc⟩ := openText_decodes hread h rfl
  have htext := Json.unescaped_of_unescape (stringBody_recordEnd r.optional more) hshown hdesc
  exact ⟨hname, fun c hc => htext c (List.mem_append_right _ hc)⟩

/-- What stands behind the object of a record. -/
def separator : Bytes := ascii ",\n"

/-- The text has one object and its separator, and the object is read back as the record. -/
def HoldsRecord (shape : Shape) (r : Record) (text : Bytes) : Prop :=
  ∃ object value, text = object ++ separator ∧ Json.parse object = some value ∧
    decodeRecord shape value = some r

theorem le_length_recordText (shape : Shape) (r : Record) : 5 ≤ (recordText shape r).length := by
  simp only [recordText, openText, line, Json.member, List.length_cons, List.length_append]
  have hkey : (ascii "type").length = 4 := by decide
  omega

/-- A text that was cut off at the size of a buffer is read like the whole text. -/
theorem HoldsRecord.read {s : Record} {text : Bytes} {n : Nat} (hn : 5 ≤ n)
    (hlength : 5 ≤ text.length) (h : HoldsRecord shape s (text.take n)) :
    ∃ fuel value rest, 8 ≤ fuel ∧ decodeRecord shape value = some s ∧
      Json.value fuel text = some (value, rest ++ (separator ++ text.drop n)) := by
  obtain ⟨object, value, htext, hparse, hdecode⟩ := h
  obtain ⟨fields, rfl, _⟩ := decodes_of_some hdecode
  have hobject : 3 ≤ object.length := by
    have hcut := congrArg List.length htext
    have hseparator : separator.length = 2 := rfl
    rw [List.length_append, List.length_take] at hcut
    omega
  obtain ⟨rest, hread⟩ := Json.document_extend (Json.parse_eq_some.mp hparse).2
    (separator ++ text.drop n)
  rw [← List.append_assoc, ← htext, List.take_append_drop] at hread
  exact ⟨_, _, rest, by omega, hdecode, hread⟩

/-- What fits of the text of a record is read back as the record if its strings are plain
and all of it fits. -/
theorem holdsRecord_iff {n : Nat} (hn : 5 ≤ n) :
    HoldsRecord shape r ((recordText shape r ++ separator).take n) ↔
      Json.Plain r.name ∧ Json.Plain r.desc ∧ (recordText shape r ++ separator).length ≤ n := by
  constructor
  · intro h
    have hlength : 5 ≤ (recordText shape r ++ separator).length := by
      have hle := le_length_recordText shape r
      rw [List.length_append]
      omega
    obtain ⟨fuel, value, rest, hfuel, hdecode, hread⟩ := h.read hn hlength
    obtain ⟨hname, hdesc⟩ := unescaped_of_decodes hread hdecode
    have hwhole := recordText_reads shape hname hdesc fuel hfuel separator fun c hc => by
      obtain rfl : 44 = c := Option.some.inj hc
      rfl
    rw [hread] at hwhole
    have hrest := congrArg List.length (Prod.mk.inj (Option.some.inj hwhole)).2
    simp only [List.length_append, List.length_drop] at hrest
    have hfits : (recordText shape r ++ separator).length ≤ n := by
      rw [List.length_append]
      omega
    obtain ⟨object, _, htext, hparse, _⟩ := h
    rw [List.take_of_length_le hfits] at htext
    have hobject := List.append_cancel_right htext
    rw [← hobject] at hparse
    have hutf8 := (isUtf8_recordText shape r).mp (Json.parse_eq_some.mp hparse).1
    exact ⟨⟨hname, hutf8.1⟩, ⟨hdesc, hutf8.2⟩, hfits⟩
  · rintro ⟨hname, hdesc, hfits⟩
    exact ⟨recordText shape r, recordValue shape r, List.take_of_length_le hfits,
      parse_recordText hname hdesc, decodeRecord_recordValue hname.unescaped hdesc.unescaped⟩

end Decoded

/-! ## Appending to a log -/

/-- A C string. -/
structure CStr where
  bytes : Bytes
  nul_free : (0 : UInt8) ∉ bytes

section Append

variable {ι : Type} [DecidableEq ι]

/-- Either an error is returned and the log is as it was, or one object with its separator
is appended that is read back as the record. -/
def Survives (shape : Shape) (r : Record) (index : ι) (before : ι → Option Bytes)
    (result : Except Stop (Int × (ι → Option Bytes))) : Prop :=
  ∃ ret after, result = .ok (ret, after) ∧ (ret < 0 ∧ after = before ∨ 0 ≤ ret ∧ ∃ text,
    after = Function.update before index (some ((before index).getD [] ++ text)) ∧
      HoldsRecord shape r text)

variable {shape : Shape} {r : Record} {index : ι} {log : ι → Option Bytes}

theorem update_inj {a b : Option Bytes} :
    Function.update log index a = Function.update log index b ↔ a = b :=
  Function.update_injective log index |>.eq_iff

theorem update_eq_self {a : Option Bytes} :
    Function.update log index a = log ↔ log index = a := by
  constructor
  · intro h
    rw [← h, Function.update_self]
  · rintro rfl
    exact Function.update_eq_self index log

/-- What survives if only the value that is returned is still open. -/
theorem survives_append_iff {ret : Int} {text : Bytes} (hne : text ≠ []) :
    Survives shape r index log
        (.ok (ret, Function.update log index (some ((log index).getD [] ++ text)))) ↔
      0 ≤ ret ∧ HoldsRecord shape r text := by
  constructor
  · rintro ⟨ret', after, hresult, hsurvives⟩
    obtain ⟨rfl, rfl⟩ := Prod.mk.inj (Except.ok.inj hresult)
    rcases hsurvives with ⟨_, hsame⟩ | ⟨hret, text', hafter, hholds⟩
    · have hlog := congrArg (fun text => (text.getD []).length) (update_eq_self.mp hsame)
      have hpos := List.length_pos_iff.mpr hne
      simp only [Option.getD_some, List.length_append] at hlog
      omega
    · have htext := Option.some.inj (update_inj.mp hafter)
      rw [List.append_cancel_left htext]
      exact ⟨hret, hholds⟩
  · rintro ⟨hret, hholds⟩
    exact ⟨ret, _, rfl, Or.inr ⟨hret, text, rfl, hholds⟩⟩

theorem survives_lost_iff {ret : Int} :
    Survives shape r index log (.ok (ret, Function.update log index none)) ↔
      ret < 0 ∧ log index = none := by
  constructor
  · rintro ⟨ret', after, hresult, hsurvives⟩
    obtain ⟨rfl, rfl⟩ := Prod.mk.inj (Except.ok.inj hresult)
    rcases hsurvives with ⟨hret, hsame⟩ | ⟨_, text, hafter, _⟩
    · exact ⟨hret, update_eq_self.mp hsame⟩
    · cases update_inj.mp hafter
  · rintro ⟨hret, hlog⟩
    exact ⟨ret, _, rfl, Or.inl ⟨hret, update_eq_self.mpr hlog⟩⟩

end Append

/-! ## The functions -/

/-- The label of the registers of the TPM. -/
def pcrLabel (index : Int) : Bytes := ascii "PCR" ++ Json.integer index ++ ascii ": "

def mrLabel (index : Int) : Bytes := Tdx.indexToMr index.toNat ++ ascii ": "

def srtmShape : Shape where
  type := ascii "TPM Reference Value"
  digestKey := ascii "sha256"
  label := pcrLabel
  type_plain := by decide
  digestKey_plain := by decide
  label_plain index := (Json.Plain.append (by decide) (Json.plain_integer index)).append (by decide)

def tdxShape : Shape where
  type := ascii "TDX Reference Value"
  digestKey := ascii "sha384"
  label := mrLabel
  type_plain := by decide
  digestKey_plain := by decide
  label_plain index := (Tdx.indexToMr_plain index.toNat).append (by decide)

def imaShape : Shape where
  type := ascii "TPM Reference Value"
  digestKey := ascii "sha256"
  label := fun _ => []
  type_plain := by decide
  digestKey_plain := by decide
  label_plain _ := by decide

/-- The object of a record of calculate-srtm-pcrs. -/
theorem srtm_formatRecord (e : LogEntry 32) : SrtmPcrs.formatRecord e .json =
    recordText srtmShape ⟨e.name, e.index, e.hash.val, e.desc, none⟩ ++ separator := by
  simp [SrtmPcrs.formatRecord, recordText, openText, nameLine, indexLine, descLine, line,
    Json.member, Json.quoted, recordEnd, separator, srtmShape, pcrLabel, Json.integer_natCast,
    ascii]

/-- The object of a record of calculate-tdx-mrs. -/
theorem tdx_formatRecord (e : LogEntry 48) : Tdx.formatRecord e .json =
    recordText tdxShape ⟨e.name, e.index, e.hash.val, e.desc, none⟩ ++ separator := by
  simp [Tdx.formatRecord, recordText, openText, nameLine, indexLine, descLine, line,
    Json.member, Json.quoted, recordEnd, separator, tdxShape, mrLabel, Json.integer_natCast,
    ascii]

theorem ima_formatRecord (pcr : Int) (hash path : Bytes) (optional : Bool) :
    imaFormatRecord pcr hash path optional .json = recordText imaShape
      ⟨basename path, pcr, hash, basenamePath path, some optional⟩ ++ separator := by
  cases optional <;>
    simp [imaFormatRecord, recordText, openText, nameLine, indexLine, descLine, line,
      Json.member, Json.quoted, recordEnd, separator, imaShape, ascii]

/-! ## Which records survive -/

section Survival

variable {ι : Type} [DecidableEq ι] {shape : Shape} {r : Record}

theorem text_ne_nil (shape : Shape) (r : Record) : recordText shape r ++ separator ≠ [] := by
  have hne : recordText shape r ≠ [] := List.cons_ne_nil _ _
  exact List.append_ne_nil_of_left_ne_nil hne _

theorem cutText_ne_nil {size : Nat} (hsize : 6 ≤ size) (shape : Shape) (r : Record) :
    (recordText shape r ++ separator).take (size - 1) ≠ [] := by
  have hpos := List.length_pos_iff.mpr (text_ne_nil shape r)
  apply List.ne_nil_of_length_pos
  rw [List.length_take]
  omega

theorem survives_appendText_iff {size : Nat} (hsize : 6 ≤ size) (hle : size ≤ 2 ^ 31)
    (alloc : Allocations) (log : ι → Option Bytes) (index : ι) :
    Survives shape r index log
        (.ok (appendText size (recordText shape r ++ separator) alloc log index)) ↔
      if alloc.log then Json.Plain r.name ∧ Json.Plain r.desc ∧
        (recordText shape r ++ separator).length < size
      else log index = none := by
  obtain ⟨ret, hret, hrun⟩ := appendText_eq hle (text_ne_nil shape r) alloc log index
  rw [hrun]
  cases alloc.log with
  | true =>
      rw [if_pos rfl, if_pos rfl, survives_append_iff (cutText_ne_nil hsize shape r),
        holdsRecord_iff (by omega)]
      constructor
      · rintro ⟨_, hname, hdesc, hfits⟩
        exact ⟨hname, hdesc, by omega⟩
      · rintro ⟨hname, hdesc, hfits⟩
        exact ⟨hret hfits, hname, hdesc, by omega⟩
  | false =>
      rw [if_neg Bool.false_ne_true, if_neg Bool.false_ne_true, survives_lost_iff]
      exact and_iff_right (by decide)

theorem not_survives_fault (index : ι) (log : ι → Option Bytes) :
    ¬Survives shape r index log (.error .fault) := by
  rintro ⟨_, _, hresult, _⟩
  cases hresult

end Survival

theorem srtmEvlogAdd_survives_iff (alloc : Allocations) (log : Nat → Option Bytes)
    (index : UInt32) (name : Bytes) (hash : Digest 32) (desc : Bytes) :
    Survives srtmShape ⟨name, index.toNat, hash.val, desc, none⟩ index.toNat log
        (SrtmPcrs.srtmEvlogAdd .json alloc log ⟨index.toNat, name, hash, desc⟩) ↔
      alloc.hex = true ∧ index.toNat < SrtmPcrs.maxPcrs ∧
        if alloc.log then Json.Plain name ∧ Json.Plain desc ∧
          (SrtmPcrs.formatRecord ⟨index.toNat, name, hash, desc⟩ .json).length < 4096
        else log index.toNat = none := by
  unfold SrtmPcrs.srtmEvlogAdd
  cases alloc.hex with
  | false => simp [not_survives_fault]
  | true =>
      by_cases hindex : SrtmPcrs.maxPcrs ≤ index.toNat
      · simp [not_survives_fault, hindex]
      · rw [srtm_formatRecord, Bool.not_true, if_neg Bool.false_ne_true, if_neg hindex,
          survives_appendText_iff (by decide) (by decide)]
        simp [Nat.lt_of_not_le hindex]

theorem tdxEvlogAdd_survives_iff (alloc : Allocations) (log : Nat → Option Bytes)
    (index : UInt32) (name : Bytes) (hash : Digest 48) (desc : Bytes) :
    Survives tdxShape ⟨name, index.toNat, hash.val, desc, none⟩ index.toNat log
        (Tdx.tdxEvlogAdd .json alloc log ⟨index.toNat, name, hash, desc⟩) ↔
      alloc.hex = true ∧ index.toNat < Tdx.mrLen ∧
        if alloc.log then Json.Plain name ∧ Json.Plain desc ∧
          (Tdx.formatRecord ⟨index.toNat, name, hash, desc⟩ .json).length < 1024
        else log index.toNat = none := by
  unfold Tdx.tdxEvlogAdd Tdx.recordSize
  cases alloc.hex with
  | false => simp [not_survives_fault]
  | true =>
      by_cases hindex : Tdx.mrLen ≤ index.toNat
      · simp [not_survives_fault, hindex]
      · rw [tdx_formatRecord, Bool.not_true, if_neg Bool.false_ne_true, if_neg hindex,
          survives_appendText_iff (by decide) (by decide)]
        simp [Nat.lt_of_not_le hindex]

/-! ## Paths -/

/-- What stands in front of ASCII characters. -/
theorem isUtf8_front {xs ys : Bytes} (hys : ∀ c ∈ ys, c < 0x80)
    (h : Json.isUtf8 (xs ++ ys) = true) : Json.isUtf8 xs = true := by
  cases ys with
  | nil => rwa [List.append_nil] at h
  | cons c ys =>
      rw [Json.isUtf8_split (hys c List.mem_cons_self), Bool.and_eq_true] at h
      exact h.1

/-- What stands behind the last slash. -/
theorem isUtf8_lastPart {path : Bytes} (h : Json.isUtf8 path = true) :
    Json.isUtf8 (path.reverse.takeWhile (· ≠ 47)).reverse = true := by
  have hpath : path = (path.reverse.dropWhile (· ≠ 47)).reverse ++
      (path.reverse.takeWhile (· ≠ 47)).reverse := by
    rw [← List.reverse_append, List.takeWhile_append_dropWhile, List.reverse_reverse]
  cases hbehind : path.reverse.dropWhile (· ≠ 47) with
  | nil =>
      rw [hbehind] at hpath
      rwa [List.reverse_nil, List.nil_append, ← hpath] at *
  | cons c front =>
      have hslash : c = 47 := by
        have hhead := List.head?_dropWhile_not (· ≠ (47 : UInt8)) path.reverse
        rw [hbehind] at hhead
        simpa using hhead
      have hc : c < 0x80 := by
        rw [hslash]
        decide
      rw [hpath, hbehind, List.reverse_cons, List.append_assoc, List.singleton_append,
        Json.isUtf8_split hc, Bool.and_eq_true] at h
      exact h.2

theorem basename_plain {path : Bytes} (h : Json.Plain path) : Json.Plain (basename path) := by
  have hpath : path = (path.reverse.dropWhile (· = 47)).reverse ++
      (path.reverse.takeWhile (· = 47)).reverse := by
    rw [← List.reverse_append, List.takeWhile_append_dropWhile, List.reverse_reverse]
  have hslashes : ∀ c ∈ (path.reverse.takeWhile (· = 47)).reverse, c < 0x80 := by
    intro c hc
    have hslash := List.mem_takeWhile_imp (List.mem_reverse.mp hc)
    rw [of_decide_eq_true hslash]
    decide
  unfold basename
  dsimp only
  split_ifs
  · decide
  · decide
  · constructor
    · intro c hc
      have hstripped := List.mem_reverse.mp hc
      have hmem := List.dropWhile_subset _ (List.takeWhile_subset _ hstripped)
      exact h.unescaped c (List.mem_reverse.mp hmem)
    · have hfront := h.utf8
      rw [hpath] at hfront
      have hlast := isUtf8_lastPart (isUtf8_front hslashes hfront)
      rwa [List.reverse_reverse] at hlast

/-- Only trailing slashes are lost. -/
theorem basenamePath_length (path : Bytes) : (basenamePath path).length ≤ path.length ∧
    ((basenamePath path).length = path.length → basenamePath path = path) := by
  unfold basenamePath
  dsimp only
  split
  · exact ⟨Nat.le_refl _, fun _ => rfl⟩
  · have hsuffix : path.reverse.dropWhile (· = 47) <:+ path.reverse := List.dropWhile_suffix _
    have hle := hsuffix.length_le
    rw [List.length_reverse] at hle ⊢
    refine ⟨hle, fun hlength => ?_⟩
    have hsame := hsuffix.eq_of_length (by rw [List.length_reverse]; exact hlength)
    rw [hsame, List.reverse_reverse]

/-- A path with a trailing slash is not read back. -/
theorem basenamePath_of_holds {pcr : Int} {hash path : Bytes} {optional : Option Bool} {n : Nat}
    (hn : 5 ≤ n) (h : HoldsRecord imaShape ⟨basename path, pcr, hash, path, optional⟩
      ((recordText imaShape ⟨basename path, pcr, hash, basenamePath path, optional⟩ ++
        separator).take n)) : basenamePath path = path := by
  have hlength := le_length_recordText imaShape
    ⟨basename path, pcr, hash, basenamePath path, optional⟩
  obtain ⟨fuel, value, rest, _, hdecode, hread⟩ := h.read hn (by rw [List.length_append]; omega)
  rw [recordText_append] at hread
  obtain ⟨_, shown, behind, hshown, hdesc⟩ := openText_decodes hread hdecode rfl
  have hprefix := (Json.stringBody_prefix (stringBody_recordEnd _ _) hshown).length_le
  have hlong := (Json.unescapeFrom_length hdesc).1
  have hempty : ∀ index, imaShape.label index = [] := fun _ => rfl
  rw [hempty, List.nil_append] at hprefix hlong
  obtain ⟨hle, hsame⟩ := basenamePath_length path
  exact hsame (by dsimp only at hprefix hlong; omega)

theorem imaEvlogAdd_survives_iff (alloc : Allocations) (log : Unit → Option Bytes) (pcr : Int)
    (path hash : Bytes) (optional : Bool) :
    Survives imaShape ⟨basename path, pcr, hash, path, some optional⟩ () log
        (imaEvlogAdd .json alloc log pcr path hash optional) ↔
      alloc.hex = true ∧ alloc.log = true ∧ Json.Plain path ∧ basenamePath path = path ∧
        (imaFormatRecord pcr hash path optional .json).length < 1024 := by
  unfold imaEvlogAdd
  cases alloc.hex with
  | false => simp [not_survives_fault]
  | true =>
      obtain ⟨_, _, hrun⟩ := appendText_eq (by decide : 1024 ≤ 2 ^ 31) (text_ne_nil imaShape
        ⟨basename path, pcr, hash, basenamePath path, some optional⟩) alloc log ()
      rw [ima_formatRecord, hrun, Bool.not_true, if_neg Bool.false_ne_true]
      cases alloc.log with
      | false =>
          rw [if_neg Bool.false_ne_true, survives_lost_iff]
          simp
      | true =>
          rw [if_pos rfl, survives_append_iff (cutText_ne_nil (by decide) _ _)]
          constructor
          · rintro ⟨_, hholds⟩
            have hpath := basenamePath_of_holds (by decide) hholds
            rw [hpath] at hholds ⊢
            obtain ⟨_, hdesc, hfits⟩ := (holdsRecord_iff (by decide)).mp hholds
            exact ⟨rfl, rfl, hdesc, rfl, Nat.lt_succ_of_le hfits⟩
          · rintro ⟨_, _, hplain, hpath, hfits⟩
            rw [hpath] at hfits ⊢
            exact ⟨Int.le_refl 0, (holdsRecord_iff (by decide)).mpr
              ⟨basename_plain hplain, hplain, Nat.le_of_lt_succ hfits⟩⟩

/-- In each of the three programs a record survives if the memory for the digest is there,
its strings need no escapes and the whole of it fits the buffer. Where there is no memory
for the log, nothing may be logged yet, and one of the programs does not say so. -/
theorem evlogAdd_survives_iff (alloc : Allocations) (name desc path : CStr) :
    (∀ (log : Nat → Option Bytes) (index : UInt32) (hash : Digest 32),
      Survives srtmShape ⟨name.bytes, index.toNat, hash.val, desc.bytes, none⟩ index.toNat log
          (SrtmPcrs.srtmEvlogAdd .json alloc log ⟨index.toNat, name.bytes, hash, desc.bytes⟩) ↔
        alloc.hex = true ∧ index.toNat < SrtmPcrs.maxPcrs ∧
          if alloc.log then Json.Plain name.bytes ∧ Json.Plain desc.bytes ∧
            (SrtmPcrs.formatRecord ⟨index.toNat, name.bytes, hash, desc.bytes⟩ .json).length < 4096
          else log index.toNat = none) ∧
    (∀ (log : Nat → Option Bytes) (index : UInt32) (hash : Digest 48),
      Survives tdxShape ⟨name.bytes, index.toNat, hash.val, desc.bytes, none⟩ index.toNat log
          (Tdx.tdxEvlogAdd .json alloc log ⟨index.toNat, name.bytes, hash, desc.bytes⟩) ↔
        alloc.hex = true ∧ index.toNat < Tdx.mrLen ∧
          if alloc.log then Json.Plain name.bytes ∧ Json.Plain desc.bytes ∧
            (Tdx.formatRecord ⟨index.toNat, name.bytes, hash, desc.bytes⟩ .json).length < 1024
          else log index.toNat = none) ∧
    ∀ (log : Unit → Option Bytes) (pcr : Int) (hash : Bytes) (optional : Bool),
      Survives imaShape ⟨basename path.bytes, pcr, hash, path.bytes, some optional⟩ () log
          (imaEvlogAdd .json alloc log pcr path.bytes hash optional) ↔
        alloc.hex = true ∧ alloc.log = true ∧ Json.Plain path.bytes ∧
          basenamePath path.bytes = path.bytes ∧
          (imaFormatRecord pcr hash path.bytes optional .json).length < 1024 :=
  ⟨fun log index hash => srtmEvlogAdd_survives_iff alloc log index name.bytes hash desc.bytes,
    fun log index hash => tdxEvlogAdd_survives_iff alloc log index name.bytes hash desc.bytes,
    fun log pcr hash optional => imaEvlogAdd_survives_iff alloc log pcr path.bytes hash optional⟩

/-- A command with a quoted argument. -/
def quotedCmd : Bytes := ascii "linux /vmlinuz \"quiet\""

/-- Logged for PCR 8 the command is not read back. -/
theorem not_survives_quotedCmd : ¬Survives srtmShape
    ⟨ascii "EV_IPL", 8, (zeroDigest 32).val, quotedCmd, none⟩ 8 (fun _ => none)
    (SrtmPcrs.srtmEvlogAdd .json ⟨true, true⟩ (fun _ => none)
      ⟨8, ascii "EV_IPL", zeroDigest 32, quotedCmd⟩) := by
  intro h
  have hplain := (srtmEvlogAdd_survives_iff ⟨true, true⟩ (fun _ => none) 8 (ascii "EV_IPL")
    (zeroDigest 32) quotedCmd).mp h
  exact absurd hplain.2.2.2.1 (by decide)

end MeasuredBoot.EventRecords
