import Mathlib.Logic.Relation
import MeasuredBoot.Ima.History

/-! # Lengths the IMA parser believes

Neither the second length of an original record nor the length of a field is checked
against the template buffer. What has to hold of a record so that nothing outside the
buffer is touched, field by field, and that a record whose fields do not fit is turned
down.
-/

namespace MeasuredBoot.Ima

open Binary Imperative Imperative.Proc

/-! ## One record -/

/-- Where a field ends that starts at an offset. In the original template the digest has
a fixed length and the name ends with its NUL; any other field is behind its length. -/
def fieldEnd (name data f : Bytes) (offset : Nat) : Nat :=
  if name = ascii "ima" ∧ f = ascii "d" then offset + 20
  else if name = ascii "ima" ∧ f = ascii "n" then
    offset + (cString (data.drop offset)).length + 1
  else offset + 4 + ofLE (slice data offset 4)

/-- The fields follow each other and end in the template data. -/
def FieldsFit (name data : Bytes) : List Bytes → Nat → Prop
  | [], _ => True
  | f :: fs, offset =>
      fieldEnd name data f offset ≤ data.length ∧
        FieldsFit name data fs (fieldEnd name data f offset)

/-- Nothing outside the template buffer is written or read for the record, and if its
fields do not fit, the parser ends with an error. -/
structure RecordInBounds (libs : ImaLibs) (s : ImaRun) : Prop where
  writes : WritesInside (recordName s) (behindName s)
  reads : ∀ data t, readTemplateData (recordName s) (behindName s) = .next data t →
    DigestMatches libs s data → ∃ found,
      ∃ u, getTemplateData libs.modsig (recordName s) data t = .next found u
  reported : ∀ data t, readTemplateData (recordName s) (behindName s) = .next data t →
    ¬FieldsFit (recordName s) data (recordFields s) 0 →
      ∃ u, parseRecord libs (s.rest.take 28) { s with rest := s.rest.drop 28 } = .exit (-1) u

/-- The template data fits its buffer. If it has the digest of the header, every field up
to the name lies in it, and all fields do if one of them is taken for the name. -/
structure RecordFits (libs : ImaLibs) (s : ImaRun) : Prop where
  template : TemplateFits (recordName s) (behindName s)
  fields : DigestMatches libs s (recordData s) →
    WalkInside libs.modsig (recordName s) (recordData s) (recordFields s) 0 none
  misfit : DigestMatches libs s (recordData s) → HasName (recordName s) (recordFields s) →
    FieldsFit (recordName s) (recordData s) (recordFields s) 0

section Record

variable {libs : ImaLibs} {s : ImaRun}

/-- The fields are read where they lie in the template data. -/
theorem getTemplateData_next_iff {t : ImaRun}
    (hread : readTemplateData (recordName s) (behindName s) = .next (recordData s) t) :
    (∃ found u, getTemplateData libs.modsig (recordName s) (recordData s) t = .next found u) ↔
      WalkInside libs.modsig (recordName s) (recordData s) (recordFields s) 0 none := by
  rw [getTemplateData_eq, recordFields_eq hread]
  constructor
  · rintro ⟨found, u, hrun⟩
    cases hloop : fieldLoop libs.modsig (recordName s) (recordData s) (recordFields s) 0 none with
    | error w =>
        rw [hloop] at hrun
        cases hrun
    | ok found => exact inside_of_fieldLoop hloop
  · intro hinside
    obtain ⟨found, hfound, _⟩ := fieldLoop_of_inside hinside
    rw [hfound]
    exact ⟨found, _, rfl⟩

theorem parseRecord_of_mismatch (h : InFront s) {t : ImaRun}
    (hread : readTemplateData (recordName s) (behindName s) = .next (recordData s) t)
    (hdigest : ¬DigestMatches libs s (recordData s)) :
    ∃ u, parseRecord libs (s.rest.take 28) { s with rest := s.rest.drop 28 } = .exit (-1) u := by
  have hfails : (hashBuf libs.sha1 (recordData s)).val ≠ slice (s.rest.take 28) 4 20 := hdigest
  refine ⟨t, ?_⟩
  rw [parseRecord_eq h, bind_apply, hread, andThen_next, finishRecord, exitIf_pos hfails]
  rfl

/-- With the digest right and no read outside, a record is turned down where no name is
found. -/
theorem parseRecord_exit_iff (h : InFront s) {t : ImaRun}
    (hread : readTemplateData (recordName s) (behindName s) = .next (recordData s) t)
    (hdigest : DigestMatches libs s (recordData s))
    (hinside : WalkInside libs.modsig (recordName s) (recordData s) (recordFields s) 0 none) :
    (∃ u, parseRecord libs (s.rest.take 28) { s with rest := s.rest.drop 28 } = .exit (-1) u) ↔
      ¬HasName (recordName s) (recordFields s) := by
  obtain ⟨found, hfound, hname⟩ := fieldLoop_of_inside hinside
  have hpass : ¬(hashBuf libs.sha1 (recordData s)).val ≠ slice (s.rest.take 28) 4 20 :=
    not_not_intro hdigest
  rw [parseRecord_eq h, bind_apply, hread, andThen_next, finishRecord, exitIf_neg hpass, pure_bind,
    bind_apply, getTemplateData_eq, recordFields_eq hread, hfound, lift_ok_apply, andThen_next,
    ← hname]
  cases found with
  | none => simp
  | some text => simp

/-- Nothing is written or read outside, and misfits are reported, exactly for the records
that fit. -/
theorem recordInBounds_iff (h : InFront s) : RecordInBounds libs s ↔ RecordFits libs s := by
  constructor
  · intro hbounds
    have hfits := (writesInside_iff (recordName s)).mp hbounds.writes
    obtain ⟨t, hread⟩ := readTemplateData_next hfits
    have hinside (hdigest : DigestMatches libs s (recordData s)) :=
      (getTemplateData_next_iff hread).mp (hbounds.reads _ t hread hdigest)
    refine ⟨hfits, hinside, fun hdigest hname => ?_⟩
    by_contra hmisfit
    have hexit := hbounds.reported _ t hread hmisfit
    exact (parseRecord_exit_iff h hread hdigest (hinside hdigest)).mp hexit hname
  · intro hfits
    refine ⟨(writesInside_iff (recordName s)).mpr hfits.template, ?_, ?_⟩
    · intro data t hread hdigest
      obtain rfl : data = recordData s := (readTemplateData_run hread).1
      exact (getTemplateData_next_iff hread).mpr (hfits.fields hdigest)
    · intro data t hread hmisfit
      obtain rfl : data = recordData s := (readTemplateData_run hread).1
      by_cases hdigest : DigestMatches libs s (recordData s)
      · exact (parseRecord_exit_iff h hread hdigest (hfits.fields hdigest)).mpr
          (mt (hfits.misfit hdigest) hmisfit)
      · exact parseRecord_of_mismatch h hread hdigest

/-- An original record in bounds fits the fixed buffer. -/
theorem RecordInBounds.originalFits (h : RecordInBounds libs s)
    (hname : recordName s = ascii "ima") : OriginalFits (behindName s).rest := by
  have hfits := (writesInside_iff (recordName s)).mp h.writes
  rwa [hname, TemplateFits, if_pos rfl] at hfits

end Record

/-! ## The whole buffer -/

/-- Where the parser comes to in a buffer, in front of each record. -/
def Reaches (libs : ImaLibs) (templateDataLen : UInt32) (buf : Buffer) (s : ImaRun) : Prop :=
  Relation.ReflTransGen (Round libs) { ImaRun.start templateDataLen with rest := buf.bytes } s

/-- The buffer is decoded without touching anything outside the template buffers, and a
record whose fields do not fit is reported. -/
def InBounds (libs : ImaLibs) (templateDataLen : UInt32) (buf : Buffer) : Prop :=
  ∀ s, Reaches libs templateDataLen buf s → InFront s → RecordInBounds libs s

/-- Decoding stays in bounds exactly where every record fits that the parser comes to. -/
theorem inBounds_iff_fits (libs : ImaLibs) (templateDataLen : UInt32) (buf : Buffer) :
    InBounds libs templateDataLen buf ↔
      ∀ s, Reaches libs templateDataLen buf s → InFront s → RecordFits libs s := by
  unfold InBounds
  constructor
  · intro h s hreaches hfront
    exact (recordInBounds_iff hfront).mp (h s hreaches hfront)
  · intro h s hreaches hfront
    exact (recordInBounds_iff hfront).mpr (h s hreaches hfront)

/-- An original record whose file name has 300 bytes. -/
def longNameLog : Buffer where
  bytes := zeros 24 ++ toLE 4 3 ++ ascii "ima" ++ zeros 20 ++ toLE 4 300 ++ zeros 300
  size_lt := by
    simp only [List.length_append, zeros_length, toLE_length]
    decide

theorem longNameLog_length : longNameLog.bytes.length = 355 := by
  simp only [longNameLog, List.length_append, zeros_length, toLE_length]
  decide

/-- The run in front of that record. -/
def longNameRun : ImaRun := { ImaRun.start 0 with rest := longNameLog.bytes }

theorem not_inBounds_longName : ¬InBounds shaLibs 0 longNameLog := by
  intro h
  have hfront : InFront longNameRun := by
    refine ⟨?_, by decide +kernel⟩
    show 28 ≤ longNameLog.bytes.length
    rw [longNameLog_length]
    decide
  have hstart : Reaches shaLibs 0 longNameLog longNameRun := by
    unfold Reaches longNameRun
    exact Relation.ReflTransGen.refl
  have hname : recordName longNameRun = ascii "ima" := by decide +kernel
  have hlong : ¬OriginalFits (behindName longNameRun).rest := by
    unfold OriginalFits
    decide +kernel
  exact hlong ((h longNameRun hstart hfront).originalFits hname)

end MeasuredBoot.Ima
