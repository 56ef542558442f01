import MeasuredBoot.Ima.RoundTrip

/-! # The template table

Records of every template of the table, with the fields its format names. The table
has a descriptor for the original template, but no branch of `get_template_data` finds
a file name in it.
-/

namespace MeasuredBoot.Ima

open Binary Imperative Imperative.Proc

/-! ## Records of known templates -/

/-- The entries of `ima_template_desc`. -/
inductive KnownTemplate where
  | ima
  | imaNg
  | imaSig
  | imaModsig
  deriving DecidableEq, Repr

namespace KnownTemplate

def name : KnownTemplate → Bytes
  | ima => ascii "ima"
  | imaNg => ascii "ima-ng"
  | imaSig => ascii "ima-sig"
  | imaModsig => ascii "ima-modsig"

def fmt : KnownTemplate → Bytes
  | ima => ascii "d|n"
  | imaNg => ascii "d-ng|n-ng"
  | imaSig => ascii "d-ng|n-ng|sig"
  | imaModsig => ascii "d-ng|n-ng|sig|d-modsig|modsig"

/-- The fields of a record, in order. -/
def fields (t : KnownTemplate) : List Bytes := strsepAll 124 t.fmt

theorem name_le (t : KnownTemplate) : t.name.length ≤ eventNameLenMax := by cases t <;> decide

theorem cString_name (t : KnownTemplate) : cString t.name = t.name := by cases t <;> decide

theorem name_eq_ima (t : KnownTemplate) : t.name = ascii "ima" ↔ t = ima := by
  cases t <;> decide

theorem known (t : KnownTemplate) : unknownTemplate (cString t.name) = false := by
  cases t <;> decide

theorem fmtOf_name (t : KnownTemplate) : fmtOf false t.name = t.fmt := by cases t <;> decide

end KnownTemplate

/-- A digest behind the name of its algorithm. -/
def IsDigest (content : Bytes) : Prop :=
  ∃ algo digest : Bytes, (0 : UInt8) ∉ algo ∧ content = algo ++ 0 :: digest

/-- What the kernel puts into a field of a file's record. Signatures may be anything. -/
structure FieldHolds (fileName f content : Bytes) : Prop where
  d : f = ascii "d" → content.length = 20
  n : f = ascii "n" → content = fileName ∧ fileName.length ≤ eventNameLenMax
  dNg : f = ascii "d-ng" → IsDigest content
  nNg : f = ascii "n-ng" → content = fileName ++ [0]
  dModsig : f = ascii "d-modsig" → content = [] ∨ IsDigest content

theorem FieldHolds.digest {fileName content : Bytes} (h : content.length = 20) :
    FieldHolds fileName (ascii "d") content where
  d _ := h
  n hf := absurd hf (by decide)
  dNg hf := absurd hf (by decide)
  nNg hf := absurd hf (by decide)
  dModsig hf := absurd hf (by decide)

theorem FieldHolds.eventName {fileName : Bytes} (h : fileName.length ≤ eventNameLenMax) :
    FieldHolds fileName (ascii "n") fileName where
  d hf := absurd hf (by decide)
  n _ := ⟨rfl, h⟩
  dNg hf := absurd hf (by decide)
  nNg hf := absurd hf (by decide)
  dModsig hf := absurd hf (by decide)

/-- Fields behind their lengths. -/
def sizedFields (content : Bytes → Bytes) (fs : List Bytes) : Bytes :=
  fs.flatMap fun f => toLE 4 (content f).length ++ content f

theorem sizedFields_cons (content : Bytes → Bytes) (f : Bytes) (fs : List Bytes) :
    sizedFields content (f :: fs) =
      toLE 4 (content f).length ++ (content f ++ sizedFields content fs) := by
  rw [sizedFields, List.flatMap_cons, List.append_assoc]
  rfl

/-- A file and what the fields of its record hold. -/
structure TemplateRecord where
  template : KnownTemplate
  pcr : Bytes
  fileName : Bytes
  content : Bytes → Bytes
  pcr_length : pcr.length = 4
  nul_free : (0 : UInt8) ∉ fileName
  holds : ∀ f ∈ template.fields, FieldHolds fileName f (content f)
  length_lt : (sizedFields content template.fields).length < 2 ^ 31

namespace TemplateRecord

/-- Only the original template has no lengths in front of its fields, but for that of
the file name. -/
def body (r : TemplateRecord) : RecordBody :=
  if h : r.template = .ima then
    .original (r.content (ascii "d")) (r.content (ascii "n"))
      ((r.holds (ascii "d") (by rw [h]; decide)).d rfl)
      (by
        obtain ⟨hname, hle⟩ := (r.holds (ascii "n") (by rw [h]; decide)).n rfl
        rw [hname]
        exact Nat.le_succ_of_le hle)
  else .sized (sizedFields r.content r.template.fields) r.length_lt

theorem body_kind (r : TemplateRecord) :
    r.body.isOriginal = decide (cString r.template.name = ascii "ima") := by
  rw [r.template.cString_name, decide_eq_decide.mpr r.template.name_eq_ima]
  unfold body
  split
  · next h => exact (decide_eq_true h).symm
  · next h => exact (decide_eq_false h).symm

/-- The record in the log, with its digest. -/
def record (sha1 : Md 20) (r : TemplateRecord) : ImaRecord where
  pcr := r.pcr
  digest := (sha1 r.body.templateData).val
  name := r.template.name
  body := r.body
  pcr_length := r.pcr_length
  digest_length := (sha1 r.body.templateData).property
  name_le := r.template.name_le
  body_kind := r.body_kind

end TemplateRecord

/-- A fresh process reads the log to its end, and prints one entry for each record,
with its file name. -/
def DecodesLog (libs : ImaLibs) (records : List TemplateRecord) : Prop :=
  ∀ len, ∃ entries, parsed libs len (logBytes (records.map (TemplateRecord.record libs.sha1)))
    = some entries ∧ entries.map (·.description) = records.map (·.fileName)

/-! ## The original template -/

/-- No field of the original template gives a name. -/
theorem fieldLoop_ima (modsig : Bytes → Bool) (data : Bytes) (fs : List Bytes) (offset : UInt32)
    (digest : Option DigestField) (text : Bytes) :
    fieldLoop modsig (ascii "ima") data fs offset digest ≠ .ok (some text) := by
  induction fs generalizing offset digest with
  | nil => simp [fieldLoop]
  | cons f fs ih =>
      have hskip : ∀ off len, fieldStep modsig (ascii "ima") data f off len digest
          = .ok (.next (off + len) digest) := by
        intro off len
        unfold fieldStep
        rw [if_neg (by decide), if_neg (by decide), if_neg (by decide)]
      rw [fieldLoop]
      cases fieldLength (ascii "ima") data f offset with
      | error w => simp [bind, Except.bind]
      | ok field =>
          obtain ⟨len, off⟩ := field
          simp only [bind, Except.bind, hskip]
          exact ih (off + len) digest

theorem recordEntry_ima {libs : ImaLibs} {r : TemplateRecord} (h : r.template = .ima)
    (fmtIsName : Bool) : recordEntry libs fmtIsName (r.record libs.sha1) = none := by
  rw [Option.eq_none_iff_forall_ne_some]
  intro entry hentry
  obtain ⟨_, text, htext, _⟩ := recordEntry_eq_some.mp hentry
  have hname : cString (r.record libs.sha1).name = ascii "ima" := by
    show cString r.template.name = ascii "ima"
    rw [h]
    decide
  rw [hname] at htext
  exact fieldLoop_ima libs.modsig _ _ _ _ text htext

/-! ## The other templates -/

section Sized

variable {content : Bytes → Bytes} {fileName : Bytes} {fs : List Bytes}

theorem fieldLength_first {name f : Bytes} {pre : Bytes} {offset : UInt32}
    (hname : name ≠ ascii "ima") (hoff : offset.toNat = pre.length)
    (hlt : (pre ++ sizedFields content (f :: fs)).length < 2 ^ 31) :
    fieldLength name (pre ++ sizedFields content (f :: fs)) f offset =
      .ok (UInt32.ofNat (content f).length, offset + 4) := by
  have hlen : (content f).length < 256 ^ 4 := by
    rw [sizedFields_cons] at hlt
    simp only [List.length_append] at hlt
    omega
  have hread : readAt (pre ++ sizedFields content (f :: fs)) offset 4 =
      .ok (toLE 4 (content f).length) := by
    rw [sizedFields_cons, ← List.append_assoc]
    rw [List.length_append] at hlt
    exact readAt_middle hoff (by omega) (toLE_length _ _)
  rw [fieldLength_sized hname hread, ofLE_toLE_of_lt hlen]

/-- The digest field is passed over. -/
theorem fieldStep_dNg (modsig : Bytes → Bool) {t : KnownTemplate} (ht : t ≠ .ima)
    {data : Bytes} {offset : UInt32} (len : UInt32) {algoLen : UInt32}
    (halgo : strlenAt data offset = .ok algoLen) :
    ∃ digest, fieldStep modsig t.name data (ascii "d-ng") offset len none =
      .ok (.next (offset + len) digest) := by
  have hdigest : digestField data offset len =
      .ok ⟨offset + (algoLen + 1), len - (algoLen + 1)⟩ := by
    unfold digestField
    rw [halgo]
    rfl
  unfold fieldStep
  dsimp only
  rw [hdigest]
  cases t with
  | ima => exact absurd rfl ht
  | imaNg =>
      rw [if_neg (by decide), if_neg (by decide), if_pos (by decide), if_pos (by decide)]
      exact ⟨_, rfl⟩
  | imaSig =>
      rw [if_pos (by decide), if_pos (by decide)]
      exact ⟨_, rfl⟩
  | imaModsig =>
      rw [if_neg (by decide), if_pos (by decide), if_pos (by decide)]
      exact ⟨_, rfl⟩

theorem fieldStep_nNg (modsig : Bytes → Bool) {t : KnownTemplate} (ht : t ≠ .ima)
    {data : Bytes} {offset len : UInt32} (digest : Option DigestField) {text : Bytes}
    (htext : getModuleName data offset len = .ok text) :
    fieldStep modsig t.name data (ascii "n-ng") offset len digest = .ok (.name text) := by
  unfold fieldStep
  dsimp only
  rw [htext]
  cases t with
  | ima => exact absurd rfl ht
  | imaNg =>
      rw [if_neg (by decide), if_neg (by decide), if_pos (by decide), if_neg (by decide),
        if_pos (by decide)]
      rfl
  | imaSig =>
      rw [if_pos (by decide), if_neg (by decide), if_neg (by decide), if_pos (by decide)]
      rfl
  | imaModsig =>
      rw [if_neg (by decide), if_pos (by decide), if_neg (by decide), if_neg (by decide),
        if_neg (by decide), if_pos (by decide)]
      rfl

/-- The name of the algorithm ends in the digest field. -/
theorem strlenAt_digest (hdigest : IsDigest (content (ascii "d-ng"))) :
    ∃ n, strlenAt (sizedFields content (ascii "d-ng" :: fs)) (0 + 4) = .ok n := by
  obtain ⟨algo, digest, halgo, hcontent⟩ := hdigest
  have hshape : sizedFields content (ascii "d-ng" :: fs) =
      toLE 4 (content (ascii "d-ng")).length ++
        (algo ++ 0 :: (digest ++ sizedFields content fs)) := by
    rw [sizedFields_cons]
    simp [hcontent]
  rw [hshape]
  exact ⟨_, strlenAt_middle rfl (by rw [toLE_length]; decide) halgo⟩

/-- The bytes of a field are read behind its length. -/
theorem readAt_content {f pre : Bytes} {offset : UInt32} (hoff : offset.toNat = pre.length)
    (hlt : (pre ++ sizedFields content (f :: fs)).length < 2 ^ 31) :
    readAt (pre ++ sizedFields content (f :: fs)) (offset + 4)
      (UInt32.ofNat (content f).length).toNat = .ok (content f) := by
  have hlength : (pre ++ sizedFields content (f :: fs)).length =
      pre.length + (4 + ((content f).length + (sizedFields content fs).length)) := by
    rw [sizedFields_cons, List.length_append, List.length_append, toLE_length, List.length_append]
  have hshape : pre ++ sizedFields content (f :: fs) =
      (pre ++ toLE 4 (content f).length) ++ content f ++ sizedFields content fs := by
    rw [sizedFields_cons]
    simp
  have hcount : (UInt32.ofNat (content f).length).toNat = (content f).length := by
    rw [UInt32.toNat_ofNat']
    omega
  have hnext : (offset + 4).toNat = (pre ++ toLE 4 (content f).length).length := by
    rw [List.length_append, toLE_length, ← hoff, UInt32.toNat_add]
    have hfour : (4 : UInt32).toNat = 4 := rfl
    omega
  rw [hcount, hshape]
  refine readAt_middle hnext ?_ rfl
  rw [List.length_append, toLE_length]
  omega

/-- Behind the digest stands the file name, however the fields behind it are made. -/
theorem fieldLoop_sized (modsig : Bytes → Bool) {t : KnownTemplate} (ht : t ≠ .ima)
    (hdigest : IsDigest (content (ascii "d-ng")))
    (hname : content (ascii "n-ng") = fileName ++ [0]) (hfree : (0 : UInt8) ∉ fileName)
    (hlt : (sizedFields content (ascii "d-ng" :: ascii "n-ng" :: fs)).length < 2 ^ 31) :
    fieldLoop modsig t.name (sizedFields content (ascii "d-ng" :: ascii "n-ng" :: fs))
      (ascii "d-ng" :: ascii "n-ng" :: fs) 0 none = .ok (some fileName) := by
  have hother : t.name ≠ ascii "ima" := fun h => ht (t.name_eq_ima.mp h)
  let pre := toLE 4 (content (ascii "d-ng")).length ++ content (ascii "d-ng")
  have hpre : pre.length = 4 + (content (ascii "d-ng")).length := by
    rw [List.length_append, toLE_length]
  have hsplit : sizedFields content (ascii "d-ng" :: ascii "n-ng" :: fs) =
      pre ++ sizedFields content (ascii "n-ng" :: fs) := by
    rw [sizedFields_cons, List.append_assoc]
  have hfirst := @fieldLength_first content (ascii "n-ng" :: fs) t.name (ascii "d-ng") [] 0
    hother rfl hlt
  rw [List.nil_append] at hfirst
  obtain ⟨algoLen, hstrlen⟩ := @strlenAt_digest content (ascii "n-ng" :: fs) hdigest
  obtain ⟨found, hstep⟩ := fieldStep_dNg modsig ht
    (UInt32.ofNat (content (ascii "d-ng")).length) hstrlen
  have hoff : (0 + 4 + UInt32.ofNat (content (ascii "d-ng")).length).toNat = pre.length := by
    have hfour : (0 + 4 : UInt32).toNat = 4 := rfl
    rw [hsplit, List.length_append] at hlt
    rw [hpre, UInt32.toNat_add, UInt32.toNat_ofNat']
    omega
  have hsecond := hlt
  rw [hsplit] at hsecond
  have htext : getModuleName (pre ++ sizedFields content (ascii "n-ng" :: fs))
      (0 + 4 + UInt32.ofNat (content (ascii "d-ng")).length + 4)
      (UInt32.ofNat (content (ascii "n-ng")).length) = .ok fileName := by
    unfold getModuleName
    rw [readAt_content hoff hsecond, hname]
    show Except.ok (cString (fileName ++ [0])) = _
    rw [cString_append_nul_self hfree]
  rw [fieldLoop_next hfirst hstep, hsplit]
  exact fieldLoop_name (fieldLength_first hother hoff hsecond)
    (fieldStep_nNg modsig ht found htext)

end Sized

theorem KnownTemplate.fields_sized {t : KnownTemplate} (ht : t ≠ .ima) :
    ∃ fs, t.fields = ascii "d-ng" :: ascii "n-ng" :: fs := by
  cases t with
  | ima => exact absurd rfl ht
  | imaNg => exact ⟨[], by decide⟩
  | imaSig => exact ⟨[ascii "sig"], by decide⟩
  | imaModsig => exact ⟨[ascii "sig", ascii "d-modsig", ascii "modsig"], by decide⟩

/-- The entry of a record is the file name with the digest of its template data. -/
theorem recordEntry_sized (libs : ImaLibs) {r : TemplateRecord} (h : r.template ≠ .ima) :
    recordEntry libs false (r.record libs.sha1) =
      some (parsedEntry r.fileName (libs.sha256 r.body.templateData)) := by
  have hname : cString (r.record libs.sha1).name = r.template.name := r.template.cString_name
  have hdata : (r.record libs.sha1).body.templateData =
      sizedFields r.content r.template.fields := by
    show r.body.templateData = _
    rw [TemplateRecord.body, dif_neg h]
    rfl
  obtain ⟨fs, hfields⟩ := KnownTemplate.fields_sized h
  have hmem : ascii "d-ng" ∈ r.template.fields ∧ ascii "n-ng" ∈ r.template.fields := by
    rw [hfields]
    exact ⟨List.mem_cons_self, List.mem_cons_of_mem _ List.mem_cons_self⟩
  have hlt := r.length_lt
  rw [hfields] at hlt
  have hloop := fieldLoop_sized libs.modsig h ((r.holds _ hmem.1).dNg rfl)
    ((r.holds _ hmem.2).nNg rfl) r.nul_free hlt
  refine recordEntry_eq_some.mpr ⟨rfl, r.fileName, ?_, rfl⟩
  have hfmt : strsepAll 124 (fmtOf false r.template.name) = r.template.fields := by
    rw [r.template.fmtOf_name]
    rfl
  rw [hname, hdata, hfmt, hfields]
  exact hloop

/-! ## The log -/

theorem logEntries_sized (libs : ImaLibs) {records : List TemplateRecord}
    (h : ∀ r ∈ records, r.template ≠ .ima) :
    logEntries libs false (records.map (TemplateRecord.record libs.sha1)) =
      some (records.map fun r => parsedEntry r.fileName (libs.sha256 r.body.templateData)) := by
  induction records with
  | nil => rfl
  | cons r records ih =>
      have hrest := ih fun x hx => h x (List.mem_cons_of_mem r hx)
      have hknown : unknownTemplate (cString (r.record libs.sha1).name) = false :=
        r.template.known
      rw [List.map_cons, logEntries, recordEntry_sized libs (h r List.mem_cons_self), hknown,
        Bool.or_false, hrest]
      rfl

theorem logEntries_ima (libs : ImaLibs) {records : List TemplateRecord} {r : TemplateRecord}
    (hr : r ∈ records) (h : r.template = .ima) (fmtIsName : Bool) :
    logEntries libs fmtIsName (records.map (TemplateRecord.record libs.sha1)) = none := by
  induction records generalizing fmtIsName with
  | nil => exact absurd hr List.not_mem_nil
  | cons first records ih =>
      rw [List.map_cons, logEntries]
      rcases List.mem_cons.mp hr with rfl | hr
      · rw [recordEntry_ima h fmtIsName]
        rfl
      · rw [ih hr]
        cases recordEntry libs fmtIsName (first.record libs.sha1) <;> rfl

/-- A log of the known templates is decoded unless one of its records has the original
template. -/
theorem decodesLog_iff (libs : ImaLibs) (records : List TemplateRecord) :
    DecodesLog libs records ↔ ∀ r ∈ records, r.template ≠ .ima := by
  unfold DecodesLog
  simp only [parsed_log]
  constructor
  · intro h r hr hima
    obtain ⟨entries, hentries, _⟩ := h 0
    rw [logEntries_ima libs hr hima] at hentries
    cases hentries
  · intro h _
    refine ⟨_, logEntries_sized libs h, ?_⟩
    rw [List.map_map]
    rfl

/-- The record of `/init` in the original template. -/
def initRecord : TemplateRecord where
  template := .ima
  pcr := toLE 4 10
  fileName := ascii "/init"
  content := fun f => if f = ascii "d" then zeros 20 else ascii "/init"
  pcr_length := toLE_length _ _
  nul_free := by decide
  holds := by
    intro f hf
    have hfields : KnownTemplate.ima.fields = [ascii "d", ascii "n"] := by decide
    rw [hfields] at hf
    rcases List.mem_pair.mp hf with rfl | rfl
    · exact .digest (by decide)
    · exact .eventName (by decide)
  length_lt := by decide

theorem not_decodesLog_init : ¬DecodesLog shaLibs [initRecord] := by
  intro h
  obtain ⟨entries, hentries, _⟩ := h 0
  rw [parsed_log, logEntries_ima shaLibs List.mem_cons_self rfl] at hentries
  cases hentries

end MeasuredBoot.Ima
