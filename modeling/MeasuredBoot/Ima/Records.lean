import MeasuredBoot.Ima.Parser
import MeasuredBoot.Lib.PrefixCode

/-! # Complete IMA records

A record as the kernel writes it, and what one round of the parser does with a
buffer that starts with one. The records are a prefix code: a log is made of them in
one way at most.
-/

namespace MeasuredBoot.Ima

open Binary Imperative Imperative.Proc

theorem bufRead_append {xs rest : Bytes} {n : Nat} (h : xs.length = n) (s : ImaRun)
    (hs : s.rest = xs ++ rest) : bufRead n s = .next (some xs) { s with rest := rest } := by
  have hle : n ≤ s.rest.length := by
    rw [hs, List.length_append]
    omega
  unfold bufRead
  rw [if_pos hle, hs, List.take_left' h, List.drop_left' h]

/-- What stands behind the name: data with its length, or the digest and the file name
of the original template. The parser keeps the length in an `int`. -/
inductive RecordBody where
  | sized (data : Bytes) (length_lt : data.length < 2 ^ 31)
  | original (digest eventName : Bytes) (digest_length : digest.length = 20)
      (eventName_le : eventName.length ≤ 256)

namespace RecordBody

def bytes : RecordBody → Bytes
  | .sized data _ => toLE 4 data.length ++ data
  | .original digest eventName _ _ => digest ++ (toLE 4 eventName.length ++ eventName)

/-- The bytes the digest of the record is computed over. -/
def templateData : RecordBody → Bytes
  | .sized data _ => data
  | .original digest eventName _ _ => overwrite (overwrite (zeros 276) 0 digest) 20 eventName

def isOriginal : RecordBody → Bool
  | .sized _ _ => false
  | .original _ _ _ _ => true

end RecordBody

/-- A record of the log. The name decides how its data is laid out. -/
structure ImaRecord where
  pcr : Bytes
  digest : Bytes
  name : Bytes
  body : RecordBody
  pcr_length : pcr.length = 4
  digest_length : digest.length = 20
  name_le : name.length ≤ eventNameLenMax
  body_kind : body.isOriginal = decide (cString name = ascii "ima")

namespace ImaRecord

def header (r : ImaRecord) : Bytes := r.pcr ++ (r.digest ++ toLE 4 r.name.length)

def bytes (r : ImaRecord) : Bytes := r.header ++ (r.name ++ r.body.bytes)

/-- The header carries the SHA-1 digest of the template data. -/
def Valid (sha1 : Md 20) (r : ImaRecord) : Prop := (sha1 r.body.templateData).val = r.digest

@[simp] theorem header_length (r : ImaRecord) : r.header.length = 28 := by
  simp [header, r.pcr_length, r.digest_length]

/-- The length of its template data that the parser keeps. -/
def dataLen (r : ImaRecord) : UInt32 := UInt32.ofNat r.body.templateData.length

theorem header_digest (r : ImaRecord) : slice r.header 4 20 = r.digest := by
  have hslice := slice_append_right r.pcr (r.digest ++ toLE 4 r.name.length) 0 20
  rw [r.pcr_length, Nat.add_zero] at hslice
  rw [header, hslice, slice, List.drop_zero, List.take_left' r.digest_length]

theorem header_nameLen (r : ImaRecord) : ofLE (slice r.header 24 4) = r.name.length := by
  have hname := r.name_le
  unfold eventNameLenMax at hname
  have hslice := slice_append_right (r.pcr ++ r.digest) (toLE 4 r.name.length) 0 4
  rw [List.length_append, r.pcr_length, r.digest_length] at hslice
  rw [header, ← List.append_assoc, hslice, slice, List.drop_zero,
    List.take_of_length_le (by simp), ofLE_toLE_of_lt (by omega)]

theorem bytes_length_ge (r : ImaRecord) : 28 ≤ r.bytes.length := by
  simp [bytes]

/-! ## Records are a prefix code -/

theorem body_first {a b : RecordBody} {rest rest' : Bytes} (hkind : a.isOriginal = b.isOriginal)
    (h : a.bytes ++ rest = b.bytes ++ rest') : a = b := by
  have hsized : ∀ xs ys : Bytes, xs.length < 2 ^ 31 → ys.length < 2 ^ 31 → ∀ zs zs' : Bytes,
      toLE 4 xs.length ++ (xs ++ zs) = toLE 4 ys.length ++ (ys ++ zs') → xs = ys := by
    intro xs ys hxs hys zs zs' heq
    have hlen := toLE_inj (by omega) (by omega) (List.append_inj_left heq (by simp))
    exact List.append_inj_left (List.append_inj_right heq (by simp)) hlen
  cases a with
  | sized data hlt =>
      cases b with
      | sized data' hlt' =>
          simp only [RecordBody.bytes, List.append_assoc] at h
          obtain rfl := hsized _ _ hlt hlt' _ _ h
          rfl
      | original => cases hkind
  | original digest eventName hdigest hle =>
      cases b with
      | sized => cases hkind
      | original digest' eventName' hdigest' hle' =>
          simp only [RecordBody.bytes, List.append_assoc] at h
          obtain rfl := List.append_inj_left h (hdigest.trans hdigest'.symm)
          have hrest := List.append_inj_right h rfl
          obtain rfl := hsized _ _ (by omega) (by omega) _ _ hrest
          rfl

theorem decodable : PrefixCode.Decodable bytes where
  first a b rest rest' h := by
    obtain ⟨pcr, digest, name, body, hpcr, hdigest, hname, hkind⟩ := a
    obtain ⟨pcr', digest', name', body', hpcr', hdigest', hname', hkind'⟩ := b
    simp only [bytes, header, List.append_assoc] at h
    unfold eventNameLenMax at hname hname'
    obtain rfl := List.append_inj_left h (hpcr.trans hpcr'.symm)
    have h := List.append_inj_right h rfl
    obtain rfl := List.append_inj_left h (hdigest.trans hdigest'.symm)
    have h := List.append_inj_right h rfl
    have hlen := toLE_inj (by omega) (by omega) (List.append_inj_left h (by simp))
    have h := List.append_inj_right h (by simp)
    obtain rfl := List.append_inj_left h hlen
    have h := List.append_inj_right h rfl
    obtain rfl := body_first (hkind.trans hkind'.symm) h
    rfl
  nonempty r h := by
    have hlen := r.bytes_length_ge
    rw [h] at hlen
    simp at hlen

end ImaRecord

/-! ## The end of a round -/

/-- No descriptor of the table has the name. -/
def unknownTemplate (name : Bytes) : Bool :=
  (knownTemplates.find? fun entry => entry.1 = name).isNone

/-- The format a name is decoded with. Once an unknown name was met, the format of
`ima-modsig` is the name itself. -/
def fmtOf (fmtIsName : Bool) (name : Bytes) : Bytes :=
  if unknownTemplate name ∨ fmtIsName ∧ name = ascii "ima-modsig" then name
  else ((knownTemplates.find? fun entry => entry.1 = name).map (·.2)).getD []

theorem templateFmt_eq (name : Bytes) (s : ImaRun) :
    templateFmt name s = .next (fmtOf s.fmtIsName name)
      { s with fmtIsName := s.fmtIsName || unknownTemplate name } := by
  unfold templateFmt fmtOf unknownTemplate
  cases hfind : knownTemplates.find? (fun entry => entry.1 = name) with
  | none => simp
  | some entry =>
      by_cases h : s.fmtIsName = true ∧ name = ascii "ima-modsig"
      · obtain ⟨rest, len, fmtIsName, printed⟩ := s
        simp only [if_pos h, Option.isNone_some, Bool.false_eq_true, false_or, Bool.or_false]
      · simp only [if_neg h, Option.isNone_some, Bool.false_eq_true, false_or, Bool.or_false]
        rfl

/-- A record goes through if its digest is right and its fields give a name. -/
theorem finishRecord_next_iff {libs : ImaLibs} {header name data : Bytes} {s t : ImaRun} :
    finishRecord libs header name data s = .next () t ↔
      (libs.sha1 data).val = slice header 4 20 ∧
      ∃ text, fieldLoop libs.modsig name data (strsepAll 124 (fmtOf s.fmtIsName name)) 0 none =
          .ok (some text) ∧
        t = printEntry libs text data
          { s with fmtIsName := s.fmtIsName || unknownTemplate name } := by
  unfold finishRecord
  by_cases hvalid : (libs.sha1 data).val = slice header 4 20
  · have hpass : ¬(hashBuf libs.sha1 data).val ≠ slice header 4 20 := not_not_intro hvalid
    rw [exitIf_neg hpass, pure_bind, bind_apply, getTemplateData, bind_apply, templateFmt_eq,
      andThen_next]
    cases fieldLoop libs.modsig name data (strsepAll 124 (fmtOf s.fmtIsName name)) 0 none with
    | error w => simp
    | ok found =>
        cases found with
        | none => simp
        | some text =>
            simp only [lift_ok_apply, andThen_next, update_apply, hvalid, true_and,
              Outcome.next.injEq]
            constructor
            · exact fun ht => ⟨text, rfl, ht.symm⟩
            · rintro ⟨text', htext, ht⟩
              cases htext
              exact ht.symm
  · have hfail : (hashBuf libs.sha1 data).val ≠ slice header 4 20 := hvalid
    rw [exitIf_pos hfail]
    refine iff_of_false ?_ fun h => hvalid h.1
    simp

/-! ## One round on a complete record -/

section Round

variable (libs : ImaLibs)

/-- The buffer of an original record keeps its size. -/
theorem originalBuf_length {digest eventName : Bytes} (hdigest : digest.length = 20)
    (hle : eventName.length ≤ 256) :
    (overwrite (overwrite (zeros 276) 0 digest) 20 eventName).length = 276 := by
  have hinner : (overwrite (zeros 276) 0 digest).length = 276 := by
    rw [overwrite_length (by rw [zeros_length]; omega), zeros_length]
  rw [overwrite_length (by rw [hinner]; omega), hinner]

theorem readImaData_eq {digest eventName rest : Bytes} (hdigest : digest.length = 20)
    (hle : eventName.length ≤ 256) (s : ImaRun)
    (hs : s.rest = digest ++ (toLE 4 eventName.length ++ (eventName ++ rest))) :
    readImaData s = .next (overwrite (overwrite (zeros 276) 0 digest) 20 eventName)
      { s with rest := rest, templateDataLen := 276 } := by
  have hread : bufRead digestLength { s with templateDataLen := 276 } = _ :=
    bufRead_append hdigest _ hs
  have hlen := ofLE_toLE_of_lt (show eventName.length < 256 ^ 4 by omega)
  have hfits : digestLength + eventName.length ≤ 276 := by
    unfold digestLength
    omega
  unfold readImaData
  simp only [bind_apply, update_apply, andThen_next, hread]
  rw [bufRead_append (toLE_length 4 _) _ rfl]
  simp only [andThen_next, Option.getD_some, hlen, bind_apply]
  rw [bufRead_append rfl _ rfl]
  simp only [andThen_next, if_pos hfits]
  rfl

theorem readSizedData_eq {data rest : Bytes} (hlt : data.length < 2 ^ 31) (s : ImaRun)
    (hs : s.rest = toLE 4 data.length ++ (data ++ rest)) :
    readSizedData s =
      .next data { s with rest := rest, templateDataLen := UInt32.ofNat data.length } := by
  have hlen : (UInt32.ofNat data.length).toNat = data.length := by
    simp only [UInt32.toNat_ofNat']
    omega
  unfold readSizedData
  rw [bind_apply, bufRead_append (toLE_length 4 data.length) s hs]
  simp only [andThen_next, bind_apply, update_apply, getState_apply,
    ofLE_toLE_of_lt (show data.length < 256 ^ 4 by omega), intToSize, hlen, if_pos hlt]
  rw [bufRead_append rfl _ rfl]
  rfl

/-- A round on a complete record takes exactly the record off the buffer. -/
theorem parseRecord_record (r : ImaRecord) (s : ImaRun) {rest : Bytes}
    (hs : s.rest = r.name ++ (r.body.bytes ++ rest)) :
    parseRecord libs r.header s =
      finishRecord libs r.header (cString r.name) r.body.templateData
        { s with rest := rest, templateDataLen := r.dataLen } := by
  have hshort : ¬eventNameLenMax < r.name.length := Nat.not_lt.mpr r.name_le
  have hparse : parseRecord libs r.header s =
      (do
        let data ← readTemplateData (cString r.name)
        finishRecord libs r.header (cString r.name) data : Proc ImaRun Unit)
        { s with rest := r.body.bytes ++ rest } := by
    unfold parseRecord
    dsimp only
    rw [r.header_nameLen, when, if_neg hshort, pure_bind, bind_apply, bufRead_append rfl _ hs,
      andThen_next, Option.getD_some]
  have hkind := r.body_kind
  rw [hparse, bind_apply, readTemplateData, ImaRecord.dataLen]
  cases hbody : r.body with
  | sized data hlt =>
      rw [hbody] at hkind
      have hname : ¬cString r.name = ascii "ima" := of_decide_eq_false hkind.symm
      have hrest : (RecordBody.sized data hlt).bytes ++ rest =
          toLE 4 data.length ++ (data ++ rest) := by simp [RecordBody.bytes]
      rw [if_neg hname, readSizedData_eq hlt _ hrest]
      rfl
  | original digest eventName hdigest hle =>
      rw [hbody] at hkind
      have hname : cString r.name = ascii "ima" := of_decide_eq_true hkind.symm
      have hrest : (RecordBody.original digest eventName hdigest hle).bytes ++ rest =
          digest ++ (toLE 4 eventName.length ++ (eventName ++ rest)) := by simp [RecordBody.bytes]
      have hlength :
          (RecordBody.original digest eventName hdigest hle).templateData.length = 276 :=
        originalBuf_length hdigest hle
      rw [if_pos hname, readImaData_eq hdigest hle _ hrest, hlength]
      rfl

end Round

end MeasuredBoot.Ima
