import MeasuredBoot.Ima.Generator
import MeasuredBoot.Ima.History

/-! # The generator and the parser agree

A log of the records the generator builds templates for is read back entry by entry.
-/

namespace MeasuredBoot.Ima

open Binary Imperative Imperative.Proc

/-! ## Reading what was written -/

theorem readAt_middle {pre xs post : Bytes} {offset : UInt32} {n : Nat}
    (hoff : offset.toNat = pre.length) (hlt : pre.length < 2 ^ 31) (hn : xs.length = n) :
    readAt (pre ++ xs ++ post) offset n = .ok xs := by
  unfold readAt
  by_cases hzero : n = 0
  · rw [if_pos hzero]
    rw [hzero] at hn
    rw [List.eq_nil_of_length_eq_zero hn]
  · rw [if_neg hzero, if_pos (by rw [hoff]; exact hlt), copyFrom_ok, hoff]
    · have hslice := slice_append_right pre (xs ++ post) 0 n
      rw [Nat.add_zero] at hslice
      rw [List.append_assoc, hslice, slice, List.drop_zero, List.take_left' hn]
    · simp only [List.length_append]
      omega

theorem strlenAt_middle {pre text post : Bytes} {offset : UInt32}
    (hoff : offset.toNat = pre.length) (hlt : pre.length < 2 ^ 31)
    (htext : (0 : UInt8) ∉ text) :
    strlenAt (pre ++ (text ++ 0 :: post)) offset = .ok (UInt32.ofNat text.length) := by
  unfold strlenAt
  rw [hoff, if_pos hlt, List.drop_left]
  dsimp only
  rw [cString_append_nul htext, if_pos]
  simp only [List.length_append, List.length_cons]
  omega

/-! ## The template data of a file -/

section TemplateData

variable (t : Template) (hash : Digest 32) (path : PathName)

theorem template_digest_length :
    readAt (templateBytes t hash path) 0 4 = .ok (toLE 4 40) := by
  have hsplit : templateBytes t hash path = [] ++ toLE 4 40 ++
      ((ascii "sha256:" ++ [0] ++ hash.val) ++ (toLE 4 (path.bytes.length + 1) ++
        (path.bytes ++ [0] ++ t.trailer))) := by
    simp [templateBytes]
  rw [hsplit]
  exact readAt_middle rfl (by decide) rfl

theorem template_algorithm :
    strlenAt (templateBytes t hash path) 4 = .ok 7 := by
  have hsplit : templateBytes t hash path = toLE 4 40 ++ (ascii "sha256:" ++ 0 ::
      (hash.val ++ (toLE 4 (path.bytes.length + 1) ++ (path.bytes ++ [0] ++ t.trailer)))) := by
    simp [templateBytes]
  rw [hsplit]
  exact strlenAt_middle rfl (by decide) (by decide)

theorem head_length :
    (toLE 4 40 ++ (ascii "sha256:" ++ [0] ++ hash.val)).length = 44 := by
  have hname : (ascii "sha256:").length = 7 := by decide
  simp [hash.property, hname]

theorem template_path_length :
    readAt (templateBytes t hash path) 44 4 = .ok (toLE 4 (path.bytes.length + 1)) := by
  have hsplit : templateBytes t hash path = (toLE 4 40 ++ (ascii "sha256:" ++ [0] ++ hash.val)) ++
      toLE 4 (path.bytes.length + 1) ++ (path.bytes ++ [0] ++ t.trailer) := by
    simp [templateBytes]
  have hhead := head_length hash
  rw [hsplit]
  exact readAt_middle (by rw [hhead]; rfl) (by omega) (by simp)

theorem template_path :
    getModuleName (templateBytes t hash path) 48 (UInt32.ofNat (path.bytes.length + 1)) =
      .ok path.bytes := by
  have hsplit : templateBytes t hash path =
      (toLE 4 40 ++ (ascii "sha256:" ++ [0] ++ hash.val) ++ toLE 4 (path.bytes.length + 1)) ++
        (path.bytes ++ [0]) ++ t.trailer := by
    simp [templateBytes]
  have hhead : (toLE 4 40 ++ (ascii "sha256:" ++ [0] ++ hash.val) ++
      toLE 4 (path.bytes.length + 1)).length = 48 := by
    rw [List.length_append, head_length hash, toLE_length]
  have hlt := path.length_lt
  have hlen : (UInt32.ofNat (path.bytes.length + 1)).toNat = path.bytes.length + 1 := by
    simp only [UInt32.toNat_ofNat']
    omega
  unfold getModuleName
  rw [hsplit, hlen, readAt_middle (by rw [hhead]; rfl) (by omega) (by simp)]
  show Except.ok (cString (path.bytes ++ [0])) = _
  rw [cString_append_nul_self path.nul_free]

/-- The format of a supported template starts with the digest and the name. -/
theorem template_fields :
    ∃ fs, strsepAll 124 (fmtOf false t.name) = ascii "d-ng" :: ascii "n-ng" :: fs := by
  cases t with
  | imaNg => exact ⟨[], by decide⟩
  | imaSig => exact ⟨[ascii "sig"], by decide⟩

theorem fieldLength_sized {name data f : Bytes} {offset : UInt32} {raw : Bytes}
    (hname : name ≠ ascii "ima") (hread : readAt data offset 4 = .ok raw) :
    fieldLength name data f offset = .ok (UInt32.ofNat (ofLE raw), offset + 4) := by
  unfold fieldLength
  rw [if_neg (fun h => hname h.1), if_neg (fun h => hname h.1), hread]
  rfl

theorem name_ne_ima : t.name ≠ ascii "ima" := by cases t <;> decide

theorem fieldStep_digest (modsig : Bytes → Bool) (data : Bytes) (offset fieldLen : UInt32)
    (digest : Option DigestField) {len : UInt32} (hlen : strlenAt data offset = .ok len) :
    fieldStep modsig t.name data (ascii "d-ng") offset fieldLen digest =
      .ok (.next (offset + fieldLen) (some ⟨offset + (len + 1), fieldLen - (len + 1)⟩)) := by
  have hdigest : digestField data offset fieldLen =
      .ok ⟨offset + (len + 1), fieldLen - (len + 1)⟩ := by
    unfold digestField
    rw [hlen]
    rfl
  unfold fieldStep
  dsimp only
  rw [hdigest]
  cases t with
  | imaNg =>
      rw [if_neg (by decide), if_neg (by decide), if_pos (by decide), if_pos (by decide)]
      rfl
  | imaSig =>
      rw [if_pos (by decide), if_pos (by decide)]
      rfl

theorem fieldStep_name (modsig : Bytes → Bool) (data : Bytes) (offset fieldLen : UInt32)
    (digest : Option DigestField) {text : Bytes}
    (htext : getModuleName data offset fieldLen = .ok text) :
    fieldStep modsig t.name data (ascii "n-ng") offset fieldLen digest = .ok (.name text) := by
  unfold fieldStep
  dsimp only
  rw [htext]
  cases t with
  | imaNg =>
      rw [if_neg (by decide), if_neg (by decide), if_pos (by decide), if_neg (by decide),
        if_pos (by decide)]
      rfl
  | imaSig =>
      rw [if_pos (by decide), if_neg (by decide), if_neg (by decide), if_pos (by decide)]
      rfl

theorem fieldLoop_next {modsig : Bytes → Bool} {name data f : Bytes} {fs : List Bytes}
    {offset len off off' : UInt32} {digest digest' : Option DigestField}
    (hlen : fieldLength name data f offset = .ok (len, off))
    (hstep : fieldStep modsig name data f off len digest = .ok (.next off' digest')) :
    fieldLoop modsig name data (f :: fs) offset digest =
      fieldLoop modsig name data fs off' digest' := by
  rw [fieldLoop, hlen]
  simp only [bind, Except.bind]
  rw [hstep]

theorem fieldLoop_name {modsig : Bytes → Bool} {name data f : Bytes} {fs : List Bytes}
    {offset len off : UInt32} {digest : Option DigestField} {text : Bytes}
    (hlen : fieldLength name data f offset = .ok (len, off))
    (hstep : fieldStep modsig name data f off len digest = .ok (.name text)) :
    fieldLoop modsig name data (f :: fs) offset digest = .ok (some text) := by
  rw [fieldLoop, hlen]
  simp only [bind, Except.bind]
  rw [hstep]
  rfl

/-- The walk over the fields finds the path. -/
theorem fieldLoop_template (modsig : Bytes → Bool) :
    fieldLoop modsig t.name (templateBytes t hash path) (strsepAll 124 (fmtOf false t.name)) 0
      none = .ok (some path.bytes) := by
  obtain ⟨fs, hfields⟩ := template_fields t
  have hdigest := fieldLength_sized (f := ascii "d-ng") (name_ne_ima t)
    (template_digest_length t hash path)
  have hname := fieldLength_sized (f := ascii "n-ng") (name_ne_ima t)
    (template_path_length t hash path)
  have hlt := path.length_lt
  rw [ofLE_toLE_of_lt (by omega)] at hname
  rw [hfields, fieldLoop_next hdigest
    (fieldStep_digest t modsig _ _ _ _ (template_algorithm t hash path))]
  exact fieldLoop_name hname (fieldStep_name t modsig _ _ _ _ (template_path t hash path))

end TemplateData

/-! ## Records -/

/-- A file the generator makes an entry for. -/
structure ImaFile where
  hash : Digest 32
  path : PathName

/-- The 28-byte header of a record. -/
def recordHeader (sha1 : Md 20) (pcr : UInt32) (t : Template) (data : Bytes) : Bytes :=
  toLE 4 pcr.toNat ++ (sha1 data).val ++ toLE 4 t.name.length

/-- A record as the parser reads it. -/
def imaRecord (sha1 : Md 20) (pcr : UInt32) (t : Template) (data : Bytes) : Bytes :=
  recordHeader sha1 pcr t data ++ (t.name ++ (toLE 4 data.length ++ data))

/-- The entry the parser prints for a logged path and template hash. -/
def parsedEntry (path : Bytes) (templateHash : Digest 32) : ImaEntry :=
  ⟨basename path, hexText templateHash.val, path⟩

section Record

variable (libs : ImaLibs) (pcr : UInt32) (t : Template)

/-- The record of a file among the complete records. -/
def fileRecord (f : ImaFile) : ImaRecord where
  pcr := toLE 4 pcr.toNat
  digest := (libs.sha1 (templateBytes t f.hash f.path)).val
  name := t.name
  body := .sized (templateBytes t f.hash f.path) (templateBytes_length_lt t f.hash f.path)
  pcr_length := toLE_length _ _
  digest_length := (libs.sha1 (templateBytes t f.hash f.path)).property
  name_le := by cases t <;> decide
  body_kind := (decide_eq_false (by cases t <;> decide)).symm

theorem fileRecord_bytes (f : ImaFile) :
    (fileRecord libs pcr t f).bytes =
      imaRecord libs.sha1 pcr t (templateBytes t f.hash f.path) := by
  simp only [ImaRecord.bytes, ImaRecord.header, fileRecord, RecordBody.bytes, imaRecord,
    recordHeader, List.append_assoc]

/-- The record of a file gives its entry. -/
theorem recordEntry_file (fmtIsName : Bool) (f : ImaFile) :
    recordEntry libs fmtIsName (fileRecord libs pcr t f) =
      some (parsedEntry f.path.bytes (libs.sha256 (templateBytes t f.hash f.path))) := by
  have hname : cString t.name = t.name := by cases t <;> decide
  have hother : cString t.name ≠ ascii "ima-modsig" := by cases t <;> decide
  rw [recordEntry_of_ne_modsig hother]
  refine recordEntry_eq_some.mpr ⟨rfl, f.path.bytes, ?_, rfl⟩
  have hloop := fieldLoop_template t f.hash f.path libs.modsig
  rw [← hname] at hloop
  exact hloop

theorem logEntries_files (fmtIsName : Bool) (files : List ImaFile) :
    logEntries libs fmtIsName (files.map (fileRecord libs pcr t)) =
      some (files.map fun f =>
        parsedEntry f.path.bytes (libs.sha256 (templateBytes t f.hash f.path))) := by
  induction files generalizing fmtIsName with
  | nil => rfl
  | cons f files ih =>
      simp only [List.map_cons, logEntries, recordEntry_file, ih, Option.bind_eq_bind,
        Option.bind_some]
      rfl

theorem logBytes_files (files : List ImaFile) :
    logBytes (files.map (fileRecord libs pcr t)) =
      (files.map fun f => imaRecord libs.sha1 pcr t (templateBytes t f.hash f.path)).flatten := by
  induction files with
  | nil => rfl
  | cons f files ih =>
      rw [List.map_cons, List.map_cons, List.flatten_cons, ← ih, ← fileRecord_bytes libs pcr t f]
      exact PrefixCode.stream_cons _ _ _

end Record

/-! ## Agreement -/

/-- `calculate_ima_entry` for one file after the other. -/
def calculateImaEntries (sha256 : Md 32) (files : List ImaFile) : Proc EventLog Int := do
  forEach (fun f => do
    let ret ← call (calculateImaEntry sha256 f.hash f.path.bytes true)
    exitIf (ret ≠ 0) (-1)) files
  return 0

theorem calculateImaEntries_run (sha256 : Md 32) (t : Template) (files : List ImaFile)
    (entries : List (Bytes × Digest 32 × Bool)) :
    run (calculateImaEntries sha256 files) ⟨t.name, entries⟩ =
      .ok (0, ⟨t.name, entries ++ files.map fun f =>
        (f.path.bytes, sha256 (templateBytes t f.hash f.path), true)⟩) := by
  induction files generalizing entries with
  | nil =>
      rw [List.map_nil, List.append_nil]
      rfl
  | cons f files ih =>
      have hentry := call_of_run (calculateImaEntry_run sha256 t f.hash f.path true entries)
      have hrest := ih (entries ++ [(f.path.bytes, sha256 (templateBytes t f.hash f.path), true)])
      rw [List.append_assoc, List.singleton_append] at hrest
      rw [List.map_cons, ← hrest]
      unfold calculateImaEntries run
      simp only [forEach, bind_apply, hentry, andThen_next]
      rfl

/-- The parser reads the log of the templates the generator builds to its end, and
prints for each record the path and the hash the generator logs for it. -/
theorem imaLog_roundTrip (libs : ImaLibs) (t : Template) (pcr templateDataLen : UInt32)
    (files : List ImaFile) :
    ∃ (templates : List Bytes) (log : EventLog) (out : ImaRun),
      files.map (fun f => imaTemplate t.name f.hash f.path.bytes) =
        templates.map (fun data => .ok (some data)) ∧
      run (calculateImaEntries libs.sha256 files) ⟨t.name, []⟩ = .ok (0, log) ∧
      log.entries.map (·.1) = files.map (·.path.bytes) ∧
      run (imaParseBinaryRuntimeMeasurements libs
        (templates.map (imaRecord libs.sha1 pcr t)).flatten) (ImaRun.start templateDataLen) =
        .ok (0, out) ∧
      out.printed = log.entries.map fun e => parsedEntry e.1 e.2.1 := by
  have hgenerate := calculateImaEntries_run libs.sha256 t files []
  obtain ⟨out, haccepts, hprinted⟩ := (accepts_log_iff libs
    (files.map (fileRecord libs pcr t))
    (s := { ImaRun.start templateDataLen with
      rest := logBytes (files.map (fileRecord libs pcr t)) })
    rfl _).mpr ⟨_, logEntries_files libs pcr t false files, rfl⟩
  refine ⟨files.map fun f => templateBytes t f.hash f.path, _, out, ?_, hgenerate, ?_, ?_, ?_⟩
  · rw [List.map_map]
    apply List.map_congr_left
    intro f _
    exact imaTemplate_eq t f.hash f.path
  · simp
  · rw [List.map_map]
    have hrun := parse_zero_iff.mpr haccepts
    rw [logBytes_files] at hrun
    exact hrun
  · rw [hprinted]
    simp [ImaRun.start]

end MeasuredBoot.Ima
