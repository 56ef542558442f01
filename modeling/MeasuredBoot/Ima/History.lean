import MeasuredBoot.Common.Sha1
import MeasuredBoot.Ima.Completeness

/-! # What earlier records change

The table of template descriptors is static, and an unknown template name overwrites
the format of its last entry. Every other record of a complete log is decoded as if it
stood alone.
-/

namespace MeasuredBoot.Ima

open Binary Imperative Imperative.Proc

/-- What a fresh process prints for a buffer it accepts. -/
def parsed (libs : ImaLibs) (templateDataLen : UInt32) (buf : Bytes) : Option (List ImaEntry) :=
  match run (imaParseBinaryRuntimeMeasurements libs buf) (ImaRun.start templateDataLen) with
  | .ok (ret, s) => if ret = 0 then some s.printed else none
  | .error _ => none

def logBytes (records : List ImaRecord) : Bytes := PrefixCode.stream ImaRecord.bytes records

/-! ## Records one by one -/

/-- The entry printed for a record, given whether an unknown template came before it. -/
def recordEntry (libs : ImaLibs) (fmtIsName : Bool) (r : ImaRecord) : Option ImaEntry :=
  let name := cString r.name
  let data := r.body.templateData
  if (libs.sha1 data).val ≠ r.digest then none
  else
    match fieldLoop libs.modsig name data (strsepAll 124 (fmtOf fmtIsName name)) 0 none with
    | .ok (some text) => some ⟨basename text, hexText (libs.sha256 data).val, text⟩
    | _ => none

/-- The entries printed for the records, one after the other. -/
def logEntries (libs : ImaLibs) : Bool → List ImaRecord → Option (List ImaEntry)
  | _, [] => some []
  | fmtIsName, r :: records => do
      let entry ← recordEntry libs fmtIsName r
      let entries ← logEntries libs (fmtIsName || unknownTemplate (cString r.name)) records
      return entry :: entries

theorem recordEntry_eq_some {libs : ImaLibs} {fmtIsName : Bool} {r : ImaRecord}
    {entry : ImaEntry} :
    recordEntry libs fmtIsName r = some entry ↔ r.Valid libs.sha1 ∧
      ∃ text, fieldLoop libs.modsig (cString r.name) r.body.templateData
          (strsepAll 124 (fmtOf fmtIsName (cString r.name))) 0 none = .ok (some text) ∧
        entry = ⟨basename text, hexText (libs.sha256 r.body.templateData).val, text⟩ := by
  unfold recordEntry ImaRecord.Valid
  dsimp only
  by_cases hvalid : (libs.sha1 r.body.templateData).val = r.digest
  · rw [if_neg (not_not_intro hvalid)]
    cases fieldLoop libs.modsig (cString r.name) r.body.templateData
        (strsepAll 124 (fmtOf fmtIsName (cString r.name))) 0 none with
    | error w => simp
    | ok found =>
        cases found with
        | none => simp
        | some text => simp [hvalid, eq_comm]
  · rw [if_pos hvalid]
    simp [hvalid]

section Runs

variable {libs : ImaLibs}

/-- A round on a complete record prints its entry. -/
theorem round_entry_iff (libs : ImaLibs) {s : ImaRun} {r : ImaRecord} {rest : Bytes}
    (hs : s.rest = r.bytes ++ rest) {t : ImaRun} :
    Round libs s t ↔ ∃ entry, recordEntry libs s.fmtIsName r = some entry ∧
      t = { afterRecord s r rest with printed := s.printed ++ [entry] } := by
  rw [round_record_iff hs]
  constructor
  · rintro ⟨hvalid, text, htext, rfl⟩
    exact ⟨_, recordEntry_eq_some.mpr ⟨hvalid, text, htext, rfl⟩, rfl⟩
  · rintro ⟨entry, hentry, rfl⟩
    obtain ⟨hvalid, text, htext, rfl⟩ := recordEntry_eq_some.mp hentry
    exact ⟨hvalid, text, htext, rfl⟩

/-- A log of complete records is accepted with the entries of its records. -/
theorem accepts_log_iff (libs : ImaLibs) (records : List ImaRecord) {s : ImaRun}
    (hs : s.rest = logBytes records) (out : List ImaEntry) :
    (∃ u, Accepts libs s u ∧ u.printed = out) ↔
      ∃ entries, logEntries libs s.fmtIsName records = some entries ∧
        out = s.printed ++ entries := by
  induction records generalizing s with
  | nil =>
      have hshort : s.rest.length < 28 := by
        rw [hs]
        decide
      constructor
      · rintro ⟨u, hu, rfl⟩
        rw [accepts_short_iff hshort] at hu
        exact ⟨[], rfl, by simp [hu]⟩
      · rintro ⟨entries, hentries, rfl⟩
        cases hentries
        exact ⟨s, .done hshort, by simp⟩
  | cons r records ih =>
      have hrest : s.rest = r.bytes ++ logBytes records := hs.trans (PrefixCode.stream_cons _ _ _)
      have hheader : 28 ≤ s.rest.length := by
        have hge := r.bytes_length_ge
        rw [hrest, List.length_append]
        omega
      constructor
      · rintro ⟨u, hu, rfl⟩
        obtain ⟨t, ht, hu⟩ := (accepts_header_iff hheader).mp hu
        obtain ⟨entry, hentry, rfl⟩ := (round_entry_iff libs hrest).mp ht
        obtain ⟨entries, hentries, hprinted⟩ := (ih rfl).mp ⟨u, hu, rfl⟩
        change logEntries libs (s.fmtIsName || unknownTemplate (cString r.name)) records =
          some entries at hentries
        refine ⟨entry :: entries, ?_, ?_⟩
        · simp only [logEntries, hentry, hentries, Option.bind_eq_bind, Option.bind_some]
          rfl
        · rw [hprinted, List.append_assoc]
          rfl
      · rintro ⟨all, hall, rfl⟩
        simp only [logEntries, Option.bind_eq_bind, Option.bind_eq_some_iff] at hall
        obtain ⟨entry, hentry, entries, hentries, hcons⟩ := hall
        cases hcons
        have hround := (round_entry_iff libs hrest).mpr ⟨entry, hentry, rfl⟩
        obtain ⟨u, hu, hprinted⟩ := (ih (s := { afterRecord s r (logBytes records) with
          printed := s.printed ++ [entry] }) rfl).mpr ⟨entries, hentries, by simp⟩
        exact ⟨u, .round hround hu, hprinted⟩

theorem parsed_eq_some {templateDataLen : UInt32} {buf : Bytes} {out : List ImaEntry} :
    parsed libs templateDataLen buf = some out ↔
      ∃ u, Accepts libs { ImaRun.start templateDataLen with rest := buf } u ∧ u.printed = out := by
  unfold parsed
  cases hrun : run (imaParseBinaryRuntimeMeasurements libs buf) (ImaRun.start templateDataLen) with
  | error w =>
      refine iff_of_false (by simp) ?_
      rintro ⟨u, hu, -⟩
      cases (parse_zero_iff.mpr hu).symm.trans hrun
  | ok result =>
      obtain ⟨ret, s⟩ := result
      by_cases hret : ret = 0
      · subst hret
        simp only [if_true, Option.some.injEq]
        constructor
        · exact fun hout => ⟨s, parse_zero_iff.mp hrun, hout⟩
        · rintro ⟨u, hu, rfl⟩
          cases (parse_zero_iff.mpr hu).symm.trans hrun
          rfl
      · simp only [if_neg hret]
        refine iff_of_false (by simp) ?_
        rintro ⟨u, hu, -⟩
        cases (parse_zero_iff.mpr hu).symm.trans hrun
        exact hret rfl

/-- A fresh process prints the entries of the records of a complete log. -/
theorem parsed_log (templateDataLen : UInt32) (records : List ImaRecord) :
    parsed libs templateDataLen (logBytes records) = logEntries libs false records := by
  refine Option.ext fun out => ?_
  rw [parsed_eq_some, accepts_log_iff libs records (by rfl)]
  simp [ImaRun.start, eq_comm]

/-- Whether a record has an unknown template name. -/
def overwrites (r : ImaRecord) : Bool := unknownTemplate (cString r.name)

theorem logEntries_append (fmtIsName : Bool) (xs ys : List ImaRecord) :
    logEntries libs fmtIsName (xs ++ ys) = (do
      let entries ← logEntries libs fmtIsName xs
      let more ← logEntries libs (fmtIsName || xs.any overwrites) ys
      return entries ++ more) := by
  induction xs generalizing fmtIsName with
  | nil => simp [logEntries]
  | cons x xs ih =>
      simp only [List.cons_append, logEntries, ih, List.any_cons, overwrites, Bool.or_assoc]
      cases recordEntry libs fmtIsName x with
      | none => rfl
      | some entry =>
          cases logEntries libs (fmtIsName || unknownTemplate (cString x.name)) xs with
          | none => rfl
          | some entries =>
              simp only [Option.bind_eq_bind, Option.bind_some]
              cases logEntries libs
                (fmtIsName || (unknownTemplate (cString x.name) || xs.any overwrites)) ys <;> rfl

end Runs

/-! ## Independence of the history -/

/-- With the log accepted, the record behind it is accepted, and its entry printed, as
if it stood alone in a fresh process. -/
def HistoryIndependent (libs : ImaLibs) (records : List ImaRecord) (r : ImaRecord) : Prop :=
  ∀ len len' out, parsed libs len (logBytes records) = some out →
    parsed libs len (logBytes (records ++ [r])) =
      (parsed libs len' (logBytes [r])).map (out ++ ·)

/-- The record goes through with the descriptors the process starts with. -/
def ImaRecord.Decodes (libs : ImaLibs) (r : ImaRecord) : Prop :=
  r.Valid libs.sha1 ∧ ∃ text, fieldLoop libs.modsig (cString r.name) r.body.templateData
    (strsepAll 124 (fmtOf false (cString r.name))) 0 none = .ok (some text)

section History

variable {libs : ImaLibs}

theorem logEntries_singleton (fmtIsName : Bool) (r : ImaRecord) :
    logEntries libs fmtIsName [r] = (recordEntry libs fmtIsName r).map ([·]) := by
  simp only [logEntries, Option.bind_eq_bind]
  cases recordEntry libs fmtIsName r <;> rfl

theorem historyIndependent_iff_entry {records : List ImaRecord} {r : ImaRecord}
    {out : List ImaEntry} (haccepts : logEntries libs false records = some out) :
    HistoryIndependent libs records r ↔
      recordEntry libs (records.any overwrites) r = recordEntry libs false r := by
  unfold HistoryIndependent
  simp only [parsed_log, logEntries_append, haccepts, logEntries_singleton, Bool.false_or]
  cases recordEntry libs (records.any overwrites) r with
  | none => cases recordEntry libs false r <;> simp
  | some entry => cases recordEntry libs false r <;> simp

theorem recordEntry_ne_none_iff {r : ImaRecord} :
    recordEntry libs false r ≠ none ↔ r.Decodes libs := by
  rw [Option.ne_none_iff_exists']
  constructor
  · rintro ⟨entry, hentry⟩
    obtain ⟨hvalid, text, htext, -⟩ := recordEntry_eq_some.mp hentry
    exact ⟨hvalid, text, htext⟩
  · rintro ⟨hvalid, text, htext⟩
    exact ⟨_, recordEntry_eq_some.mpr ⟨hvalid, text, htext, rfl⟩⟩

/-- A record of two fields of length 0, with its digest. -/
def zeroFields (libs : ImaLibs) (name : Bytes) (hle : name.length ≤ eventNameLenMax)
    (hname : cString name ≠ ascii "ima") : ImaRecord where
  pcr := toLE 4 10
  digest := (libs.sha1 (zeros 8)).val
  name := name
  body := .sized (zeros 8) (by decide)
  pcr_length := rfl
  digest_length := (libs.sha1 (zeros 8)).property
  name_le := hle
  body_kind := (decide_eq_false hname).symm

/-- The overwritten format gives no name. -/
theorem fieldLoop_modsig_overwritten (modsig : Bytes → Bool) (data : Bytes) (text : Bytes) :
    fieldLoop modsig (ascii "ima-modsig") data
      (strsepAll 124 (fmtOf true (ascii "ima-modsig"))) 0 none ≠ .ok (some text) := by
  have hfmt : strsepAll 124 (fmtOf true (ascii "ima-modsig")) = [ascii "ima-modsig"] := by decide
  rw [hfmt, fieldLoop]
  cases fieldLength (ascii "ima-modsig") data (ascii "ima-modsig") 0 with
  | error w => simp [bind, Except.bind]
  | ok field =>
      obtain ⟨fieldLen, offset⟩ := field
      have hstep : fieldStep modsig (ascii "ima-modsig") data (ascii "ima-modsig") offset fieldLen
          none = .ok (.next (offset + fieldLen) none) := by
        unfold fieldStep
        rw [if_neg (by decide), if_pos (by decide), if_neg (by decide), if_neg (by decide),
          if_neg (by decide), if_neg (by decide)]
      simp [bind, Except.bind, hstep, fieldLoop]

theorem recordEntry_modsig {r : ImaRecord} (hname : cString r.name = ascii "ima-modsig") :
    recordEntry libs true r = none := by
  refine Option.eq_none_iff_forall_ne_some.mpr fun entry hentry => ?_
  obtain ⟨-, text, htext, -⟩ := recordEntry_eq_some.mp hentry
  rw [hname] at htext
  exact fieldLoop_modsig_overwritten _ _ _ htext

/-- Every other record is decoded alike. -/
theorem recordEntry_of_ne_modsig {r : ImaRecord} (hname : cString r.name ≠ ascii "ima-modsig")
    (fmtIsName : Bool) : recordEntry libs fmtIsName r = recordEntry libs false r := by
  have hfmt : fmtOf fmtIsName (cString r.name) = fmtOf false (cString r.name) := by
    simp [fmtOf, hname]
  unfold recordEntry
  dsimp only
  rw [hfmt]

/-- A record behind an accepted log is parsed as if it stood alone, unless a record
with an unknown template stands in front of an `ima-modsig` record that decodes. -/
theorem historyIndependent_iff (libs : ImaLibs) (records : List ImaRecord) (r : ImaRecord)
    {len : UInt32} {out : List ImaEntry}
    (haccepts : parsed libs len (logBytes records) = some out) :
    HistoryIndependent libs records r ↔
      ¬((∃ x ∈ records, unknownTemplate (cString x.name) = true) ∧
        cString r.name = ascii "ima-modsig" ∧ r.Decodes libs) := by
  rw [parsed_log] at haccepts
  rw [historyIndependent_iff_entry haccepts]
  have hany : (∃ x ∈ records, unknownTemplate (cString x.name) = true) ↔
      records.any overwrites = true := List.any_eq_true.symm
  rw [hany]
  by_cases hname : cString r.name = ascii "ima-modsig"
  · cases records.any overwrites with
    | false => simp
    | true =>
        rw [recordEntry_modsig hname, ← recordEntry_ne_none_iff]
        simp [hname, eq_comm]
  · simp [hname, recordEntry_of_ne_modsig hname]

/-- The digests of the source, and no module signature parses. -/
def shaLibs : ImaLibs := ⟨Sha1.sha1, Sha256.sha256, fun _ => false⟩

section Records

variable (libs : ImaLibs)

/-- A record with the template `ima-ng`. -/
def ngRecord : ImaRecord := zeroFields libs (ascii "ima-ng") (by decide) (by decide)

/-- A record with an unknown template that describes itself. -/
def unknownRecord : ImaRecord := zeroFields libs (ascii "ima-ng|n-ng") (by decide) (by decide)

def modsigRecord : ImaRecord := zeroFields libs (ascii "ima-modsig") (by decide) (by decide)

/-- What is printed for the records that give an empty name. -/
def zeroEntry : ImaEntry := ⟨basename [], hexText (libs.sha256 (zeros 8)).val, []⟩

theorem recordEntry_ngRecord : recordEntry libs false (ngRecord libs) = some (zeroEntry libs) :=
  recordEntry_eq_some.mpr ⟨rfl, [], rfl, rfl⟩

theorem recordEntry_unknownRecord :
    recordEntry libs false (unknownRecord libs) = some (zeroEntry libs) :=
  recordEntry_eq_some.mpr ⟨rfl, [], rfl, rfl⟩

theorem modsigRecord_decodes : (modsigRecord libs).Decodes libs := ⟨rfl, [], rfl⟩

theorem modsigRecord_name : cString (modsigRecord libs).name = ascii "ima-modsig" := by
  change cString (ascii "ima-modsig") = ascii "ima-modsig"
  decide

theorem ngRecord_known : unknownTemplate (cString (ngRecord libs).name) = false := by
  change unknownTemplate (cString (ascii "ima-ng")) = false
  decide

theorem unknownRecord_unknown : unknownTemplate (cString (unknownRecord libs).name) = true := by
  change unknownTemplate (cString (ascii "ima-ng|n-ng")) = true
  decide

end Records

/-- Behind a record of a known template the `ima-modsig` record stands as if alone, behind
one of an unknown template it does not. -/
theorem historyIndependent_iff_oneRecord :
    parsed shaLibs 0 (logBytes [ngRecord shaLibs]) = some [zeroEntry shaLibs] ∧
      HistoryIndependent shaLibs [ngRecord shaLibs] (modsigRecord shaLibs) ∧
      parsed shaLibs 0 (logBytes [unknownRecord shaLibs]) = some [zeroEntry shaLibs] ∧
      ¬HistoryIndependent shaLibs [unknownRecord shaLibs] (modsigRecord shaLibs) := by
  have hng : parsed shaLibs 0 (logBytes [ngRecord shaLibs]) = some [zeroEntry shaLibs] := by
    rw [parsed_log, logEntries_singleton, recordEntry_ngRecord]
    rfl
  have hunknown : parsed shaLibs 0 (logBytes [unknownRecord shaLibs]) =
      some [zeroEntry shaLibs] := by
    rw [parsed_log, logEntries_singleton, recordEntry_unknownRecord]
    rfl
  refine ⟨hng, ?_, hunknown, ?_⟩
  · rw [historyIndependent_iff shaLibs _ _ hng]
    rintro ⟨⟨x, hx, hname⟩, -⟩
    rw [List.mem_singleton.mp hx, ngRecord_known] at hname
    exact Bool.false_ne_true hname
  · rw [historyIndependent_iff shaLibs _ _ hunknown, not_not]
    exact ⟨⟨_, List.mem_singleton_self _, unknownRecord_unknown shaLibs⟩,
      modsigRecord_name shaLibs, modsigRecord_decodes shaLibs⟩

/-- A record whose unknown template describes itself turns down the `ima-modsig`
record behind it, whatever the hash functions. -/
theorem modsig_after_unknown :
    ¬∃ libs : ImaLibs, ∀ (records : List ImaRecord) (r : ImaRecord),
      HistoryIndependent libs records r := by
  rintro ⟨libs, h⟩
  have haccepts : logEntries libs false [unknownRecord libs] = some [zeroEntry libs] := by
    rw [logEntries_singleton, recordEntry_unknownRecord]
    rfl
  have hequal := (historyIndependent_iff_entry haccepts).mp
    (h [unknownRecord libs] (modsigRecord libs))
  have hany : [unknownRecord libs].any overwrites = true := by
    rw [List.any_cons, List.any_nil, Bool.or_false]
    exact unknownRecord_unknown libs
  rw [hany, recordEntry_modsig (modsigRecord_name libs)] at hequal
  exact recordEntry_ne_none_iff.mpr (modsigRecord_decodes libs) hequal.symm

end History

end MeasuredBoot.Ima
