import MeasuredBoot.Common.Sha2
import MeasuredBoot.Ima.Generator
import MeasuredBoot.SrtmPcrs.Program

/-! # Files skipped in silence

`calculate_ima_entries` and `calculate_paths` walk their paths alike and drop the
same statuses: that of a nested directory, of an entry that does not resolve, of a path
argument that is a file, and of `evlog_add`. A read error only ends the data of a file,
and an entry whose path does not fit the buffer is taken for what the cut path names.
-/

namespace MeasuredBoot

open Binary Imperative Imperative.Proc

theorem hashFile_of_opens {n : Nat} (md : Md n) {f : File} (h : f.opens = true) :
    hashFile md f = some (md f.chunks.flatten) := by
  simp [hashFile, h]

theorem hashFile_of_not_opens {n : Nat} (md : Md n) {f : File} (h : ¬f.opens = true) :
    hashFile md f = none := by
  simp [hashFile, h]

/-! ## Records and the log -/

section Records

variable {ρ ι : Type} [DecidableEq ι] {add : Allocations → (ι → Option Bytes) → ρ →
  Except Stop (Int × (ι → Option Bytes))} {alloc : Nat → Allocations} {index : ρ → ι}
  {text : ρ → Bytes} {i : ι}

/-- Whenever the calls for the records of a walk come through, the log has got the records
it should: some digest has no memory, or the records are these and all of them were kept. -/
theorem recordsKept_iff {walked expected : List ρ}
    (hwalked : ∀ r ∈ walked, Appends add index text r ∧ index r = i) (P : Prop) :
    (∀ log after, addRecords add alloc 0 walked log = .ok after →
        P ∧ walked = expected ∧ after = appendedLogs index text log expected) ↔
      (∃ k < walked.length, (alloc k).hex = false) ∨
        P ∧ walked = expected ∧ ∀ k < expected.length, (alloc k).log = true := by
  have hadd : ∀ r ∈ walked, Appends add index text r := fun r hr => (hwalked r hr).1
  have hindex : ∀ r ∈ walked, index r = i := fun r hr => (hwalked r hr).2
  have hcomplete : ∀ log after, addRecords add alloc 0 walked log = .ok after →
      (after = appendedLogs index text log walked ↔ ∀ k < walked.length, (alloc k).log = true) := by
    intro log after hrun
    simpa using addRecords_complete_iff hadd hindex hrun
  have hreturns : ∀ log, (∃ after, addRecords add alloc 0 walked log = .ok after) ↔
      ∀ k < walked.length, (alloc k).hex = true := by
    intro log
    simpa using @addRecords_ok_iff _ _ _ alloc _ _ _ 0 _ hadd log
  constructor
  · intro h
    by_cases hhex : ∃ k < walked.length, (alloc k).hex = false
    · exact Or.inl hhex
    · simp only [not_exists, not_and, Bool.not_eq_false] at hhex
      obtain ⟨after, hrun⟩ := (hreturns fun _ => none).mpr hhex
      obtain ⟨hp, rfl, hafter⟩ := h _ after hrun
      exact Or.inr ⟨hp, rfl, (hcomplete _ after hrun).mp hafter⟩
  · rintro (⟨k, hk, hhex⟩ | ⟨hp, rfl, hlog⟩) log after hrun
    · have htrue := (hreturns log).mp ⟨after, hrun⟩ k hk
      rw [hhex] at htrue
      cases htrue
    · exact ⟨hp, rfl, (hcomplete log after hrun).mpr hlog⟩

end Records

/-! ## The condition -/

section Condition

variable {ρ : Type} (args : PathArgs) (accepts : RealFile → Bool) (Good : RealFile → Prop)
  (alloc : Nat → Allocations)

/-- The walk reports a failure, or has no memory for the digest of a record, or nothing is
lost: everything was processed, the files found along the cut paths have the records of the
files that are there, and there was memory for all of them in the log. -/
def NothingSkipped (read content : RealFile → ρ) : Prop :=
  args.fs.reports accepts args.paths = true ∨
    (∃ k < (args.fs.pathsWalked accepts args.paths).length, (alloc k).hex = false) ∨
    args.fs.AllProcessed Good args.paths ∧
      (args.fs.pathsWalked accepts args.paths).map read =
        (args.fs.pathsFiles args.paths).map content ∧
      ∀ k < (args.fs.pathsFiles args.paths).length, (alloc k).log = true

/-- The same of paths that all fit the buffer. -/
def NothingFails : Prop :=
  args.fs.reports accepts args.paths = true ∨
    (∃ k < (args.fs.pathsWalked accepts args.paths).length, (alloc k).hex = false) ∨
    args.fs.AllProcessed Good args.paths ∧
      ∀ k < (args.fs.pathsFiles args.paths).length, (alloc k).log = true

variable {args} {accepts} {Good} {alloc}

theorem nothingSkipped_iff_of_fit {read content : RealFile → ρ}
    (hgood : ∀ f, Good f → accepts f = true ∧ read f = content f)
    (hfit : args.fs.AllPathsFit args.paths) :
    NothingSkipped args accepts Good alloc read content ↔
      NothingFails args accepts Good alloc := by
  refine or_congr_right (or_congr_right (and_congr_right fun hprocessed => ?_))
  have hfiles := FileSystem.pathsWalked_eq_files (fun f hf => (hgood f hf).1) hfit hprocessed
  have hrecords : (args.fs.pathsWalked accepts args.paths).map read =
      (args.fs.pathsFiles args.paths).map content := by
    rw [hfiles]
    exact List.map_congr_left fun f hf =>
      (hgood f (FileSystem.good_of_mem_pathsFiles hprocessed hf)).2
  exact and_iff_right hrecords

/-- Where the walk returns 0 and the log could be written, it is the one wanted. -/
theorem nothingSkipped_iff_kept {ι : Type} [DecidableEq ι] {add : Allocations →
    (ι → Option Bytes) → ρ → Except Stop (Int × (ι → Option Bytes))} {index : ρ → ι}
    {text : ρ → Bytes} {i : ι} {read content : RealFile → ρ}
    (hread : ∀ f, Appends add index text (read f) ∧ index (read f) = i) :
    NothingSkipped args accepts Good alloc read content ↔
      (args.fs.reports accepts args.paths = false → ∀ log after,
        addRecords add alloc 0 ((args.fs.pathsWalked accepts args.paths).map read) log =
            .ok after →
          args.fs.AllProcessed Good args.paths ∧
            (args.fs.pathsWalked accepts args.paths).map read =
              (args.fs.pathsFiles args.paths).map content ∧
            after = appendedLogs index text log
              ((args.fs.pathsFiles args.paths).map content)) := by
  have hwalked : ∀ r ∈ (args.fs.pathsWalked accepts args.paths).map read,
      Appends add index text r ∧ index r = i := by
    intro r hr
    obtain ⟨f, -, rfl⟩ := List.mem_map.mp hr
    exact hread f
  have hkept := @recordsKept_iff _ _ _ _ alloc _ _ _ _
    ((args.fs.pathsFiles args.paths).map content) hwalked (args.fs.AllProcessed Good args.paths)
  rw [List.length_map, List.length_map] at hkept
  rw [hkept, NothingSkipped]
  cases args.fs.reports accepts args.paths with
  | true => exact iff_of_true (Or.inl rfl) fun h => absurd h.symm Bool.false_ne_true
  | false => rw [or_iff_right Bool.false_ne_true, forall_prop_of_true rfl]

theorem reports_eq_false {b : Bool} (h : (if b then (-1 : Int) else 0) = 0) : b = false := by
  cases b with
  | false => rfl
  | true => exact absurd h (by decide)

end Condition

/-! ## PCR 9 -/

namespace SrtmPcrs

/-- The record of a file, for the bytes it is hashed from. -/
def pathRecord (sha256 : Md 32) (bytes : Bytes) (f : RealFile) : LogEntry 32 :=
  ⟨9, ascii "EV_IPL", sha256 bytes, f.file.path⟩

/-- The record of what is read from a file. -/
def recordRead (sha256 : Md 32) (f : RealFile) : LogEntry 32 :=
  pathRecord sha256 f.file.chunks.flatten f

/-- The record of what is in a file. -/
def recordContent (sha256 : Md 32) (f : RealFile) : LogEntry 32 :=
  pathRecord sha256 f.file.content f

/-- The record and the extend of a file. -/
def measureFile (sha256 : Md 32) (f : RealFile) (s : Measurement 32) : Measurement 32 where
  mr := hashExtend sha256 s.mr (recordRead sha256 f).hash
  evlog := s.evlog ++ [recordRead sha256 f]

theorem calculatePath_processor (sha256 : Md 32) :
    Processor (fun _ => True) (calculatePath sha256) (fun f => f.file.opens)
      (measureFile sha256) where
  keeps _ _ _ := trivial
  accepted f s _ hopens := by
    unfold calculatePath call
    rw [hashFile_of_opens sha256 hopens]
    rfl
  rejected f s _ hopens := by
    refine ⟨-1, ?_, by decide⟩
    unfold calculatePath call
    rw [hashFile_of_not_opens sha256 (Bool.eq_false_iff.mp hopens)]
    rfl

theorem workAll_measureFile (sha256 : Md 32) (files : List RealFile) (s : Measurement 32) :
    workAll (measureFile sha256) files s =
      ⟨replayFrom sha256 s.mr ((files.map (recordRead sha256)).map LogEntry.hash),
        s.evlog ++ files.map (recordRead sha256)⟩ := by
  induction files generalizing s with
  | nil =>
      rw [workAll_nil, List.map_nil, List.append_nil]
      rfl
  | cons f files ih =>
      rw [workAll_cons, ih, measureFile, List.map_cons, List.map_cons, List.append_assoc]
      rfl

theorem recordRead_appends (sha256 : Md 32) (format : Format) (f : RealFile) :
    Appends (srtmEvlogAdd format) LogEntry.index (recordText format) (recordRead sha256 f) :=
  srtmEvlogAdd_appends format (by decide : 9 < maxPcrs)

/-- `calculate_paths` returns, and if it returns 0, every entry below the paths was processed
and made one record of the log and one extend, in order. -/
def PathsSound (sha256 : Md 32) (format : Format) (alloc : Nat → Allocations)
    (args : PathArgs) : Prop :=
  ∀ mr log, ∃ ret t, run (calculatePaths sha256 args) ⟨mr, []⟩ = .ok (ret, t) ∧
    ∀ after, addRecords (srtmEvlogAdd format) alloc 0 t.evlog log = .ok after → ret = 0 →
      let records := (args.fs.pathsFiles args.paths).map (recordContent sha256)
      args.fs.AllProcessed (fun f => f.file.Streams) args.paths ∧
        t = ⟨replayFrom sha256 mr (records.map LogEntry.hash), records⟩ ∧
        after = appendedLogs LogEntry.index (recordText format) log records

theorem pathsSound_iff (sha256 : Md 32) (format : Format) (alloc : Nat → Allocations)
    (args : PathArgs) :
    PathsSound sha256 format alloc args ↔
      NothingSkipped args (fun f => f.file.opens) (fun f => f.file.Streams) alloc
        (recordRead sha256) (recordContent sha256) := by
  let accepts : RealFile → Bool := fun f => f.file.opens
  let walked := (args.fs.pathsWalked accepts args.paths).map (recordRead sha256)
  have hrun : ∀ mr, run (calculatePaths sha256 args) ⟨mr, []⟩ =
      .ok (if args.fs.reports accepts args.paths then -1 else 0,
        ⟨replayFrom sha256 mr (walked.map LogEntry.hash), walked⟩) := by
    intro mr
    unfold calculatePaths calculatePathsRecursively
    rw [walkPaths_run (calculatePath_processor sha256) args.paths trivial, workAll_measureFile]
    rfl
  have hread : ∀ f, Appends (srtmEvlogAdd format) LogEntry.index (recordText format)
      (recordRead sha256 f) ∧ (recordRead sha256 f).index = 9 :=
    fun f => ⟨recordRead_appends sha256 format f, rfl⟩
  rw [nothingSkipped_iff_kept hread]
  constructor
  · intro hsound hreports log after hadd
    obtain ⟨ret, t, ht, hzero⟩ := hsound (zeroDigest 32) log
    rw [hrun, hreports] at ht
    cases ht
    obtain ⟨hprocessed, hstate, hafter⟩ := hzero after hadd rfl
    exact ⟨hprocessed, congrArg Measurement.evlog hstate, hafter⟩
  · intro hall mr log
    refine ⟨_, _, hrun mr, fun after hadd hzero => ?_⟩
    obtain ⟨hprocessed, hrecords, hafter⟩ := hall (reports_eq_false hzero) log after hadd
    have hwalked : walked = _ := hrecords
    exact ⟨hprocessed, by rw [hwalked], hafter⟩

end SrtmPcrs

/-! ## IMA -/

namespace ImaPaths

open Ima

/-- `evlog->strip`, and the strings `strdup` has memory for. -/
structure StripEnv where
  strip : Option Bytes
  strdup : Bytes → Bool

/-- The path without the prefix, if it starts with it. -/
def strippedPath (strip : Option Bytes) (s : Bytes) : Bytes :=
  match strip with
  | none => s
  | some pre => if pre.isPrefixOf s then s.drop pre.length else s

/-- `strip_prefix_new`: the copy, or none where `strdup` returns `NULL`. -/
def stripPrefixNew (env : StripEnv) (s : Bytes) : Option Bytes :=
  let stripped := strippedPath env.strip s
  if env.strdup stripped then some stripped else none

def calculateImaEntryPath (sha256 : Md 32) (env : StripEnv) (path : RealFile) :
    Proc EventLog Int :=
  match hashFile sha256 path.file with
  | none => exit (-1)
  | some hash =>
      match stripPrefixNew env path.file.path with
      | none => exit (-1)
      | some stripped => calculateImaEntry sha256 hash stripped true

def calculateImaEntriesRecursively (sha256 : Md 32) (env : StripEnv) (fs : FileSystem) :
    Nat → List Nat → Bytes → Proc EventLog Int :=
  walkDirectory fs (calculateImaEntryPath sha256 env)

def calculateImaEntries (sha256 : Md 32) (env : StripEnv) (args : PathArgs) :
    Proc EventLog Int :=
  walkPaths args.fs (calculateImaEntryPath sha256 env)
    (calculateImaEntriesRecursively sha256 env args.fs args.fs.depth) args.paths

theorem strippedPath_sublist (strip : Option Bytes) (s : Bytes) :
    (strippedPath strip s).Sublist s := by
  unfold strippedPath
  cases strip with
  | none => exact List.Sublist.refl s
  | some pre =>
      dsimp only
      split
      · exact List.drop_sublist _ s
      · exact List.Sublist.refl s

/-- The name a file is logged under. -/
def loggedName (strip : Option Bytes) (f : RealFile) : PathName where
  bytes := strippedPath strip f.file.path
  nul_free h := f.nul_free ((strippedPath_sublist strip f.file.path).subset h)
  length_lt := by
    have hlen := (strippedPath_sublist strip f.file.path).length_le
    have hpath := f.path_lt
    omega

theorem stripPrefixNew_eq (env : StripEnv) (f : RealFile) :
    stripPrefixNew env f.file.path =
      if env.strdup (strippedPath env.strip f.file.path) then
        some (loggedName env.strip f).bytes
      else none := rfl

/-- The template a name stands for. -/
def templateOf (name : Bytes) : Option Template :=
  if name = ascii "ima-sig" then some .imaSig
  else if name = ascii "ima-ng" then some .imaNg
  else none

theorem templateOf_eq_some {name : Bytes} {t : Template} (h : templateOf name = some t) :
    name = t.name := by
  unfold templateOf at h
  split at h
  · cases h
    assumption
  · split at h
    · cases h
      assumption
    · cases h

theorem imaTemplate_of_unsupported {name : Bytes} (h : templateOf name = none) (hash : Digest 32)
    (path : Bytes) : imaTemplate name hash path = .ok none := by
  unfold templateOf at h
  have hsig : name ≠ ascii "ima-sig" := by
    rintro rfl
    simp at h
  rw [if_neg hsig] at h
  have hng : name ≠ ascii "ima-ng" := by
    rintro rfl
    simp at h
  simp only [imaTemplate, templateLen, if_neg hsig, if_neg hng]

/-- The file is opened, its name has memory and its template is supported. -/
def accepts (template : Bytes) (env : StripEnv) (f : RealFile) : Bool :=
  f.file.opens && env.strdup (strippedPath env.strip f.file.path) &&
    (templateOf template).isSome

/-- And all of it is read. -/
structure Good (template : Bytes) (env : StripEnv) (f : RealFile) : Prop where
  accepted : accepts template env f = true
  streams : f.file.Streams

/-- The entry of a file, for the bytes it is hashed from. -/
def entryOf (sha256 : Md 32) (template : Bytes) (env : StripEnv) (bytes : Bytes) (f : RealFile) :
    Bytes × Digest 32 × Bool :=
  let path := loggedName env.strip f
  let array := (templateOf template).toList.flatMap fun t => templateBytes t (sha256 bytes) path
  (path.bytes, sha256 array, true)

/-- The entry of what is read from a file. -/
def entryRead (sha256 : Md 32) (template : Bytes) (env : StripEnv) (f : RealFile) :
    Bytes × Digest 32 × Bool := entryOf sha256 template env f.file.chunks.flatten f

/-- The entry of what is in a file. -/
def entryContent (sha256 : Md 32) (template : Bytes) (env : StripEnv) (f : RealFile) :
    Bytes × Digest 32 × Bool := entryOf sha256 template env f.file.content f

def logFile (sha256 : Md 32) (template : Bytes) (env : StripEnv) (f : RealFile) (s : EventLog) :
    EventLog :=
  { s with entries := s.entries ++ [entryRead sha256 template env f] }

theorem calculateImaEntryPath_processor (sha256 : Md 32) (template : Bytes) (env : StripEnv) :
    Processor (fun s => s.template = template) (calculateImaEntryPath sha256 env)
      (accepts template env) (logFile sha256 template env) where
  keeps _ _ hs := hs
  accepted f s hs haccepts := by
    obtain ⟨name, entries⟩ := s
    obtain rfl : name = template := hs
    unfold accepts at haccepts
    rw [Bool.and_eq_true, Bool.and_eq_true] at haccepts
    obtain ⟨⟨hopens, hstrdup⟩, hsupported⟩ := haccepts
    obtain ⟨t, ht⟩ := Option.isSome_iff_exists.mp hsupported
    have hname : name = t.name := templateOf_eq_some ht
    have hrun := calculateImaEntry_run sha256 t (sha256 f.file.chunks.flatten)
      (loggedName env.strip f) true entries
    rw [← hname] at hrun
    have hentry : calculateImaEntryPath sha256 env f = calculateImaEntry sha256
        (sha256 f.file.chunks.flatten) (loggedName env.strip f).bytes true := by
      unfold calculateImaEntryPath
      rw [hashFile_of_opens sha256 hopens, stripPrefixNew_eq, if_pos hstrdup]
    have hcall := call_of_run hrun
    rw [← hentry] at hcall
    rw [hcall, logFile, entryRead, entryOf, ht, Option.toList_some, List.flatMap_singleton]
  rejected f s hs hrejects := by
    refine ⟨-1, ?_, by decide⟩
    unfold calculateImaEntryPath
    by_cases hopens : f.file.opens = true
    · by_cases hdup : env.strdup (strippedPath env.strip f.file.path) = true
      · have hnone : templateOf template = none := by
          unfold accepts at hrejects
          rw [hopens, hdup] at hrejects
          exact Option.not_isSome_iff_eq_none.mp (Bool.eq_false_iff.mp hrejects)
        rw [hashFile_of_opens sha256 hopens, stripPrefixNew_eq, if_pos hdup]
        simp only [calculateImaEntry, call, bind_apply, getState_apply, andThen_next, hs,
          imaTemplate_of_unsupported hnone, lift_ok_apply, exit_apply]
      · rw [hashFile_of_opens sha256 hopens, stripPrefixNew_eq, if_neg hdup]
        rfl
    · rw [hashFile_of_not_opens sha256 hopens]
      rfl

theorem workAll_logFile (sha256 : Md 32) (template : Bytes) (env : StripEnv)
    (files : List RealFile) (s : EventLog) :
    workAll (logFile sha256 template env) files s =
      ⟨s.template, s.entries ++ files.map (entryRead sha256 template env)⟩ := by
  induction files generalizing s with
  | nil => rw [workAll_nil, List.map_nil, List.append_nil]
  | cons f files ih =>
      rw [workAll_cons, ih, logFile, List.map_cons, List.append_assoc]
      rfl

/-- `calculate_ima_entries` returns, and if it returns 0, every entry below the paths was
processed and made one entry of the log, in order. -/
def ImaEntriesSound (sha256 : Md 32) (template : Bytes) (env : StripEnv) (format : ImaFormat)
    (pcr : Int) (alloc : Nat → Allocations) (args : PathArgs) : Prop :=
  ∀ log, ∃ ret t, run (calculateImaEntries sha256 env args) ⟨template, []⟩ = .ok (ret, t) ∧
    ∀ after, addRecords (addEntry format pcr) alloc 0 t.entries log = .ok after → ret = 0 →
      let entries := (args.fs.pathsFiles args.paths).map (entryContent sha256 template env)
      args.fs.AllProcessed (Good template env) args.paths ∧ t.entries = entries ∧
        after = appendedLogs (fun _ => ()) (imaRecordText format pcr) log entries

theorem imaEntriesSound_iff (sha256 : Md 32) (template : Bytes) (env : StripEnv)
    (format : ImaFormat) (pcr : Int) (alloc : Nat → Allocations) (args : PathArgs) :
    ImaEntriesSound sha256 template env format pcr alloc args ↔
      NothingSkipped args (accepts template env) (Good template env) alloc
        (entryRead sha256 template env) (entryContent sha256 template env) := by
  let walked := (args.fs.pathsWalked (accepts template env) args.paths).map
    (entryRead sha256 template env)
  have hrun : run (calculateImaEntries sha256 env args) ⟨template, []⟩ =
      .ok (if args.fs.reports (accepts template env) args.paths then -1 else 0,
        ⟨template, walked⟩) := by
    unfold calculateImaEntries calculateImaEntriesRecursively
    rw [walkPaths_run (calculateImaEntryPath_processor sha256 template env) args.paths rfl,
      workAll_logFile]
    rfl
  have hread : ∀ f, Appends (addEntry format pcr) (fun _ => ()) (imaRecordText format pcr)
      (entryRead sha256 template env f) ∧ () = () :=
    fun f => ⟨addEntry_appends format pcr _, rfl⟩
  rw [nothingSkipped_iff_kept hread]
  constructor
  · intro hsound hreports log after hadd
    obtain ⟨ret, t, ht, hzero⟩ := hsound log
    rw [hrun, hreports] at ht
    cases ht
    exact hzero after hadd rfl
  · intro hall log
    exact ⟨_, _, hrun, fun after hadd hzero => hall (reports_eq_false hzero) log after hadd⟩

end ImaPaths

/-! ## Both walks -/

/-- Both walks are sound exactly where nothing is skipped in silence; where the paths fit the
buffer, that is where every failure is one of those that are reported. -/
theorem walks_sound_iff (sha256 : Md 32) (template : Bytes) (env : ImaPaths.StripEnv)
    (format : SrtmPcrs.Format) (imaFormat : Ima.ImaFormat) (pcr : Int)
    (alloc : Nat → Allocations) (args : PathArgs) :
    (SrtmPcrs.PathsSound sha256 format alloc args ↔
        NothingSkipped args (fun f => f.file.opens) (fun f => f.file.Streams) alloc
          (SrtmPcrs.recordRead sha256) (SrtmPcrs.recordContent sha256)) ∧
      (ImaPaths.ImaEntriesSound sha256 template env imaFormat pcr alloc args ↔
        NothingSkipped args (ImaPaths.accepts template env) (ImaPaths.Good template env) alloc
          (ImaPaths.entryRead sha256 template env) (ImaPaths.entryContent sha256 template env)) ∧
      (args.fs.AllPathsFit args.paths →
        (SrtmPcrs.PathsSound sha256 format alloc args ↔
          NothingFails args (fun f => f.file.opens) (fun f => f.file.Streams) alloc) ∧
        (ImaPaths.ImaEntriesSound sha256 template env imaFormat pcr alloc args ↔
          NothingFails args (ImaPaths.accepts template env) (ImaPaths.Good template env)
            alloc)) := by
  have hpaths := SrtmPcrs.pathsSound_iff sha256 format alloc args
  have hentries := ImaPaths.imaEntriesSound_iff sha256 template env imaFormat pcr alloc args
  refine ⟨hpaths, hentries, fun hfit => ⟨hpaths.trans ?_, hentries.trans ?_⟩⟩
  · apply nothingSkipped_iff_of_fit _ hfit
    intro f hstreams
    refine ⟨hstreams.1, ?_⟩
    rw [SrtmPcrs.recordRead, SrtmPcrs.recordContent, hstreams.2]
  · apply nothingSkipped_iff_of_fit _ hfit
    intro f hgood
    refine ⟨hgood.accepted, ?_⟩
    rw [ImaPaths.entryRead, ImaPaths.entryContent, hgood.streams.2]

/-- A directory with a subdirectory that cannot be opened. -/
def closedSubdirectory : PathArgs where
  fs :=
    { depth := 2
      stat := fun _ _ => some true
      leftover := fun _ => false
      opendir := fun _ path => if path = ascii "d" then some ⟨[ascii "s"], true⟩ else none
      concat := fun _ => true
      realpath := fun _ _ => none }
  paths := [ascii "d"]

/-- Both return 0 without having seen what is in the subdirectory. -/
theorem closedSubdirectory_skipped :
    ¬SrtmPcrs.PathsSound Sha256.sha256 .text (fun _ => ⟨true, true⟩) closedSubdirectory ∧
      ¬ImaPaths.ImaEntriesSound Sha256.sha256 (ascii "ima-sig") ⟨none, fun _ => true⟩ .text 10
        (fun _ => ⟨true, true⟩) closedSubdirectory := by
  have hskipped : ∀ Good : RealFile → Prop,
      ¬closedSubdirectory.fs.AllProcessed Good closedSubdirectory.paths := by
    intro Good hprocessed
    obtain ⟨dir, hopen, -, hentries⟩ := hprocessed _ (List.mem_singleton.mpr rfl)
    cases hopen
    obtain ⟨inner, hinner, -⟩ := hentries _ (List.mem_singleton.mpr rfl)
    cases hinner
  constructor
  · intro hsound
    obtain ⟨ret, t, hrun, hzero⟩ := hsound (zeroDigest 32) fun _ => none
    cases hrun
    exact hskipped _ (hzero _ rfl rfl).1
  · intro hsound
    obtain ⟨ret, t, hrun, hzero⟩ := hsound fun _ => none
    cases hrun
    exact hskipped _ (hzero _ rfl rfl).1

end MeasuredBoot
