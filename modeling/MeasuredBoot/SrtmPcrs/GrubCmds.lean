import MeasuredBoot.SrtmPcrs.Pcrs

/-! # The command file of PCR 8

`calculate_pcr8` takes the buffer of the file for a C string. It has no NUL behind
its last byte, so `strtok` reads on in the heap, and a NUL in the file ends it early.
-/

namespace MeasuredBoot.SrtmPcrs

open Binary Imperative Imperative.Proc

def newline : UInt8 := 10

/-- The record of a measured line. -/
def grubEntry (libs : PcrLibs) (line : Bytes) : LogEntry 32 :=
  ⟨8, ascii "EV_IPL", hashBuf libs.sha256 line, line⟩

/-- `calculate_pcr8` returns 0 with the lines of the file logged in order and the register
their replay. -/
def LinesMeasured (libs : PcrLibs) (f : File) (behind : Bytes) : Prop :=
  ∀ s, ∃ lines s', Tokens newline f.content lines ∧
    run (calculatePcr8 libs ⟨some f, behind⟩) s = .ok (0, s') ∧
    s'.mr = replay libs.sha256 (lines.map libs.sha256) ∧
    s'.evlog = s.evlog ++ lines.map (grubEntry libs)

/-- `strtok` reads up to the first NUL, that one included. -/
def bytesRead (f : File) (behind : Bytes) : Nat := (cString (f.content ++ behind)).length + 1

/-- The lines of the file are measured, and nothing outside it is read. -/
structure GrubCmdsSound (libs : PcrLibs) (f : File) (behind : Bytes) : Prop where
  lines : LinesMeasured libs f behind
  reads : bytesRead f behind ≤ f.content.length

section GrubCmds

variable {libs : PcrLibs} {f : File} {behind : Bytes}

/-- The state after the lines are measured. -/
def Measurement.afterLines (libs : PcrLibs) (lines : List Bytes) (s : Measurement 32) :
    Measurement 32 :=
  ⟨replayFrom libs.sha256 s.mr (lines.map libs.sha256), s.evlog ++ lines.map (grubEntry libs)⟩

theorem measureGrubCmd_loop (libs : PcrLibs) (lines : List Bytes) (s : Measurement 32) :
    forEach (measureGrubCmd libs) lines s = .next () (Measurement.afterLines libs lines s) := by
  induction lines generalizing s with
  | nil => simp [forEach, Measurement.afterLines, replayFrom, HashChain.value]
  | cons line lines ih =>
      have hround : measureGrubCmd libs line s =
          .next () (Measurement.afterLines libs [line] s) := rfl
      rw [forEach, bind_apply, hround, andThen_next, ih]
      simp only [Measurement.afterLines, List.map_cons, List.map_nil, List.append_assoc,
        List.cons_append, List.nil_append]
      rw [← replayFrom_append, List.singleton_append]

theorem calculatePcr8_of_file :
    calculatePcr8 libs ⟨some f, behind⟩ = (do
      update Measurement.clear
      measureGrubCmds libs behind f
      return 0) := by
  have hloop : forEach (measureGrubCmds libs behind) [f] = measureGrubCmds libs behind f :=
    bind_pure _
  unfold calculatePcr8
  rw [Option.toList_some, hloop]

/-- The strings measured are the tokens in front of the first NUL. -/
theorem calculatePcr8_run (hread : f.Readable) (s : Measurement 32) :
    run (calculatePcr8 libs ⟨some f, behind⟩) s = .ok (0,
      Measurement.afterLines libs (strtokAll newline (cString (f.content ++ behind))) s.clear) := by
  have hcmds : measureGrubCmds libs behind f =
      forEach (measureGrubCmd libs) (strtokAll newline (cString (f.content ++ behind))) := by
    unfold measureGrubCmds
    rw [readFile_of_readable hread]
    rfl
  rw [calculatePcr8_of_file, hcmds, run, bind_apply, update_apply, andThen_next, bind_apply,
    measureGrubCmd_loop]
  rfl

theorem calculatePcr8_unreadable (hread : ¬f.Readable) (s : Measurement 32) :
    run (calculatePcr8 libs ⟨some f, behind⟩) s = .ok (-1, s.clear) := by
  have hcmds : measureGrubCmds libs behind f = exit (-1) := by
    unfold measureGrubCmds
    rw [readFile_eq_none.mpr hread]
  rw [calculatePcr8_of_file, hcmds]
  rfl

/-- The tokens of the string are the lines of the file exactly if the file has no NUL, and
only newlines are between its end and the next one. -/
theorem tokens_cString_iff (content behind : Bytes) :
    strtokAll newline (cString (content ++ behind)) = strtokAll newline content ↔
      (0 : UInt8) ∉ content ∧ ∀ b ∈ cString behind, b = newline := by
  constructor
  · intro h
    have hflat := congrArg List.flatten h
    rw [strtokAll_flatten, strtokAll_flatten] at hflat
    have hfree : (0 : UInt8) ∉ content := by
      intro hmem
      have hkept : (0 : UInt8) ∈ content.filter (· ≠ newline) :=
        List.mem_filter.mpr ⟨hmem, by decide⟩
      rw [← hflat] at hkept
      exact cString_nul_free _ (List.mem_of_mem_filter hkept)
    refine ⟨hfree, fun b hb => ?_⟩
    rw [cString_append hfree, List.filter_append] at hflat
    have hnone : (cString behind).filter (· ≠ newline) = [] := by
      have hlen := congrArg List.length hflat
      rw [List.length_append] at hlen
      exact List.eq_nil_of_length_eq_zero (by omega)
    by_contra hne
    have hkept : b ∈ (cString behind).filter (· ≠ newline) :=
      List.mem_filter.mpr ⟨hb, by simpa using hne⟩
    rw [hnone] at hkept
    cases hkept
  · rintro ⟨hfree, hpad⟩
    rw [cString_append hfree, strtokAll_append hpad]

theorem linesMeasured_iff (libs : PcrLibs) (f : File) (behind : Bytes) :
    LinesMeasured libs f behind ↔
      f.Readable ∧ (0 : UInt8) ∉ f.content ∧ ∀ b ∈ cString behind, b = newline := by
  by_cases hread : f.Readable
  · rw [← tokens_cString_iff]
    constructor
    · intro h
      obtain ⟨lines, s', hlines, hrun, -, hlog⟩ := h ⟨zeroDigest 32, []⟩
      rw [calculatePcr8_run hread] at hrun
      cases hrun
      obtain rfl := hlines.eq_strtokAll
      refine ⟨hread, ?_⟩
      have hdescs := congrArg (List.map LogEntry.desc) hlog
      simpa [Measurement.afterLines, grubEntry, Function.comp_def] using hdescs
    · rintro ⟨-, hsame⟩ s
      refine ⟨_, _, tokens_strtokAll newline f.content, calculatePcr8_run hread s, ?_, ?_⟩
      · rw [hsame]
        rfl
      · rw [hsame]
        rfl
  · constructor
    · intro h
      obtain ⟨lines, s', -, hrun, -, -⟩ := h ⟨zeroDigest 32, []⟩
      rw [calculatePcr8_unreadable hread] at hrun
      cases hrun
    · exact fun h => absurd h.1 hread

end GrubCmds

/-- There is no file that `calculate_pcr8` measures line by line without leaving it. What
the register holds is right exactly if the file is read, has no NUL, and is followed in
memory by one, newlines apart. -/
theorem not_grubCmdsSound (libs : PcrLibs) (f : File) (behind : Bytes) :
    ¬GrubCmdsSound libs f behind ∧
    (LinesMeasured libs f behind ↔
      f.Readable ∧ (0 : UInt8) ∉ f.content ∧ ∀ b ∈ cString behind, b = newline) := by
  refine ⟨fun h => ?_, linesMeasured_iff libs f behind⟩
  have hfree := ((linesMeasured_iff libs f behind).mp h.lines).2.1
  have hreads := h.reads
  rw [bytesRead, cString_append hfree, List.length_append] at hreads
  omega

/-- The one line `a`, with a `b` behind the buffer. -/
theorem not_grubCmdsSound_line :
    ¬∀ (libs : PcrLibs) (f : File) (behind : Bytes), GrubCmdsSound libs f behind := by
  intro hall
  have hlines := (hall ⟨fun _ => zeroDigest 32, fun _ => none, fun _ => .ok none⟩
    (File.intact (ascii "grub.cmds") [97] (by decide)) [98, 0]).lines
  have hpad := ((linesMeasured_iff _ _ _).mp hlines).2.2 98 (by decide)
  cases hpad

end MeasuredBoot.SrtmPcrs
