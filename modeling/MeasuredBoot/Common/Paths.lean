import MeasuredBoot.Common.File
import MeasuredBoot.Lib.Loop

/-! # Walking paths

The traversal that `calculate-ima-pcr/main.c` and `calculate-srtm-pcrs/paths.c`
share, over the system calls it makes and what is done with a single file. The path
of an entry is formatted into 1000 bytes, and what these name is looked at and walked
into; only a file is opened under its whole path.
-/

namespace MeasuredBoot

open Binary Imperative Imperative.Proc

/-! ## System calls -/

/-- A file under its real path, a C string shorter than `PATH_MAX`. -/
structure RealFile where
  file : File
  nul_free : (0 : UInt8) ∉ file.path
  path_lt : file.path.length < 4096

/-- The names `readdir` gives before it returns `NULL`, and whether that was the end of
the directory. -/
structure Listing where
  names : List Bytes
  complete : Bool

/-- What the calls of a walk return in each of its rounds. A round is known by its place:
the number of the path argument and, below it, that of the entry in each directory.
`stat` tells `S_ISDIR`, or it fails and `leftover` is what `statbuf` held before; `concat`
is whether there is memory for the whole path. No more than `depth` directories can be
open one inside the other. -/
structure FileSystem where
  depth : Nat
  stat : List Nat → Bytes → Option Bool
  leftover : List Nat → Bool
  opendir : List Nat → Bytes → Option Listing
  concat : List Nat → Bool
  realpath : List Nat → Bytes → Option RealFile

/-- The path arguments of a walk, with its system calls. -/
structure PathArgs where
  fs : FileSystem
  paths : List Bytes

/-- The names with their places. -/
def numbered (place : List Nat) (names : List Bytes) : List (List Nat × Bytes) :=
  names.zipIdx.map fun name => (place ++ [name.2], name.1)

/-- The rounds of the `readdir` loop that look at their entry. -/
def rounds (place : List Nat) (names : List Bytes) : List (List Nat × Bytes) :=
  (numbered place names).filter fun entry => entry.2 ≠ ascii "." ∧ entry.2 ≠ ascii ".."

/-- `concat_path_new`, where it has memory. -/
def concatPath (base name : Bytes) : Bytes := base ++ 47 :: name

/-- `snprintf` into `char path[1000]`. -/
def loopPath (base name : Bytes) : Bytes := (concatPath base name).take 999

namespace FileSystem

variable (fs : FileSystem)

/-- `S_ISDIR(statbuf.st_mode)` behind a `stat` whose result is not looked at. -/
def isDir (place : List Nat) (path : Bytes) : Bool := (fs.stat place path).getD (fs.leftover place)

/-- What an entry that is not a directory resolves to. -/
def realFile (place : List Nat) (file : Bytes) : Option RealFile :=
  if fs.concat place then fs.realpath place file else none

end FileSystem

/-! ## The walk -/

section Walk

variable {σ : Type} (fs : FileSystem) (process : RealFile → Proc σ Int)

/-- A call whose result is dropped. -/
def dropStatus (m : Proc σ Int) : Proc σ Unit := do
  let _ ← call m
  return ()

/-- The block for an entry that is not a directory. -/
def walkFile (place : List Nat) (file : Bytes) : Proc σ Unit := do
  exitIf (fs.concat place = false) (-1)
  match fs.realpath place file with
  | none => return ()
  | some realfile =>
      let ret ← call (process realfile)
      exitIf (ret ≠ 0) (-1)

/-- One round of the `readdir` loop, with the recursive call. -/
def walkEntry (recursively : List Nat → Bytes → Proc σ Int) (base : Bytes)
    (entry : List Nat × Bytes) : Proc σ Unit :=
  let path := loopPath base entry.2
  if fs.isDir entry.1 path then dropStatus (recursively entry.1 path)
  else walkFile fs process entry.1 (concatPath base entry.2)

/-- The walk of a directory, with no more than so many open one inside the other. -/
def walkDirectory : Nat → List Nat → Bytes → Proc σ Int
  | 0, _, _ => exit (-1)
  | depth + 1, place, base =>
      match fs.opendir place base with
      | none => exit (-1)
      | some dir => do
          forEach (walkEntry fs process (walkDirectory depth) base) (rounds place dir.names)
          return 0

/-- One round of the loop over the path arguments. -/
def walkPath (recursively : List Nat → Bytes → Proc σ Int) (arg : List Nat × Bytes) :
    Proc σ Unit :=
  match fs.stat arg.1 arg.2 with
  | none => exit (-1)
  | some true => do
      let ret ← call (recursively arg.1 arg.2)
      exitIf (ret ≠ 0) (-1)
  | some false =>
      match fs.realpath arg.1 arg.2 with
      | none => return ()
      | some path => dropStatus (process path)

/-- The walk of all path arguments. -/
def walkPaths (recursively : List Nat → Bytes → Proc σ Int) (paths : List Bytes) :
    Proc σ Int := do
  forEach (walkPath fs process recursively) (numbered [] paths)
  return 0

end Walk

section Preserves

variable {σ : Type} {fs : FileSystem} {I : σ → Prop} {process : RealFile → Proc σ Int}

theorem walkFile_preserves (h : ∀ f, Preserves I (process f)) (place : List Nat) (file : Bytes) :
    Preserves I (walkFile fs process place file) := by
  refine .bind (.exitIf _ _) fun _ => ?_
  cases fs.realpath place file with
  | none => exact .pure ()
  | some f => exact .bind (.call (h f)) fun _ => .exitIf _ _

theorem walkDirectory_preserves (h : ∀ f, Preserves I (process f)) (depth : Nat)
    (place : List Nat) (base : Bytes) :
    Preserves I (walkDirectory fs process depth place base) := by
  induction depth generalizing place base with
  | zero => exact .exit (-1)
  | succ depth ih =>
      unfold walkDirectory
      cases fs.opendir place base with
      | none => exact .exit (-1)
      | some dir =>
          refine .bind (.forEach _ fun entry _ => ?_) fun _ => .pure 0
          refine .ite (fun _ => ?_) fun _ => walkFile_preserves h _ _
          exact .bind (.call (ih _ _)) fun _ => .pure ()

/-- A walk keeps an invariant of what it does with a file. -/
theorem walkPaths_preserves (h : ∀ f, Preserves I (process f)) (paths : List Bytes) :
    Preserves I (walkPaths fs process (walkDirectory fs process fs.depth) paths) := by
  refine .bind (.forEach _ fun arg _ => ?_) fun _ => .pure 0
  unfold walkPath
  cases fs.stat arg.1 arg.2 with
  | none => exact .exit (-1)
  | some isDir =>
      cases isDir with
      | true => exact .bind (.call (walkDirectory_preserves h _ _ _)) fun _ => .exitIf _ _
      | false =>
          cases fs.realpath arg.1 arg.2 with
          | none => exact .pure ()
          | some f => exact .bind (.call (h f)) fun _ => .pure ()

end Preserves

/-! ## What is walked -/

namespace FileSystem

variable (fs : FileSystem) (accepts : RealFile → Bool)

/-- The entry makes the walk leave the directory it is in. -/
def entryFails (base : Bytes) (entry : List Nat × Bytes) : Bool :=
  !fs.isDir entry.1 (loopPath base entry.2) &&
    (!fs.concat entry.1 || (fs.realpath entry.1 (concatPath base entry.2)).any (!accepts ·))

/-- The walk of a directory returns `-1`. -/
def directoryFails : Nat → List Nat → Bytes → Bool
  | 0, _, _ => true
  | _ + 1, place, base =>
      match fs.opendir place base with
      | none => true
      | some dir => (rounds place dir.names).any (fs.entryFails accepts base)

/-- The files an entry leads to, with those of a directory. -/
def walkedAt (recursively : List Nat → Bytes → List RealFile) (base : Bytes)
    (entry : List Nat × Bytes) : List RealFile :=
  let path := loopPath base entry.2
  if fs.isDir entry.1 path then recursively entry.1 path
  else (fs.realFile entry.1 (concatPath base entry.2)).toList.filter accepts

/-- The files a walk of a directory processes: each directory up to the entry it is left at. -/
def walked : Nat → List Nat → Bytes → List RealFile
  | 0, _, _ => []
  | depth + 1, place, base =>
      match fs.opendir place base with
      | none => []
      | some dir =>
          (upToFailure (fs.entryFails accepts base) (rounds place dir.names)).flatMap
            (fs.walkedAt accepts (walked depth) base)

/-- The walk ends with a path argument. -/
def argFails (arg : List Nat × Bytes) : Bool :=
  match fs.stat arg.1 arg.2 with
  | none => true
  | some true => fs.directoryFails accepts fs.depth arg.1 arg.2
  | some false => false

def argWalked (arg : List Nat × Bytes) : List RealFile :=
  match fs.stat arg.1 arg.2 with
  | none => []
  | some true => fs.walked accepts fs.depth arg.1 arg.2
  | some false => (fs.realpath arg.1 arg.2).toList.filter accepts

/-- Some path argument ends the walk, which reports it. -/
def reports (paths : List Bytes) : Bool := (numbered [] paths).any (fs.argFails accepts)

/-- The files a walk processes, in order. -/
def pathsWalked (paths : List Bytes) : List RealFile :=
  (upToFailure (fs.argFails accepts) (numbered [] paths)).flatMap (fs.argWalked accepts)

end FileSystem

section Outcome

variable {σ : Type} {Inv : σ → Prop} {process : RealFile → Proc σ Int}
  {accepts : RealFile → Bool} {work : RealFile → σ → σ} {fs : FileSystem}

/-- What is known of the function called for each file: it does `work` and returns 0 on the
files it accepts, and does nothing with the others. `Inv` holds throughout. -/
structure Processor (Inv : σ → Prop) (process : RealFile → Proc σ Int)
    (accepts : RealFile → Bool) (work : RealFile → σ → σ) : Prop where
  keeps : ∀ f s, Inv s → Inv (work f s)
  accepted : ∀ f s, Inv s → accepts f = true → call (process f) s = .next 0 (work f s)
  rejected : ∀ f s, Inv s → accepts f = false → ∃ r, call (process f) s = .next r s ∧ r ≠ 0

theorem dropStatus_process (h : Processor Inv process accepts work) (f : RealFile) {s : σ}
    (hs : Inv s) :
    dropStatus (process f) s = .next () (workAll work ([f].filter accepts) s) := by
  unfold dropStatus
  cases haccepts : accepts f with
  | true =>
      rw [bind_apply, h.accepted f s hs haccepts, List.filter_singleton, haccepts]
      rfl
  | false =>
      obtain ⟨r, hcall, -⟩ := h.rejected f s hs haccepts
      rw [bind_apply, hcall, List.filter_singleton, haccepts]
      rfl

theorem walkFile_apply (h : Processor Inv process accepts work) (place : List Nat) (file : Bytes)
    {s : σ} (hs : Inv s) : walkFile fs process place file s =
      outcome (!fs.concat place || (fs.realpath place file).any (!accepts ·)) ()
        (workAll work ((fs.realFile place file).toList.filter accepts) s) := by
  unfold walkFile FileSystem.realFile
  cases fs.concat place with
  | false => rfl
  | true =>
      rw [exitIf_neg (by decide), pure_bind, if_pos rfl]
      cases fs.realpath place file with
      | none => rfl
      | some f =>
          dsimp only
          rw [Option.toList_some, List.filter_singleton, Option.any_some]
          cases haccepts : accepts f with
          | true =>
              rw [bind_apply, h.accepted f s hs haccepts, andThen_next, exitIf_neg (by decide)]
              rfl
          | false =>
              obtain ⟨r, hcall, hr⟩ := h.rejected f s hs haccepts
              rw [bind_apply, hcall, andThen_next, exitIf_pos hr]
              rfl

theorem walkDirectory_apply (h : Processor Inv process accepts work) (depth : Nat)
    (place : List Nat) (base : Bytes) {s : σ} (hs : Inv s) :
    walkDirectory fs process depth place base s =
      outcome (fs.directoryFails accepts depth place base) 0
        (workAll work (fs.walked accepts depth place base) s) := by
  induction depth generalizing place base s with
  | zero => rfl
  | succ depth ih =>
      rw [walkDirectory, FileSystem.directoryFails, FileSystem.walked]
      cases fs.opendir place base with
      | none => rfl
      | some dir =>
          dsimp only
          have hround : ∀ entry ∈ rounds place dir.names, ∀ t, Inv t →
              walkEntry fs process (walkDirectory fs process depth) base entry t =
                outcome (fs.entryFails accepts base entry) () (workAll work
                  (fs.walkedAt accepts (fs.walked accepts depth) base entry) t) := by
            intro entry _ t ht
            unfold walkEntry FileSystem.entryFails FileSystem.walkedAt
            dsimp only
            cases fs.isDir entry.1 (loopPath base entry.2) with
            | true =>
                rw [if_pos rfl, if_pos rfl, dropStatus, bind_apply,
                  call_of_outcome (ih entry.1 _ ht)]
                rfl
            | false =>
                rw [if_neg Bool.false_ne_true, if_neg Bool.false_ne_true]
                exact walkFile_apply h _ _ ht
          rw [bind_apply, forEach_outcome h.keeps hround hs]
          cases (rounds place dir.names).any (fs.entryFails accepts base) <;> rfl

theorem walkPath_apply (h : Processor Inv process accepts work) (arg : List Nat × Bytes) {s : σ}
    (hs : Inv s) : walkPath fs process (walkDirectory fs process fs.depth) arg s =
      outcome (fs.argFails accepts arg) () (workAll work (fs.argWalked accepts arg) s) := by
  unfold walkPath FileSystem.argFails FileSystem.argWalked
  cases fs.stat arg.1 arg.2 with
  | none => rfl
  | some isDir =>
      cases isDir with
      | true =>
          dsimp only
          rw [bind_apply, call_of_outcome (walkDirectory_apply h fs.depth arg.1 arg.2 hs)]
          cases fs.directoryFails accepts fs.depth arg.1 arg.2 <;> rfl
      | false =>
          dsimp only
          cases fs.realpath arg.1 arg.2 with
          | none => rfl
          | some f => exact dropStatus_process h f hs

/-- A walk returns `-1` exactly where it reports a failure, and works on the files it walked. -/
theorem walkPaths_run (h : Processor Inv process accepts work) (paths : List Bytes) {s : σ}
    (hs : Inv s) : run (walkPaths fs process (walkDirectory fs process fs.depth) paths) s =
      .ok (if fs.reports accepts paths then -1 else 0,
        workAll work (fs.pathsWalked accepts paths) s) := by
  apply run_of_outcome
  unfold walkPaths FileSystem.reports FileSystem.pathsWalked
  rw [bind_apply, forEach_outcome h.keeps (fun arg _ t ht => walkPath_apply h arg ht) hs]
  cases (numbered [] paths).any (fs.argFails accepts) <;> rfl

end Outcome

/-! ## What is there -/

namespace FileSystem

variable (fs : FileSystem) (Good : RealFile → Prop)

/-- The files below a directory, in traversal order. -/
def files : Nat → List Nat → Bytes → List RealFile
  | 0, _, _ => []
  | depth + 1, place, base =>
      match fs.opendir place base with
      | none => []
      | some dir => (rounds place dir.names).flatMap fun entry =>
          let file := concatPath base entry.2
          if fs.stat entry.1 file = some true then files depth entry.1 file
          else (fs.realFile entry.1 file).toList

/-- Every directory below one opens and is read to its end, and every other entry resolves
to a good file. -/
def Processed : Nat → List Nat → Bytes → Prop
  | 0, _, _ => False
  | depth + 1, place, base => ∃ dir, fs.opendir place base = some dir ∧ dir.complete = true ∧
      ∀ entry ∈ rounds place dir.names,
        let file := concatPath base entry.2
        if fs.stat entry.1 file = some true then Processed depth entry.1 file
        else ∃ f, fs.realFile entry.1 file = some f ∧ Good f

/-- Below a directory every path fits the buffer and `stat` fails on none. -/
def PathsFit : Nat → List Nat → Bytes → Prop
  | 0, _, _ => True
  | depth + 1, place, base => ∀ dir, fs.opendir place base = some dir →
      ∀ entry ∈ rounds place dir.names,
        let file := concatPath base entry.2
        file.length < 1000 ∧ (fs.stat entry.1 file).isSome = true ∧
          (fs.stat entry.1 file = some true → PathsFit depth entry.1 file)

def argFiles (arg : List Nat × Bytes) : List RealFile :=
  match fs.stat arg.1 arg.2 with
  | none => []
  | some true => fs.files fs.depth arg.1 arg.2
  | some false => (fs.realpath arg.1 arg.2).toList

def ArgProcessed (arg : List Nat × Bytes) : Prop :=
  match fs.stat arg.1 arg.2 with
  | none => False
  | some true => fs.Processed Good fs.depth arg.1 arg.2
  | some false => ∃ f, fs.realpath arg.1 arg.2 = some f ∧ Good f

/-- The files below the path arguments, in traversal order. -/
def pathsFiles (paths : List Bytes) : List RealFile := (numbered [] paths).flatMap fs.argFiles

def AllProcessed (paths : List Bytes) : Prop := ∀ arg ∈ numbered [] paths, fs.ArgProcessed Good arg

def AllPathsFit (paths : List Bytes) : Prop :=
  ∀ arg ∈ numbered [] paths, fs.stat arg.1 arg.2 = some true → fs.PathsFit fs.depth arg.1 arg.2

variable {fs} {Good} {accepts : RealFile → Bool}

theorem good_of_mem_files {depth : Nat} {place : List Nat} {base : Bytes}
    (hprocessed : fs.Processed Good depth place base) {f : RealFile}
    (hf : f ∈ fs.files depth place base) : Good f := by
  induction depth generalizing place base with
  | zero => exact hprocessed.elim
  | succ depth ih =>
      obtain ⟨dir, hopen, -, hentries⟩ := hprocessed
      rw [files, hopen] at hf
      obtain ⟨entry, hentry, hf⟩ := List.mem_flatMap.mp hf
      have hentry' := hentries entry hentry
      dsimp only at hf hentry'
      split at hf
      · rename_i hdir
        rw [if_pos hdir] at hentry'
        exact ih hentry' hf
      · rename_i hdir
        rw [if_neg hdir] at hentry'
        obtain ⟨g, hreal, hg⟩ := hentry'
        rw [hreal, Option.toList_some, List.mem_singleton] at hf
        rw [hf]
        exact hg

theorem good_of_mem_pathsFiles {paths : List Bytes} (hprocessed : fs.AllProcessed Good paths)
    {f : RealFile} (hf : f ∈ fs.pathsFiles paths) : Good f := by
  obtain ⟨arg, harg, hf⟩ := List.mem_flatMap.mp hf
  have hdone := hprocessed arg harg
  unfold ArgProcessed at hdone
  unfold argFiles at hf
  cases hstat : fs.stat arg.1 arg.2 with
  | none =>
      rw [hstat] at hdone
      exact hdone.elim
  | some isDir =>
      rw [hstat] at hdone hf
      cases isDir with
      | true => exact good_of_mem_files hdone hf
      | false =>
          obtain ⟨g, hreal, hg⟩ := hdone
          dsimp only at hf
          rw [hreal, Option.toList_some, List.mem_singleton] at hf
          rw [hf]
          exact hg

/-- A path that fits shows whether its entry is a directory. -/
theorem isDir_loopPath {place : List Nat} {base name : Bytes}
    (hfits : (concatPath base name).length < 1000)
    (hstat : (fs.stat place (concatPath base name)).isSome = true) :
    loopPath base name = concatPath base name ∧
      (fs.isDir place (concatPath base name) = true ↔
        fs.stat place (concatPath base name) = some true) := by
  have hpath : loopPath base name = concatPath base name := List.take_of_length_le (by omega)
  obtain ⟨isDir, hisDir⟩ := Option.isSome_iff_exists.mp hstat
  refine ⟨hpath, ?_⟩
  rw [FileSystem.isDir, hisDir, Option.getD_some, Option.some_inj]

/-- Where the paths fit and everything is processed, what is walked is what is there. -/
theorem walked_eq_files (hgood : ∀ f, Good f → accepts f = true) {depth : Nat} {place : List Nat}
    {base : Bytes} (hfit : fs.PathsFit depth place base)
    (hprocessed : fs.Processed Good depth place base) :
    fs.directoryFails accepts depth place base = false ∧
      fs.walked accepts depth place base = fs.files depth place base := by
  induction depth generalizing place base with
  | zero => exact hprocessed.elim
  | succ depth ih =>
      obtain ⟨dir, hopen, -, hentries⟩ := hprocessed
      have hrounds := hfit dir hopen
      rw [directoryFails, walked, files, hopen]
      dsimp only
      have hround : ∀ entry ∈ rounds place dir.names,
          fs.entryFails accepts base entry = false ∧
          fs.walkedAt accepts (fs.walked accepts depth) base entry =
            if fs.stat entry.1 (concatPath base entry.2) = some true then
              fs.files depth entry.1 (concatPath base entry.2)
            else (fs.realFile entry.1 (concatPath base entry.2)).toList := by
        intro entry hentry
        obtain ⟨hlength, hstat, hbelow⟩ := hrounds entry hentry
        obtain ⟨hpath, hisDir⟩ := isDir_loopPath hlength hstat
        have hentry' := hentries entry hentry
        unfold entryFails walkedAt
        dsimp only at hentry' ⊢
        rw [hpath]
        by_cases hdir : fs.stat entry.1 (concatPath base entry.2) = some true
        · rw [if_pos hdir] at hentry' ⊢
          rw [hisDir.mpr hdir, if_pos rfl, (ih (hbelow hdir) hentry').2]
          exact ⟨rfl, rfl⟩
        · rw [if_neg hdir] at hentry' ⊢
          obtain ⟨f, hreal, hf⟩ := hentry'
          have haccepts := hgood f hf
          have hnot : fs.isDir entry.1 (concatPath base entry.2) = false :=
            Bool.eq_false_iff.mpr fun h => hdir (hisDir.mp h)
          rw [hnot, if_neg Bool.false_ne_true, hreal, Option.toList_some, List.filter_singleton,
            haccepts]
          unfold realFile at hreal
          split at hreal
          · rename_i hconcat
            rw [hconcat, hreal, Option.any_some, haccepts]
            exact ⟨rfl, rfl⟩
          · cases hreal
      have hnone : (rounds place dir.names).any (fs.entryFails accepts base) = false := by
        rw [List.any_eq_false]
        intro entry hentry
        rw [(hround entry hentry).1]
        exact Bool.false_ne_true
      rw [upToFailure_of_none hnone]
      exact ⟨hnone, List.flatMap_congr fun entry hentry => (hround entry hentry).2⟩

theorem pathsWalked_eq_files (hgood : ∀ f, Good f → accepts f = true) {paths : List Bytes}
    (hfit : fs.AllPathsFit paths) (hprocessed : fs.AllProcessed Good paths) :
    fs.pathsWalked accepts paths = fs.pathsFiles paths := by
  have harg : ∀ arg ∈ numbered [] paths, fs.argFails accepts arg = false ∧
      fs.argWalked accepts arg = fs.argFiles arg := by
    intro arg hmem
    have hbelow := hfit arg hmem
    have hdone := hprocessed arg hmem
    unfold ArgProcessed at hdone
    unfold argFails argWalked argFiles
    cases hstat : fs.stat arg.1 arg.2 with
    | none =>
        rw [hstat] at hdone
        exact hdone.elim
    | some isDir =>
        rw [hstat] at hbelow hdone
        cases isDir with
        | true => exact walked_eq_files hgood (hbelow rfl) hdone
        | false =>
            obtain ⟨f, hreal, hf⟩ := hdone
            dsimp only
            rw [hreal, Option.toList_some, List.filter_singleton, hgood f hf]
            exact ⟨rfl, rfl⟩
  have hnone : (numbered [] paths).any (fs.argFails accepts) = false := by
    rw [List.any_eq_false]
    intro arg hmem
    rw [(harg arg hmem).1]
    exact Bool.false_ne_true
  unfold pathsWalked pathsFiles
  rw [upToFailure_of_none hnone]
  exact List.flatMap_congr fun arg hmem => (harg arg hmem).2

end FileSystem

end MeasuredBoot
