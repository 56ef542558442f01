import MeasuredBoot.SrtmPcrs.Replay

/-! # Images of PCR 2 and PCR 4

The drivers, the bootloaders and the kernel are measured by three blocks of one
shape: load, measure, log, extend. Two of them leave the calculator at an image that
fails. The bootloaders' block goes on after an EFI error.
-/

namespace MeasuredBoot.SrtmPcrs

open Binary Imperative Imperative.Proc

/-- An image to be measured, with the block of the source that does it. -/
inductive PcrImage where
  | driver (file : File)
  | bootloader (file : Option File)
  | kernel (configFile : Option File) (file : File)

namespace PcrImage

variable (libs : PcrLibs)

/-- The image a kernel is measured as, or none where it is turned down. -/
def preparedKernel (configFile : Option File) (kernel : Bytes) : Except Stop (Option Bytes) :=
  match configFile with
  | none => .ok (some kernel)
  | some file => (configLoad file).map (·.bind (configPrepareKernelPecoff kernel))

/-- What `MeasurePeImage` writes for an image, or none where loading, preparing or
measuring it fails. -/
def digest : PcrImage → Except Stop (Option (Digest 32))
  | .driver file => .ok (if file.Loads then libs.measurePeImage file.content else none)
  | .bootloader none => .ok none
  | .bootloader (some file) =>
      .ok (if file.Loads then libs.measurePeImage file.content else none)
  | .kernel configFile file =>
      if file.Loads then
        (preparedKernel configFile file.content).map (·.bind libs.measurePeImage)
      else .ok none

/-- A bootloader that loads, but is no PE image. -/
def DoubleFreed : PcrImage → Prop
  | .bootloader (some file) => file.Loads ∧ libs.measurePeImage file.content = none
  | _ => False

def measure (env : PcrEnv) : PcrImage → Proc (Measurement 32) Unit
  | .driver file => measureDriver libs file
  | .bootloader file => measureBootloader libs env file
  | .kernel configFile file => measureKernel libs configFile file

/-- The register the image is measured into. -/
def index : PcrImage → Nat
  | .driver _ => 2
  | _ => 4

def eventName : PcrImage → Bytes
  | .driver _ => bootServicesDriver
  | _ => bootServicesApplication

def path : PcrImage → Bytes
  | .driver file | .bootloader (some file) | .kernel _ file => file.path
  | .bootloader none => []

/-- The end of each block, by what `MeasurePeImage` makes of the image. -/
def record (x : PcrImage) : Except Stop (Option (Digest 32)) → Proc (Measurement 32) Unit
  | .error w => lift (.error w)
  | .ok none => exit (-1)
  | .ok (some hash) => do
      evlogAdd x.index x.eventName hash (basename x.path)
      extendMr libs.sha256 hash

end PcrImage

/-! ## Statements that log what they extend -/

/-- The state with the digests extended and logged for the register. -/
structure Recorded (libs : PcrLibs) (index : Nat) (digests : List (Digest 32))
    (s t : Measurement 32) : Prop where
  extended : t.mr = replayFrom libs.sha256 s.mr digests
  logged : digestsOf index t.evlog = digestsOf index s.evlog ++ digests

namespace Recorded

variable {libs : PcrLibs} {index : Nat} {xs ys : List (Digest 32)} {s t u : Measurement 32}

theorem refl (s : Measurement 32) : Recorded libs index [] s s :=
  ⟨rfl, (List.append_nil _).symm⟩

theorem trans (h : Recorded libs index xs s t) (h' : Recorded libs index ys t u) :
    Recorded libs index (xs ++ ys) s u where
  extended := by rw [replayFrom_append, ← h.extended, h'.extended]
  logged := by rw [h'.logged, h.logged, List.append_assoc]

theorem record (s : Measurement 32) (name : Bytes) (hash : Digest 32) (desc : Bytes) :
    Recorded libs index [hash] s ((s.log index name hash desc).extend libs.sha256 hash) where
  extended := rfl
  logged := by simp

end Recorded

/-! ## One image -/

section Image

variable {libs : PcrLibs} {env : PcrEnv}

theorem loadPeImage_eq (f : File) :
    loadPeImage f = if f.Loads then some ⟨f.content, f.size_lt⟩ else none := by
  split
  · exact loadPeImage_of_loads ‹_›
  · exact loadPeImage_eq_none.mpr ‹_›

theorem measureDriver_eq (file : File) :
    measureDriver libs file =
      (PcrImage.driver file).record libs ((PcrImage.driver file).digest libs) := by
  unfold measureDriver PcrImage.digest
  rw [loadPeImage_eq]
  by_cases hload : file.Loads
  · simp only [if_pos hload]
    cases libs.measurePeImage file.content <;> rfl
  · simp only [if_neg hload]
    rfl

theorem measureBootloader_eq {bootloader : Option File}
    (h : ¬(PcrImage.bootloader bootloader).DoubleFreed libs) :
    measureBootloader libs env bootloader =
      (PcrImage.bootloader bootloader).record libs
        ((PcrImage.bootloader bootloader).digest libs) := by
  cases bootloader with
  | none => rfl
  | some file =>
      unfold measureBootloader PcrImage.digest
      dsimp only
      rw [loadPeImage_eq]
      by_cases hload : file.Loads
      · simp only [if_pos hload]
        cases hmeasure : libs.measurePeImage file.content with
        | none => exact absurd ⟨hload, hmeasure⟩ h
        | some hashBl => rfl
      · simp only [if_neg hload]
        rfl

/-- The kernel is measured as it was prepared. -/
theorem measureKernel_eq (configFile : Option File) (file : File) :
    measureKernel libs configFile file =
      (PcrImage.kernel configFile file).record libs
        ((PcrImage.kernel configFile file).digest libs) := by
  unfold measureKernel PcrImage.digest
  rw [loadPeImage_eq]
  by_cases hload : file.Loads
  · simp only [if_pos hload]
    cases configFile with
    | none =>
        simp only [prepareKernel, PcrImage.preparedKernel, pure_bind, Except.map, Option.bind_some]
        cases libs.measurePeImage file.content <;> rfl
    | some config =>
        simp only [prepareKernel, PcrImage.preparedKernel]
        cases configLoad config with
        | error w => rfl
        | ok loaded =>
            cases loaded with
            | none => rfl
            | some c =>
                simp only [lift_ok_bind, Except.map, Option.bind_some]
                cases hpatch : configPrepareKernelPecoff file.content c with
                | none => rfl
                | some image =>
                    simp only [Option.bind_some, pure_bind]
                    cases libs.measurePeImage image <;> rfl
  · simp only [if_neg hload]
    rfl

namespace PcrImage

theorem measure_eq {x : PcrImage} (h : ¬x.DoubleFreed libs) :
    x.measure libs env = x.record libs (x.digest libs) := by
  cases x with
  | driver file => exact measureDriver_eq file
  | bootloader file => exact measureBootloader_eq h
  | kernel configFile file => exact measureKernel_eq configFile file

/-- A bootloader that is freed twice is logged with the zero digest before. -/
theorem measure_doubleFreed (env : PcrEnv) {x : PcrImage} (h : x.DoubleFreed libs) :
    x.digest libs = .ok none ∧ x.index = 4 ∧
      ∃ name desc, x.measure libs env = (do
        evlogAdd 4 name (zeroDigest 32) desc
        extendMr libs.sha256 (zeroDigest 32)
        when (env.freesTwice = false) fault) := by
  cases x with
  | bootloader bootloader =>
      cases bootloader with
      | none => exact h.elim
      | some file =>
          obtain ⟨hload, hmeasure⟩ := h
          refine ⟨?_, rfl, bootServicesApplication, basename file.path, ?_⟩
          · simp only [digest, if_pos hload, hmeasure]
          · simp only [measure, measureBootloader, loadPeImage_eq, if_pos hload, hmeasure]
  | _ => exact h.elim

end PcrImage

end Image

/-! ## The loops over the images -/

/-- Every image is measured, with these digests. -/
def Measured (libs : PcrLibs) (images : List PcrImage) (digests : List (Digest 32)) : Prop :=
  images.map (·.digest libs) = digests.map fun hash => Except.ok (some hash)

/-- Both calculators: the images in argument order, then the events behind them. -/
def measureImages (libs : PcrLibs) (env : PcrEnv) (images : List PcrImage)
    (rest : Proc (Measurement 32) Int) : Proc (Measurement 32) Int := do
  update Measurement.clear
  forEach (·.measure libs env) images
  rest

section Loop

variable {libs : PcrLibs} {env : PcrEnv} {index : Nat}

theorem Measured.cons_iff {x : PcrImage} {images : List PcrImage} {hash : Digest 32}
    {digests : List (Digest 32)} :
    Measured libs (x :: images) (hash :: digests) ↔
      x.digest libs = .ok (some hash) ∧ Measured libs images digests := by
  unfold Measured
  rw [List.map_cons, List.map_cons, List.cons.injEq]

/-- The images are measured up to the first one that fails. -/
theorem measured_or_fails (libs : PcrLibs) (images : List PcrImage) :
    (∃ digests, Measured libs images digests) ∨
      ∃ pre x post digests, images = pre ++ x :: post ∧ Measured libs pre digests ∧
        ∀ hash, x.digest libs ≠ .ok (some hash) := by
  induction images with
  | nil => exact Or.inl ⟨[], rfl⟩
  | cons x images ih =>
      by_cases hx : ∃ hash, x.digest libs = .ok (some hash)
      · obtain ⟨hash, hhash⟩ := hx
        rcases ih with ⟨digests, hall⟩ | ⟨pre, y, post, digests, himages, hpre, hy⟩
        · exact Or.inl ⟨hash :: digests, Measured.cons_iff.mpr ⟨hhash, hall⟩⟩
        · refine Or.inr ⟨x :: pre, y, post, hash :: digests, ?_, ?_, hy⟩
          · rw [himages, List.cons_append]
          · exact Measured.cons_iff.mpr ⟨hhash, hpre⟩
      · exact Or.inr ⟨[], x, images, [], rfl, rfl, fun hash h => hx ⟨hash, h⟩⟩

/-- Measured images are recorded in order. -/
theorem measureAll_recorded (env : PcrEnv) {images : List PcrImage} {digests : List (Digest 32)}
    (hmeasured : Measured libs images digests) (hindex : ∀ x ∈ images, x.index = index)
    (s : Measurement 32) :
    ∃ t, forEach (·.measure libs env) images s = .next () t ∧
      Recorded libs index digests s t := by
  induction images generalizing digests s with
  | nil =>
      cases digests with
      | nil => exact ⟨s, rfl, .refl s⟩
      | cons hash digests => cases hmeasured
  | cons x images ih =>
      cases digests with
      | nil => cases hmeasured
      | cons hash digests =>
          obtain ⟨hhash, hrest⟩ := Measured.cons_iff.mp hmeasured
          have hfree : ¬x.DoubleFreed libs := by
            intro hfreed
            have hnone := (PcrImage.measure_doubleFreed env hfreed).1
            rw [hhash] at hnone
            cases hnone
          have hx : index = x.index := (hindex x List.mem_cons_self).symm
          obtain ⟨t, ht, hrecorded⟩ := ih hrest
            (fun y hy => hindex y (List.mem_cons_of_mem x hy))
            ((s.log index x.eventName hash (basename x.path)).extend libs.sha256 hash)
          refine ⟨t, ?_, (Recorded.record s x.eventName hash (basename x.path)).trans hrecorded⟩
          subst hx
          rw [forEach, bind_apply, PcrImage.measure_eq hfree, hhash]
          exact ht

/-- The loop arrives at the first image behind the measured ones. -/
theorem measureAll_arrives (env : PcrEnv) {pre post : List PcrImage} {x : PcrImage}
    {digests : List (Digest 32)} (hpre : Measured libs pre digests)
    (hindex : ∀ y ∈ pre ++ x :: post, y.index = index) (s : Measurement 32) :
    ∃ t, Recorded libs index digests s t ∧
      forEach (·.measure libs env) (pre ++ x :: post) s =
        (do x.measure libs env; forEach (·.measure libs env) post : Proc _ Unit) t := by
  obtain ⟨t, ht, hrecorded⟩ := measureAll_recorded env hpre
    (fun y hy => hindex y (List.mem_append_left _ hy)) s
  refine ⟨t, hrecorded, ?_⟩
  rw [forEach_append, bind_apply, ht]
  rfl

end Loop

/-! ## Every image is measured or the calculation fails -/

/-- The calculator returns 0 only if every image was measured and the register is the
replay of their digests and the final ones. At the first image that fails it returns
another status, with no more than the images in front recorded. -/
def ImagesMeasured (libs : PcrLibs) (index : Nat) (images : List PcrImage)
    (final : List (Digest 32)) (m : Proc (Measurement 32) Int) : Prop :=
  ∀ s,
    (∀ s', run m s = .ok (0, s') → ∃ digests, Measured libs images digests ∧
      Recorded libs index (digests ++ final) s.clear s') ∧
    ∀ pre x post digests, images = pre ++ x :: post → Measured libs pre digests →
      x.digest libs = .ok none →
        ∃ ret s', run m s = .ok (ret, s') ∧ ret ≠ 0 ∧ Recorded libs index digests s.clear s'

/-- A bootloader behind measured images loads, but is no PE image. -/
def BootloaderDoubleFreed (libs : PcrLibs) (images : List PcrImage) : Prop :=
  ∃ pre x post digests, images = pre ++ x :: post ∧ Measured libs pre digests ∧
    x.DoubleFreed libs

section Calculators

variable {libs : PcrLibs} {env : PcrEnv} {index : Nat}

theorem measureImages_measured {images : List PcrImage} {rest : Proc (Measurement 32) Int}
    {final : List (Digest 32)} (hindex : ∀ x ∈ images, x.index = index)
    (hrest : ∀ s s', run rest s = .ok (0, s') → Recorded libs index final s s')
    (hfree : ¬BootloaderDoubleFreed libs images) :
    ImagesMeasured libs index images final (measureImages libs env images rest) := by
  have hfails : ∀ pre x post digests, images = pre ++ x :: post → Measured libs pre digests →
      ∀ s, ∃ t, Recorded libs index digests s t ∧
        run (do forEach (·.measure libs env) images; rest) s =
          run (do x.record libs (x.digest libs); forEach (·.measure libs env) post; rest) t := by
    intro pre x post digests himages hpre s
    subst himages
    obtain ⟨t, hrecorded, hloop⟩ := measureAll_arrives env hpre hindex s
    have hx : ¬x.DoubleFreed libs := fun hfreed => hfree ⟨pre, x, post, digests, rfl, hpre, hfreed⟩
    refine ⟨t, hrecorded, ?_⟩
    rw [PcrImage.measure_eq hx] at hloop
    rw [run_bind_of_eq hloop, bind_assoc]
  intro s
  have hclear : run (measureImages libs env images rest) s =
      run (do forEach (·.measure libs env) images; rest) s.clear := rfl
  rw [hclear]
  constructor
  · intro s' hrun
    rcases measured_or_fails libs images with
      ⟨digests, hall⟩ | ⟨pre, x, post, digests, himages, hpre, hx⟩
    · obtain ⟨t, ht, hrecorded⟩ := measureAll_recorded env hall hindex s.clear
      unfold run at hrun
      rw [bind_apply, ht] at hrun
      exact ⟨digests, hall, hrecorded.trans (hrest t s' hrun)⟩
    · obtain ⟨t, -, hstop⟩ := hfails pre x post digests himages hpre s.clear
      rw [hstop] at hrun
      cases hdigest : x.digest libs with
      | error w => rw [hdigest] at hrun; cases hrun
      | ok result =>
          cases result with
          | none => rw [hdigest] at hrun; cases hrun
          | some hash => exact absurd hdigest (hx hash)
  · intro pre x post digests himages hpre hdigest
    obtain ⟨t, hrecorded, hstop⟩ := hfails pre x post digests himages hpre s.clear
    refine ⟨-1, t, ?_, by decide, hrecorded⟩
    rw [hstop, hdigest]
    rfl

/-- The log never loses what is in it. -/
def LogStarts (index : Nat) (digests : List (Digest 32)) (s : Measurement 32) : Prop :=
  digests <+: digestsOf index s.evlog

theorem LogStarts.evlogAdd {digests : List (Digest 32)} (i : Nat) (name : Bytes)
    (hash : Digest 32) (desc : Bytes) :
    Preserves (LogStarts index digests) (evlogAdd i name hash desc) := by
  refine .update fun s hs => ?_
  unfold LogStarts
  rw [Measurement.log_evlog, digestsOf_append]
  exact hs.trans (List.prefix_append _ _)

theorem LogStarts.extendMr {digests : List (Digest 32)} (md : Md 32) (hash : Digest 32) :
    Preserves (LogStarts index digests) (extendMr md hash) := .update fun _ hs => hs

theorem PcrImage.measure_logStarts {digests : List (Digest 32)} (x : PcrImage) :
    Preserves (LogStarts index digests) (x.measure libs env) := by
  by_cases hfreed : x.DoubleFreed libs
  · obtain ⟨-, -, name, desc, hmeasure⟩ := PcrImage.measure_doubleFreed env hfreed
    rw [hmeasure]
    refine .bind (LogStarts.evlogAdd _ _ _ _) fun _ => .bind (LogStarts.extendMr _ _) fun _ => ?_
    exact .when fun _ => .fault
  · rw [PcrImage.measure_eq hfreed]
    cases x.digest libs with
    | error w => exact Preserves.lift (.error w)
    | ok result =>
        cases result with
        | none => exact .exit (-1)
        | some hash =>
            exact .bind (LogStarts.evlogAdd _ _ _ _) fun _ => LogStarts.extendMr _ _

/-- A bootloader that is freed twice leaves its zero digest in the log, if the
calculator returns at all. -/
theorem measureImages_doubleFreed {images : List PcrImage} {rest : Proc (Measurement 32) Int}
    {final : List (Digest 32)} (hindex : ∀ x ∈ images, x.index = index)
    (hrest : ∀ digests, Preserves (LogStarts index digests) rest)
    (hfreed : BootloaderDoubleFreed libs images) :
    ¬ImagesMeasured libs index images final (measureImages libs env images rest) := by
  intro hmeasured
  obtain ⟨pre, x, post, digests, himages, hpre, hx⟩ := hfreed
  obtain ⟨hdigest, hindex4, name, desc, hmeasure⟩ :=
    PcrImage.measure_doubleFreed env hx
  let s : Measurement 32 := ⟨zeroDigest 32, []⟩
  obtain ⟨ret, s', hrun, -, hrecorded⟩ :=
    (hmeasured s).2 pre x post digests himages hpre hdigest
  subst himages
  have hindex' : index = 4 := (hindex x (by simp)).symm.trans hindex4
  obtain ⟨t, ht, hloop⟩ := measureAll_arrives env hpre hindex s.clear
  have hkeeps : Preserves (LogStarts index (digests ++ [zeroDigest 32]))
      (do when (env.freesTwice = false) fault; forEach (·.measure libs env) post; rest) := by
    refine .bind (.when fun _ => .fault) fun _ => .bind (.forEach post fun y _ => ?_) fun _ => ?_
    · exact y.measure_logStarts
    · exact hrest _
  have hrest' : run (do when (env.freesTwice = false) fault
                        forEach (·.measure libs env) post
                        rest)
      ((t.log 4 name (zeroDigest 32) desc).extend libs.sha256 (zeroDigest 32)) = .ok (ret, s') := by
    have hclear : run (measureImages libs env (pre ++ x :: post) rest) s =
        run (do forEach (·.measure libs env) (pre ++ x :: post); rest) s.clear := rfl
    rw [← hrun, hclear, run_bind_of_eq hloop, hmeasure, bind_assoc, bind_assoc]
    simp only [bind_assoc]
    rfl
  have hlog := hkeeps.run (s := (t.log 4 name (zeroDigest 32) desc).extend libs.sha256
    (zeroDigest 32)) ?_ hrest'
  · have hlen := List.IsPrefix.length_le hlog
    rw [hrecorded.logged] at hlen
    simp [s] at hlen
  · unfold LogStarts
    rw [Measurement.extend_evlog, Measurement.log_evlog, hindex', digestsOf_concat_self,
      ← hindex', ht.logged]
    simp [s]

/-! ## The two calculators -/

def pcr4Images (args : Pcr4Args) : List PcrImage :=
  (args.bootloaderFiles.getD []).map .bootloader
    ++ args.kernelFile.toList.map (.kernel args.configFile)

theorem calculatePcr2_eq (libs : PcrLibs) (env : PcrEnv) (drivers : List File) :
    calculatePcr2 libs env drivers = measureImages libs env (drivers.map .driver) (do
      exitIf (env.separatorAllocated = false) (-1)
      measureSeparator libs.sha256 2
      return 0) := by
  unfold measureImages
  rw [forEach_map]
  rfl

/-- The events behind the images of PCR 4. -/
def measureBoot (libs : PcrLibs) (env : PcrEnv) : Proc (Measurement 32) Int := do
  evlogAdd 4 (ascii "EV_EFI_ACTION") (hashBuf libs.sha256 callingEfiApplication)
    (ascii "HASH('Calling EFI Application from Boot Option')")
  extendMr libs.sha256 (hashBuf libs.sha256 callingEfiApplication)
  exitIf (env.separatorAllocated = false) (-1)
  measureSeparator libs.sha256 4
  return 0

theorem calculatePcr4_eq (libs : PcrLibs) (env : PcrEnv) {args : Pcr4Args}
    (h : ¬(args.kernelFile = none ∧ args.bootloaderFiles = none)) :
    calculatePcr4 libs env args =
      measureImages libs env (pcr4Images args) (measureBoot libs env) := by
  unfold calculatePcr4 measureImages pcr4Images measureBoot
  rw [exitIf_neg h, pure_bind, forEach_append, forEach_map, forEach_map, bind_assoc]
  rfl

/-- The separator behind the images is recorded if the status is 0. -/
theorem separatorEnd_recorded (index : Nat) {s s' : Measurement 32}
    (hrun : run (do
      exitIf (env.separatorAllocated = false) (-1)
      measureSeparator libs.sha256 index
      return 0) s = .ok (0, s')) :
    Recorded libs index [libs.sha256 evSeparator] s s' := by
  cases halloc : env.separatorAllocated with
  | false =>
      rw [halloc] at hrun
      cases hrun
  | true =>
      rw [halloc] at hrun
      cases hrun
      exact .record s _ _ _

theorem measureBoot_recorded {s s' : Measurement 32}
    (hrun : run (measureBoot libs env) s = .ok (0, s')) :
    Recorded libs 4 [libs.sha256 callingEfiApplication, libs.sha256 evSeparator] s s' := by
  have hend := separatorEnd_recorded 4 (s := (s.log 4 (ascii "EV_EFI_ACTION")
    (hashBuf libs.sha256 callingEfiApplication)
    (ascii "HASH('Calling EFI Application from Boot Option')")).extend libs.sha256
      (hashBuf libs.sha256 callingEfiApplication)) hrun
  exact (Recorded.record s _ _ _).trans hend

theorem separatorEnd_logStarts (digests : List (Digest 32)) (i : Nat) :
    Preserves (LogStarts index digests) (do
      exitIf (env.separatorAllocated = false) (-1)
      measureSeparator libs.sha256 i
      return (0 : Int)) := by
  refine .bind (.exitIf _ _) fun _ => .bind (.bind ?_ fun _ => ?_) fun _ => .pure 0
  · exact LogStarts.evlogAdd _ _ _ _
  · exact LogStarts.extendMr _ _

theorem measureBoot_logStarts (digests : List (Digest 32)) :
    Preserves (LogStarts index digests) (measureBoot libs env) :=
  .bind (LogStarts.evlogAdd _ _ _ _) fun _ => .bind (LogStarts.extendMr _ _) fun _ =>
    separatorEnd_logStarts digests 4

theorem pcr2_measured (libs : PcrLibs) (env : PcrEnv) (drivers : List File) :
    ImagesMeasured libs 2 (drivers.map .driver) [libs.sha256 evSeparator]
      (calculatePcr2 libs env drivers) := by
  rw [calculatePcr2_eq]
  refine measureImages_measured ?_ (fun s s' => separatorEnd_recorded 2) ?_
  · intro x hx
    obtain ⟨file, -, rfl⟩ := List.mem_map.mp hx
    rfl
  · rintro ⟨pre, x, post, digests, himages, -, hfreed⟩
    have hx : x ∈ drivers.map PcrImage.driver := by simp [himages]
    obtain ⟨file, -, rfl⟩ := List.mem_map.mp hx
    exact hfreed

theorem pcr4Images_index {args : Pcr4Args} : ∀ x ∈ pcr4Images args, x.index = 4 := by
  intro x hx
  rcases List.mem_append.mp hx with hx | hx <;>
  · obtain ⟨file, -, rfl⟩ := List.mem_map.mp hx
    rfl

theorem pcr4_measured_iff (libs : PcrLibs) (env : PcrEnv) (args : Pcr4Args) :
    ImagesMeasured libs 4 (pcr4Images args)
        [libs.sha256 callingEfiApplication, libs.sha256 evSeparator]
        (calculatePcr4 libs env args) ↔
      ¬BootloaderDoubleFreed libs (pcr4Images args) := by
  by_cases hnone : args.kernelFile = none ∧ args.bootloaderFiles = none
  · have hno : pcr4Images args = [] := by simp [pcr4Images, hnone]
    have hreturns : ∀ s, run (calculatePcr4 libs env args) s = .ok (-1, s.clear) := by
      intro s
      unfold calculatePcr4
      rw [exitIf_pos hnone]
      rfl
    rw [hno]
    refine iff_of_true (fun s => ⟨fun s' hrun => ?_, ?_⟩) ?_
    · rw [hreturns] at hrun
      cases hrun
    · intro pre x post digests himages
      simp at himages
    · rintro ⟨pre, x, post, digests, himages, -⟩
      simp at himages
  · rw [calculatePcr4_eq libs env hnone]
    refine ⟨fun hmeasured hfreed => ?_, fun hfree => ?_⟩
    · exact measureImages_doubleFreed pcr4Images_index measureBoot_logStarts hfreed hmeasured
    · exact measureImages_measured pcr4Images_index (fun s s' => measureBoot_recorded) hfree

/-- PCR 2 covers every driver or fails. PCR 4 does so for every bootloader and the
kernel exactly when no bootloader is freed twice. -/
theorem images_measured_iff (libs : PcrLibs) (env : PcrEnv) (drivers : List File)
    (args : Pcr4Args) :
    ImagesMeasured libs 2 (drivers.map .driver) [libs.sha256 evSeparator]
        (calculatePcr2 libs env drivers) ∧
      (ImagesMeasured libs 4 (pcr4Images args)
          [libs.sha256 callingEfiApplication, libs.sha256 evSeparator]
          (calculatePcr4 libs env args) ↔
        ¬BootloaderDoubleFreed libs (pcr4Images args)) :=
  ⟨pcr2_measured libs env drivers, pcr4_measured_iff libs env args⟩

/-- A file of zeros, which is no PE image. -/
def zeroBootloader : File := .intact (ascii "grubx64.efi") (zeros 8) (by decide)

/-- With a bootloader that is no PE image, PCR 4 is not calculated so. -/
theorem pcr4_bootloader_not_measured :
    ¬∀ (libs : PcrLibs) (env : PcrEnv) (args : Pcr4Args),
      ImagesMeasured libs 4 (pcr4Images args)
        [libs.sha256 callingEfiApplication, libs.sha256 evSeparator]
        (calculatePcr4 libs env args) := by
  intro h
  let libs : PcrLibs := ⟨Sha256.sha256, fun _ => none, fun _ => .ok none⟩
  let args : Pcr4Args := ⟨none, none, some [some zeroBootloader]⟩
  refine (pcr4_measured_iff libs ⟨true, true, false⟩ args).mp (h _ _ _) ?_
  have hload : zeroBootloader.Loads := File.intact_loads _ _ _
  exact ⟨[], .bootloader (some zeroBootloader), [], [], rfl, rfl, hload, rfl⟩

end Calculators

end MeasuredBoot.SrtmPcrs
