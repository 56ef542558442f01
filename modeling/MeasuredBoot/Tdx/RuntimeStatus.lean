import MeasuredBoot.Tdx.Runtime

/-! # Status soundness of the runtime registers

When the status of `calculate_rtmr0`, `calculate_rtmr1` and `calculate_rtmr2` can
be trusted. For each register one predicate lists the failures that are reported
and one says what it takes for nothing to fail; the status is sound exactly in
these two cases.
-/

namespace MeasuredBoot.Tdx

open Binary Imperative Imperative.Proc

/-- From any state the calculator returns, and returns 0 only if nothing failed and
the register is the replay of the prescribed digests. `Complete` says both. -/
def StatusSound (md : Md 48) (m : Proc (Measurement 48) Int)
    (Complete : List (Digest 48) → Prop) : Prop :=
  ∀ s, ∃ ret t, run m s = .ok (ret, t) ∧
    (ret = 0 → ∃ digests, Complete digests ∧ t.mr = replay md digests)

/-- A failing status, reported on every run. -/
theorem StatusSound.of_aborts {md : Md 48} {m : Proc (Measurement 48) Int}
    {Complete : List (Digest 48) → Prop} {r : Int} (hr : r ≠ 0) (h : Aborts m r) :
    StatusSound md m Complete := by
  intro s
  obtain ⟨t, ht⟩ := h.run s
  exact ⟨r, t, ht, fun hzero => absurd hzero hr⟩

/-- A complete run behind the `memset` of the register. -/
theorem StatusSound.of_extends {md : Md 48} {body : Proc (Measurement 48) Int}
    {Complete : List (Digest 48) → Prop} {digests : List (Digest 48)}
    (h : Extends md body 0 digests) (hcomplete : Complete digests) :
    StatusSound md (do update Measurement.clear; body) Complete := by
  intro s
  obtain ⟨t, ht, hmr⟩ := h s.clear
  refine ⟨0, t, ?_, fun _ => ⟨digests, hcomplete, hmr⟩⟩
  change run body s.clear = _
  unfold run
  rw [ht]

/-- A sound calculator that can fail only in one way has failed so or is complete. -/
theorem StatusSound.cases {md : Md 48} {m : Proc (Measurement 48) Int}
    {Complete : List (Digest 48) → Prop} {Reports : Prop} (h : StatusSound md m Complete)
    (hfails : Yields (fun r => r = 0 ∨ Reports) (fun r => r = 0 ∨ Reports) m) :
    Reports ∨ ∃ digests, Complete digests := by
  obtain ⟨ret, t, hrun, hzero⟩ := h ⟨zeroDigest 48, []⟩
  rcases run_of_wlp (Q := fun r _ => r = 0 ∨ Reports) (hfails _) hrun with hret | hreports
  · obtain ⟨digests, hcomplete, -⟩ := hzero hret
    exact Or.inr ⟨digests, hcomplete⟩
  · exact Or.inl hreports

/-- An early jump to `out` returns its status if the slot holds `NULL`. -/
theorem outEarly_yields {α : Type} {Q : α → Prop} {E : Int → Prop} {env : RuntimeEnv} {ret : Int}
    (h : env.slotNull = true → E ret) :
    Yields Q E (outEarly env ret : Proc (Measurement 48) α) :=
  .ite (fun hnull => .exit (h hnull)) fun _ => .fault

theorem outEarly_aborts {α : Type} {env : RuntimeEnv} (h : env.slotNull = true) (ret : Int) :
    Aborts (outEarly env ret : Proc (Measurement 48) α) ret := by
  unfold outEarly
  rw [if_pos h]
  exact .exit ret

/-! ## RTMR2 -/

/-- The command line is read, and the wide string with its trailing zeros has a size
and is allocated. -/
structure Rtmr2Args.Complete (args : Rtmr2Args) : Prop where
  readable : args.cmdlineFile.Readable
  size : 2 * args.cmdlineFile.content.length + 2 * args.trailingZeros.toNat < 2 ^ 64
  allocated : args.wideAllocated = true

/-- The one event of RTMR2: the widened command line and its trailing zeros. -/
def rtmr2Digests (md : Md 48) (args : Rtmr2Args) : List (Digest 48) :=
  [md (args.cmdlineFile.content.flatMap widen ++ zeros (2 * args.trailingZeros.toNat))]

theorem convertToChar16_of_size {input : Bytes} {trailingZeros : UInt64}
    (hsize : 2 * input.length + 2 * trailingZeros.toNat < 2 ^ 64) :
    convertToChar16 true input trailingZeros =
      .ok (some (input.flatMap widen ++ zeros (2 * trailingZeros.toNat))) := by
  have holen : (UInt64.ofNat input.length * 2 + trailingZeros * 2).toNat =
      2 * input.length + 2 * trailingZeros.toNat := by
    simp only [UInt64.toNat_add, UInt64.toNat_mul, UInt64.toNat_ofNat', UInt64.reduceToNat]
    omega
  have hrest : 2 * input.length + 2 * trailingZeros.toNat - 2 * input.length =
      2 * trailingZeros.toNat := by omega
  simp only [convertToChar16, Bool.not_true, Bool.false_eq_true, if_false, holen, hrest]
  rw [if_neg (by omega)]

theorem calculateRtmr2_of_complete (md : Md 48) {args : Rtmr2Args} (h : args.Complete) :
    ∃ body, calculateRtmr2 md args = (do update Measurement.clear; body) ∧
      Extends md body 0 (rtmr2Digests md args) := by
  refine ⟨_, rfl, ?_⟩
  rw [readFile_of_readable h.readable, h.allocated]
  dsimp only
  rw [convertToChar16_of_size h.size]
  exact Extends.logged (.skip 0)

theorem rtmr2_fails (md : Md 48) (args : Rtmr2Args) :
    Yields (fun r => r = 0 ∨ ¬args.cmdlineFile.Readable)
      (fun r => r = 0 ∨ ¬args.cmdlineFile.Readable) (calculateRtmr2 md args) := by
  unfold calculateRtmr2
  refine .bind (.update _) fun _ _ => ?_
  cases hread : readFile args.cmdlineFile with
  | none => exact .exit (Or.inr (readFile_eq_none.mp hread))
  | some cmdlineBuf =>
      refine .bind (P := fun _ => True) (.lift fun _ _ => trivial) fun converted _ => ?_
      cases converted with
      | none => exact .exit (Or.inl rfl)
      | some wcmdline =>
          exact .bind (.update _) fun _ _ => .bind (.update _) fun _ _ => .pure (Or.inl rfl)

def Rtmr2Sound (md : Md 48) (args : Rtmr2Args) : Prop :=
  StatusSound md (calculateRtmr2 md args)
    fun digests => args.Complete ∧ digests = rtmr2Digests md args

theorem rtmr2Sound_iff (md : Md 48) (args : Rtmr2Args) :
    Rtmr2Sound md args ↔ ¬args.cmdlineFile.Readable ∨ args.Complete := by
  constructor
  · intro hsound
    rcases hsound.cases (rtmr2_fails md args) with hread | ⟨_, hcomplete, -⟩
    · exact Or.inl hread
    · exact Or.inr hcomplete
  · rintro (hread | hcomplete)
    · refine StatusSound.of_aborts (r := -1) (by decide) ?_
      unfold calculateRtmr2
      rw [readFile_eq_none.mpr hread]
      exact fun s => ⟨s.clear, rfl⟩
    · obtain ⟨body, hbody, hextends⟩ := calculateRtmr2_of_complete md hcomplete
      unfold Rtmr2Sound
      rw [hbody]
      exact .of_extends hextends ⟨hcomplete, rfl⟩

/-! ## RTMR1 -/

/-- The kernel is turned down before it is measured. -/
inductive Rtmr1Args.Rejected (args : Rtmr1Args) : Prop where
  | load (h : ¬args.kernelFile.Loads)
  | config (file : File) (hload : args.kernelFile.Loads) (hfile : args.configFile = some file)
      (h : configLoad file = .ok none)
  | tooSmall (file : File) (config : KernelSetupHdr) (hload : args.kernelFile.Loads)
      (hfile : args.configFile = some file) (hconfig : configLoad file = .ok (some config))
      (h : args.kernelFile.content.length < sizeofKernelSetupHdr)

/-- The image to measure: the kernel, patched with its configuration if one is given
and read completely. -/
inductive Rtmr1Args.Prepared (args : Rtmr1Args) : Bytes → Prop where
  | plain (h : args.configFile = none) : Prepared args args.kernelFile.content
  | patched (file : File) (config : KernelSetupHdr) (image : Bytes)
      (hfile : args.configFile = some file) (hread : file.LinesDelivered)
      (hparse : parseConfig file.content = .ok (some config))
      (hpatch : configPrepareKernelPecoff args.kernelFile.content config = some image) :
      Prepared args image

/-- Nothing fails, and `hashKernel` is the digest of the prepared kernel. -/
structure Rtmr1Complete (measurePeImage : MeasurePeImage 48) (env : RuntimeEnv)
    (args : Rtmr1Args) (hashKernel : Digest 48) : Prop where
  loads : args.kernelFile.Loads
  measured : ∃ image, args.Prepared image ∧ measurePeImage image = some hashKernel
  dumped : ∀ d, args.dumpKernelPath = some d → d.written = true
  separator : args.ovmfVersion ≠ stable202408 → env.separatorAllocated = true

/-- The events of RTMR1. -/
def rtmr1Digests (md : Md 48) (args : Rtmr1Args) (hashKernel : Digest 48) : List (Digest 48) :=
  [hashKernel, md callingEfiApplication]
    ++ (if args.ovmfVersion ≠ stable202408 then [md evSeparator] else [])
    ++ [md exitBootServicesInvocation, md exitBootServicesSucceeded]

theorem measureAction_extends (md : Md 48) (action : Bytes) :
    Extends md (measureAction md action) () [md action] :=
  (Extends.evlogAdd _ _ _ _).bind (Extends.extendMr _)

/-- The separator block of RTMR1. -/
theorem separator_extends (md : Md 48) {env : RuntimeEnv} (h : env.separatorAllocated = true) :
    Extends md (do
      exitIf (env.separatorAllocated = false) 0
      evlogAdd indexRtmr1 (ascii "EV_SEPARATOR") (hashBuf md evSeparator) (ascii "HASH(00000000)")
      extendMr md (hashBuf md evSeparator)) () [md evSeparator] := by
  rw [exitIf_neg (by simp [h])]
  exact (Extends.skip ()).bind ((Extends.evlogAdd _ _ _ _).bind (Extends.extendMr _))

theorem measureKernelBoot_extends (md : Md 48) {measurePeImage : MeasurePeImage 48}
    {env : RuntimeEnv} {args : Rtmr1Args} {hashKernel : Digest 48}
    (h : Rtmr1Complete measurePeImage env args hashKernel) :
    Extends md (measureKernelBoot md env args hashKernel) 0
      (rtmr1Digests md args hashKernel) := by
  have hdump : ¬args.dumpKernelPath.any (!·.written) = true := by
    cases hpath : args.dumpKernelPath with
    | none => simp
    | some d => simp [h.dumped d hpath]
  unfold measureKernelBoot
  refine Extends.logged ?_
  rw [Proc.when, if_neg hdump]
  refine (Extends.skip ()).seq ?_ rfl
  refine (measureAction_extends md callingEfiApplication).seq ?_ rfl
  refine (Extends.when fun hversion => separator_extends md (h.separator hversion)).seq ?_ rfl
  refine (measureAction_extends md exitBootServicesInvocation).seq ?_ rfl
  exact (measureAction_extends md exitBootServicesSucceeded).seq (.skip 0) rfl

/-- A prepared kernel is what the run measures. -/
theorem prepareKernel_of_prepared {env : RuntimeEnv} {args : Rtmr1Args} {image : Bytes}
    (h : args.Prepared image) :
    prepareKernel env args.configFile args.kernelFile.content = pure image := by
  cases h with
  | plain h =>
      rw [h]
      rfl
  | patched file config image hfile hread hparse hpatch =>
      unfold prepareKernel
      rw [hfile]
      dsimp only
      rw [configLoad_of_delivered hread, hparse, lift_ok_bind]
      dsimp only
      rw [hpatch]

theorem calculateRtmr1_of_complete (md : Md 48) {measurePeImage : MeasurePeImage 48}
    {env : RuntimeEnv} {args : Rtmr1Args} {hashKernel : Digest 48}
    (h : Rtmr1Complete measurePeImage env args hashKernel) :
    ∃ body, calculateRtmr1 md measurePeImage env args = (do update Measurement.clear; body) ∧
      Extends md body 0 (rtmr1Digests md args hashKernel) := by
  obtain ⟨image, hprepared, himage⟩ := h.measured
  refine ⟨_, rfl, ?_⟩
  rw [loadPeImage_of_loads h.loads]
  dsimp only
  rw [prepareKernel_of_prepared hprepared, pure_bind, himage]
  exact measureKernelBoot_extends md h

/-- A kernel that is turned down, with the slot holding `NULL`. -/
def Rtmr1Reports (env : RuntimeEnv) (args : Rtmr1Args) : Prop :=
  env.slotNull = true ∧ args.Rejected

theorem prepareKernel_aborts {env : RuntimeEnv} (hnull : env.slotNull = true) {file : File}
    {kernelBuf : Bytes} (h : configLoad file = .ok none ∨
      ∃ config, configLoad file = .ok (some config) ∧ kernelBuf.length < sizeofKernelSetupHdr) :
    Aborts (prepareKernel env (some file) kernelBuf) (-1) := by
  unfold prepareKernel
  dsimp only
  rcases h with hconfig | ⟨config, hconfig, hsmall⟩
  · rw [hconfig, lift_ok_bind]
    exact outEarly_aborts hnull (-1)
  · rw [hconfig, lift_ok_bind]
    dsimp only
    rw [configPrepareKernelPecoff, if_pos hsmall]
    exact outEarly_aborts hnull (-1)

theorem calculateRtmr1_aborts (md : Md 48) (measurePeImage : MeasurePeImage 48)
    {env : RuntimeEnv} {args : Rtmr1Args} (h : Rtmr1Reports env args) :
    Aborts (calculateRtmr1 md measurePeImage env args) (-1) := by
  obtain ⟨hnull, hrejected⟩ := h
  unfold calculateRtmr1
  refine Completes.aborts_bind (a := ()) (fun s => ⟨s.clear, rfl⟩) ?_
  cases hrejected with
  | load h =>
      rw [loadPeImage_eq_none.mpr h]
      exact outEarly_aborts hnull (-1)
  | config file hload hfile h =>
      rw [loadPeImage_of_loads hload, hfile]
      exact (prepareKernel_aborts hnull (Or.inl h)).bind
  | tooSmall file config hload hfile hconfig h =>
      rw [loadPeImage_of_loads hload, hfile]
      exact (prepareKernel_aborts hnull (Or.inr ⟨config, hconfig, h⟩)).bind

theorem rtmr1_fails (md : Md 48) (measurePeImage : MeasurePeImage 48) (env : RuntimeEnv)
    (args : Rtmr1Args) :
    Yields (fun r => r = 0 ∨ Rtmr1Reports env args) (fun r => r = 0 ∨ Rtmr1Reports env args)
      (calculateRtmr1 md measurePeImage env args) := by
  unfold calculateRtmr1
  refine .bind (.update _) fun _ _ => ?_
  by_cases hload : args.kernelFile.Loads
  · rw [loadPeImage_of_loads hload]
    refine .bind (P := fun _ => True) ?_ fun image _ => ?_
    · unfold prepareKernel
      cases hfile : args.configFile with
      | none => exact .pure trivial
      | some file =>
          refine .bind (.lift (Q := fun loaded => configLoad file = .ok loaded) fun _ h => h)
            fun loaded hloaded => ?_
          cases loaded with
          | none =>
              exact outEarly_yields fun hnull =>
                Or.inr ⟨hnull, .config file hload hfile hloaded⟩
          | some config =>
              dsimp only
              unfold configPrepareKernelPecoff
              by_cases hsmall : args.kernelFile.content.length < sizeofKernelSetupHdr
              · rw [if_pos hsmall]
                exact outEarly_yields fun hnull =>
                  Or.inr ⟨hnull, .tooSmall file config hload hfile hloaded hsmall⟩
              · rw [if_neg hsmall]
                exact .pure trivial
    · cases measurePeImage image with
      | none => exact outEarly_yields fun _ => Or.inl rfl
      | some hashKernel =>
          dsimp only
          unfold measureKernelBoot measureAction
          refine .bind (.update _) fun _ _ => .bind (.update _) fun _ _ => ?_
          refine .bind (P := fun _ => True) (.when (fun _ => outEarly_yields fun _ => Or.inl rfl)
            fun _ => trivial) fun _ _ => ?_
          refine .bind (.bind (.update _) fun _ _ => .update _) fun _ _ => ?_
          refine .bind (P := fun _ => True) (.when (fun _ => ?_) fun _ => trivial) fun _ _ => ?_
          · refine .bind (P := fun _ => True) (.exitIf (fun _ => Or.inl rfl) fun _ => trivial)
              fun _ _ => ?_
            exact .bind (.update _) fun _ _ => .update _
          · refine .bind (.bind (.update _) fun _ _ => .update _) fun _ _ => ?_
            refine .bind (.bind (.update _) fun _ _ => .update _) fun _ _ => ?_
            exact .pure (Or.inl rfl)
  · rw [loadPeImage_eq_none.mpr hload]
    exact outEarly_yields fun hnull => Or.inr ⟨hnull, .load hload⟩

def Rtmr1Sound (md : Md 48) (measurePeImage : MeasurePeImage 48) (env : RuntimeEnv)
    (args : Rtmr1Args) : Prop :=
  StatusSound md (calculateRtmr1 md measurePeImage env args) fun digests =>
    ∃ hashKernel, Rtmr1Complete measurePeImage env args hashKernel ∧
      digests = rtmr1Digests md args hashKernel

theorem rtmr1Sound_iff (md : Md 48) (measurePeImage : MeasurePeImage 48) (env : RuntimeEnv)
    (args : Rtmr1Args) :
    Rtmr1Sound md measurePeImage env args ↔
      Rtmr1Reports env args ∨ ∃ hashKernel, Rtmr1Complete measurePeImage env args hashKernel := by
  constructor
  · intro hsound
    rcases hsound.cases (rtmr1_fails md measurePeImage env args) with
      hreports | ⟨_, hashKernel, hcomplete, -⟩
    · exact Or.inl hreports
    · exact Or.inr ⟨hashKernel, hcomplete⟩
  · rintro (hreports | ⟨hashKernel, hcomplete⟩)
    · exact .of_aborts (by decide) (calculateRtmr1_aborts md measurePeImage hreports)
    · obtain ⟨body, hbody, hextends⟩ := calculateRtmr1_of_complete md hcomplete
      unfold Rtmr1Sound
      rw [hbody]
      exact .of_extends hextends ⟨hashKernel, hcomplete, rfl⟩

/-! ## RTMR0 -/

/-- The configuration volume cannot be had, and `measure_cfv` says so. -/
inductive CfvFails (env : RuntimeEnv) (args : Rtmr0Args) : Prop where
  | read (file : File) (hfile : args.ovmfFile = some file) (h : ¬file.Readable)
  | descriptor (file : File) (hfile : args.ovmfFile = some file) (hread : file.Readable)
      (h : EarlyReject ⟨env.metadataAllocated, true, true⟩ ⟨file.content, file.size_lt⟩)

/-- The block of the configuration volume goes on: no file is given, or `measure_cfv`
returns 0, with the digest written or not. -/
inductive CfvPasses (md : Md 48) (env : RuntimeEnv) (args : Rtmr0Args) : Prop where
  | none (h : args.ovmfFile = none)
  | measured (file : File) (digest : Option (Digest 48)) (hfile : args.ovmfFile = some file)
      (hread : file.Readable)
      (h : measureCfv md env.metadataAllocated ⟨file.content, file.size_lt⟩ = .ok (0, digest))

/-- The digests of the configuration volume, where one is found or no file is given. -/
inductive CfvMeasured (md : Md 48) (env : RuntimeEnv) (args : Rtmr0Args) :
    List (Digest 48) → Prop where
  | none (h : args.ovmfFile = none) : CfvMeasured md env args []
  | volume (file : File) (off : UInt64) (d : TdxMetadataDescriptor) (k : Nat)
      (hfile : args.ovmfFile = some file) (hread : file.Readable)
      (halloc : env.metadataAllocated = true) (h : CfvAt ⟨file.content, file.size_lt⟩ off d k) :
      CfvMeasured md env args [md (cfvData ⟨file.content, file.size_lt⟩
        (sectionAt ⟨file.content, file.size_lt⟩ off k))]

/-- The failures `calculate_rtmr0` reports. The first two leave by way of the slot of
`ev_separator`. -/
inductive Rtmr0Reports (md : Md 48) (env : RuntimeEnv) (args : Rtmr0Args) : Prop where
  | cfv (hnull : env.slotNull = true) (h : CfvFails env args)
  | secureBoot (hnull : env.slotNull = true) (hcfv : CfvPasses md env args)
      (h : FirstFails VariableType.Passes VariableType.Fails
        (secureBootVariables args.secureBoot))
  | bootVars (hcfv : CfvPasses md env args)
      (hvariables : ∀ var ∈ secureBootVariables args.secureBoot, var.Passes)
      (hseparator : env.separatorAllocated = true) (h : args.bootVars.Fail)

/-- Nothing fails, and the configuration volume contributes the digests `cfv`. -/
structure Rtmr0Complete (md : Md 48) (env : RuntimeEnv) (args : Rtmr0Args)
    (cfv : List (Digest 48)) : Prop where
  volume : CfvMeasured md env args cfv
  secureBoot : ∀ var ∈ secureBootVariables args.secureBoot, var.Passes
  separator : env.separatorAllocated = true
  bootVars : args.bootVars.Pass

/-- The events of RTMR0. -/
def rtmr0Digests (md : Md 48) (args : Rtmr0Args) (cfv : List (Digest 48)) : List (Digest 48) :=
  [md tdHob] ++ cfv ++ (secureBootVariables args.secureBoot).map (variableDigest md)
    ++ [md evSeparator] ++ acpiDigests md args.cfg ++ bootDigests md args.bootVars
    ++ (if args.ovmfVersion = stable202408 then [md evSeparator] else [])

theorem measureConfigFv_extends {md : Md 48} {env : RuntimeEnv} {args : Rtmr0Args}
    {cfv : List (Digest 48)} (h : CfvMeasured md env args cfv) :
    Extends md (measureConfigFv md env args.ovmfFile) () cfv := by
  cases h with
  | none h =>
      rw [h]
      exact .skip ()
  | volume file off d k hfile hread halloc h =>
      unfold measureConfigFv
      rw [hfile]
      dsimp only
      rw [readFile_of_readable hread, halloc]
      dsimp only
      rw [measureCfv_of_at md h, lift_ok_bind]
      exact (Extends.skip ()).bind ((Extends.evlogAdd _ _ _ _).bind (Extends.extendMr _))

/-- The block goes on with some digest extended, or none. -/
theorem measureConfigFv_completes {md : Md 48} {env : RuntimeEnv} {args : Rtmr0Args}
    (h : CfvPasses md env args) : Completes (measureConfigFv md env args.ovmfFile) () := by
  unfold measureConfigFv
  cases h with
  | none h =>
      rw [h]
      exact fun s => ⟨s, rfl⟩
  | measured file digest hfile hread h =>
      rw [hfile]
      dsimp only
      rw [readFile_of_readable hread]
      dsimp only
      rw [h, lift_ok_bind]
      exact fun s => ⟨_, rfl⟩

theorem measureConfigFv_aborts (md : Md 48) {env : RuntimeEnv} {args : Rtmr0Args}
    (hnull : env.slotNull = true) (h : CfvFails env args) :
    Aborts (measureConfigFv md env args.ovmfFile) (-1) := by
  unfold measureConfigFv
  cases h with
  | read file hfile h =>
      rw [hfile]
      dsimp only
      rw [readFile_eq_none.mpr h]
      exact outEarly_aborts hnull (-1)
  | descriptor file hfile hread h =>
      rw [hfile]
      dsimp only
      rw [readFile_of_readable hread]
      dsimp only
      rw [measureCfv_of_earlyReject md h, lift_ok_bind]
      exact (outEarly_aborts hnull (-1)).bind

theorem measureConfigFv_yields {md : Md 48} {env : RuntimeEnv} {args : Rtmr0Args}
    {E : Int → Prop} (hE : env.slotNull = true → CfvFails env args → ∀ r, E r) :
    Yields (fun _ => CfvPasses md env args) E (measureConfigFv md env args.ovmfFile) := by
  unfold measureConfigFv
  cases hfile : args.ovmfFile with
  | none => exact .pure (.none hfile)
  | some file =>
      dsimp only
      by_cases hread : file.Readable
      · rw [readFile_of_readable hread]
        refine .bind (.lift (Q := fun result =>
          measureCfv md env.metadataAllocated ⟨file.content, file.size_lt⟩ = .ok result)
            fun _ h => h) fun result hresult => ?_
        have hok := @measureCfv_ok md ⟨env.metadataAllocated, true, true⟩ _ _ _ hresult
        rcases hok with hearly | ⟨hret, -⟩
        · refine .bind (P := fun _ => False) (.when (fun _ => ?_) fun hzero => ?_) fun _ h => h.elim
          · exact outEarly_yields fun hnull => hE hnull (.descriptor file hfile hread hearly) _
          · have hreject := measureCfv_of_earlyReject md hearly
            rw [hresult] at hreject
            cases hreject
            exact hzero (by decide)
        · refine .bind (P := fun _ => True) (.when (fun hne => absurd hret hne) fun _ => trivial)
            fun _ _ => ?_
          refine .bind (.update _) fun _ _ => fun _ => ?_
          exact .measured file result.2 hfile hread (by rw [hresult, ← hret])
      · rw [readFile_eq_none.mpr hread]
        exact outEarly_yields fun hnull => hE hnull (.read file hfile hread) _

theorem measureBootServices_extends (md : Md 48) {args : Rtmr0Args} (h : args.bootVars.Pass) :
    Extends md (measureBootServices md args) 0
      (md evSeparator :: (acpiDigests md args.cfg ++ (bootDigests md args.bootVars
        ++ (if args.ovmfVersion = stable202408 then [md evSeparator] else [])))) := by
  refine Extends.logged ?_
  refine (calculateAcpiTables_extends args.cfg).call.seq ?_ rfl
  refine (Extends.skip ()).seq ?_ rfl
  refine (calculateEfiBootVars_extends h).call.seq ?_ rfl
  refine (Extends.skip ()).seq ?_ rfl
  refine (Extends.when fun _ => (Extends.evlogAdd _ _ _ _).bind (Extends.extendMr _)).seq
    (.skip 0) ?_
  rw [List.append_nil]
  rfl

theorem calculateRtmr0_of_complete {md : Md 48} {env : RuntimeEnv} {args : Rtmr0Args}
    {cfv : List (Digest 48)} (h : Rtmr0Complete md env args cfv) :
    ∃ body, calculateRtmr0 md env args = (do update Measurement.clear; body) ∧
      Extends md body 0 (rtmr0Digests md args cfv) := by
  have hdigests : rtmr0Digests md args cfv = md tdHob :: (cfv ++
      ((secureBootVariables args.secureBoot).map (variableDigest md) ++
        (md evSeparator :: (acpiDigests md args.cfg ++ (bootDigests md args.bootVars
          ++ (if args.ovmfVersion = stable202408 then [md evSeparator] else [])))))) := by
    simp only [rtmr0Digests, List.append_assoc, List.cons_append, List.nil_append]
  refine ⟨_, rfl, ?_⟩
  rw [hdigests]
  refine Extends.logged ?_
  refine (measureConfigFv_extends h.volume).bind ?_
  refine (measureSecureBootVariables_extends h.secureBoot).call.bind ?_
  refine (Extends.skip ()).seq ?_ rfl
  rw [exitIf_neg (by simp [h.separator])]
  exact (Extends.skip ()).seq (measureBootServices_extends md h.bootVars) rfl

theorem calculateRtmr0_aborts {md : Md 48} {env : RuntimeEnv} {args : Rtmr0Args}
    (h : Rtmr0Reports md env args) : Aborts (calculateRtmr0 md env args) (-1) := by
  unfold calculateRtmr0
  refine Completes.aborts_bind (a := ()) (fun s => ⟨s.clear, rfl⟩) ?_
  rw [createTdHob_eq]
  refine (Completes.update _).aborts_bind ?_
  refine (Completes.update _).aborts_bind ?_
  cases h with
  | cfv hnull h => exact (measureConfigFv_aborts md hnull h).bind
  | secureBoot hnull hcfv h =>
      refine (measureConfigFv_completes hcfv).aborts_bind ?_
      refine (measureSecureBootVariables_aborts h).call.aborts_bind ?_
      exact (outEarly_aborts hnull (-1)).bind
  | bootVars hcfv hvariables hseparator h =>
      have hvars : Extends md (measureSecureBootVariables md indexRtmr0 args.secureBoot) 0 _ :=
        measureSecureBootVariables_extends hvariables
      refine (measureConfigFv_completes hcfv).aborts_bind ?_
      refine hvars.call.completes.aborts_bind ?_
      refine Completes.aborts_bind (a := ()) (fun s => ⟨s, rfl⟩) ?_
      rw [exitIf_neg (by simp [hseparator]), pure_bind]
      refine (Completes.update _).aborts_bind ?_
      refine (Completes.update _).aborts_bind ?_
      refine (calculateAcpiTables_extends args.cfg).call.completes.aborts_bind ?_
      refine Completes.aborts_bind (a := ()) (fun s => ⟨s, rfl⟩) ?_
      exact (calculateEfiBootVars_aborts h).call.aborts_bind (Aborts.exit (-1)).bind

theorem rtmr0_fails (md : Md 48) (env : RuntimeEnv) (args : Rtmr0Args) :
    Yields (fun r => r = 0 ∨ Rtmr0Reports md env args) (fun r => r = 0 ∨ Rtmr0Reports md env args)
      (calculateRtmr0 md env args) := by
  unfold calculateRtmr0
  rw [createTdHob_eq]
  refine .bind (.update _) fun _ _ => .bind (.update _) fun _ _ => .bind (.update _) fun _ _ => ?_
  refine .bind (measureConfigFv_yields fun hnull h _ => Or.inr (.cfv hnull h)) fun _ hcfv => ?_
  refine .bind (.call (measureSecureBootVariables_yields args.secureBoot)) fun ret hret => ?_
  rcases hret with ⟨rfl, hvariables⟩ | ⟨hne, hfail⟩
  · refine .bind (P := fun _ => True) (.when (fun hne => absurd rfl hne) fun _ => trivial)
      fun _ _ => ?_
    refine .bind (P := fun _ => ¬env.separatorAllocated = false)
      (.exitIf (fun _ => Or.inl rfl) fun halloc => halloc) fun _ halloc => ?_
    unfold measureBootServices
    refine .bind (.update _) fun _ _ => .bind (.update _) fun _ _ => ?_
    refine .bind (P := fun r => r = 0) (.call fun s => ?_) fun ret hret => ?_
    · have hacpi : Extends md (calculateAcpiTables md indexRtmr0 args.cfg) 0 _ :=
        calculateAcpiTables_extends args.cfg
      obtain ⟨t, ht⟩ := hacpi.completes s
      unfold wlp
      rw [ht]
    · refine .bind (P := fun _ => True) (.exitIf (fun hne => absurd hret hne) fun _ => trivial)
        fun _ _ => ?_
      refine .bind (.call (calculateEfiBootVars_yields args.bootVars)) fun ret hret => ?_
      refine .bind (P := fun _ => True) (.exitIf (fun hne => ?_) fun _ => trivial) fun _ _ => ?_
      · have hfail := hret.resolve_left fun h => hne h.1
        exact Or.inr (.bootVars hcfv hvariables (by simpa using halloc) hfail.2)
      · refine .bind (P := fun _ => True) (.when (fun _ => ?_) fun _ => trivial) fun _ _ => ?_
        · exact .bind (.update _) fun _ _ => .update _
        · exact .pure (Or.inl rfl)
  · refine .bind (P := fun _ => False) (.when (fun _ => ?_) fun hzero => hzero hne)
      fun _ h => h.elim
    exact outEarly_yields fun hnull => Or.inr (.secureBoot hnull hcfv hfail)

def Rtmr0Sound (md : Md 48) (env : RuntimeEnv) (args : Rtmr0Args) : Prop :=
  StatusSound md (calculateRtmr0 md env args) fun digests =>
    ∃ cfv, Rtmr0Complete md env args cfv ∧ digests = rtmr0Digests md args cfv

theorem rtmr0Sound_iff (md : Md 48) (env : RuntimeEnv) (args : Rtmr0Args) :
    Rtmr0Sound md env args ↔
      Rtmr0Reports md env args ∨ ∃ cfv, Rtmr0Complete md env args cfv := by
  constructor
  · intro hsound
    rcases hsound.cases (rtmr0_fails md env args) with hreports | ⟨_, cfv, hcomplete, -⟩
    · exact Or.inl hreports
    · exact Or.inr ⟨cfv, hcomplete⟩
  · rintro (hreports | ⟨cfv, hcomplete⟩)
    · exact .of_aborts (by decide) (calculateRtmr0_aborts hreports)
    · obtain ⟨body, hbody, hextends⟩ := calculateRtmr0_of_complete hcomplete
      unfold Rtmr0Sound
      rw [hbody]
      exact .of_extends hextends ⟨cfv, hcomplete, rfl⟩

/-! ## All three -/

/-- Each status is sound exactly when the failure is one that is reported, or nothing
fails. -/
theorem rtmrStatus_sound_iff (md : Md 48) (measurePeImage : MeasurePeImage 48) (env : RuntimeEnv)
    (args0 : Rtmr0Args) (args1 : Rtmr1Args) (args2 : Rtmr2Args) :
    (Rtmr0Sound md env args0 ↔
      Rtmr0Reports md env args0 ∨ ∃ cfv, Rtmr0Complete md env args0 cfv) ∧
    (Rtmr1Sound md measurePeImage env args1 ↔
      Rtmr1Reports env args1 ∨ ∃ hashKernel, Rtmr1Complete measurePeImage env args1 hashKernel) ∧
    (Rtmr2Sound md args2 ↔ ¬args2.cmdlineFile.Readable ∨ args2.Complete) :=
  ⟨rtmr0Sound_iff md env args0, rtmr1Sound_iff md measurePeImage env args1,
    rtmr2Sound_iff md args2⟩

/-- A kernel that is not a PE image. -/
def zeroKernel : Rtmr1Args where
  kernelFile := .intact (ascii "bzImage") (zeros 512) (by simp)
  configFile := none
  dumpKernelPath := none
  ovmfVersion := ascii "edk2-stable202411"

/-- The EFI error of `MeasurePeImage` is not reported: `ret` still holds the 0 of
`LoadPeImage`. -/
theorem rtmr1Status_unsound_peError :
    ¬∃ md : Md 48, Rtmr1Sound md (fun _ => none) ⟨true, zeroDigest 48, true, true⟩ zeroKernel := by
  rintro ⟨md, hsound⟩
  rcases (rtmr1Sound_iff md _ _ _).mp hsound with ⟨-, hrejected⟩ | ⟨hashKernel, hcomplete⟩
  · cases hrejected with
    | load h => exact h (File.intact_loads _ _ _)
    | config file hload hfile h => cases hfile
    | tooSmall file config hload hfile hconfig h => cases hfile
  · obtain ⟨image, -, himage⟩ := hcomplete.measured
    cases himage

end MeasuredBoot.Tdx
