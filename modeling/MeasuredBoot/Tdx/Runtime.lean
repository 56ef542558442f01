import MeasuredBoot.Common.Firmware
import MeasuredBoot.Common.KernelConfig
import MeasuredBoot.Common.Sha2
import MeasuredBoot.Tdx.Cfv

/-! # Runtime registers

`calculate_rtmr0` to `calculate_rtmr3` of `mrs.c` with the TD handoff block of
`td_hob.c`. A jump to `out` in front of the initialisation of `ev_separator`
frees whatever the stack slot of that variable holds.
-/

namespace MeasuredBoot.Tdx

open Binary Imperative Imperative.Proc

def indexRtmr0 : Nat := 1
def indexRtmr1 : Nat := 2
def indexRtmr2 : Nat := 3
def indexRtmr3 : Nat := 4

/-! ## TD handoff block -/

def resourceDescriptorLen : Nat := 9

def getTdHobSize : Nat := 56 + 48 * resourceDescriptorLen

/-- `EFI_HOB_HANDOFF_INFO_TABLE`. -/
def handoffInfoTable : Bytes :=
  toLE 2 1 ++ toLE 2 56 ++ toLE 4 0 ++ toLE 4 9 ++ toLE 4 0 ++ toLE 8 0 ++ toLE 8 0 ++ toLE 8 0
    ++ toLE 8 0 ++ toLE 8 0x8091f0

def resourceSystemMemory : Nat := 0
def resourceMemoryUnaccepted : Nat := 7

/-- `EFI_HOB_RESOURCE_DESCRIPTOR`: present, initialized and tested memory. -/
def resourceDescriptor (resourceType physicalStart resourceLength : Nat) : Bytes :=
  toLE 2 3 ++ toLE 2 48 ++ toLE 4 0 ++ zeros 16 ++ toLE 4 resourceType ++ toLE 4 (1 ||| 2 ||| 4)
    ++ toLE 8 physicalStart ++ toLE 8 resourceLength

/-- The arrays `resource_type`, `physical_start` and `resource_length`. -/
def tdResources : List (Nat × Nat × Nat) :=
  [(resourceMemoryUnaccepted, 0x0, 0x800000),
   (resourceSystemMemory, 0x800000, 0x6000),
   (resourceMemoryUnaccepted, 0x806000, 0x3000),
   (resourceSystemMemory, 0x809000, 0x2000),
   (resourceSystemMemory, 0x80b000, 0x2000),
   (resourceMemoryUnaccepted, 0x80d000, 0x4000),
   (resourceSystemMemory, 0x811000, 0xF000),
   (resourceMemoryUnaccepted, 0x820000, 0x7F7E0000),
   (resourceMemoryUnaccepted, 0x100000000, 0x80000000)]

/-- The handoff block, or none where the buffer is too small. -/
def createTdHob (destLen : Nat) : Option Bytes :=
  if destLen < getTdHobSize then none
  else some (handoffInfoTable ++ tdResources.flatMap fun (type, start, length) =>
    resourceDescriptor type start length)

/-- The block as `calculate_rtmr0` measures it. -/
def tdHob : Bytes := (createTdHob getTdHobSize).getD []

theorem createTdHob_eq : createTdHob getTdHobSize = some tdHob := rfl

/-! ## Memory of a run -/

/-- What the calculators find in memory: whether the stack slot of `ev_separator`
holds `NULL` before its initialisation, what `hash_cfv` holds before it is written,
and which allocations succeed. -/
structure RuntimeEnv where
  slotNull : Bool
  hashCfvStack : Digest 48
  metadataAllocated : Bool
  separatorAllocated : Bool

/-- `goto out` in front of the initialisation of `ev_separator`. -/
def outEarly {α : Type} (env : RuntimeEnv) (ret : Int) : Proc (Measurement 48) α :=
  if env.slotNull then exit ret else fault

def evSeparator : Bytes := zeros 4

/-- The version that measures no separator into RTMR1 and two into RTMR0. -/
def stable202408 : Bytes := ascii "edk2-stable202408.01"

/-! ## RTMR0 -/

structure Rtmr0Args where
  ovmfFile : Option File
  cfg : AcpiFiles
  ovmfVersion : Bytes
  bootVars : BootVarArgs
  secureBoot : SecureBootArgs

/-- The block under `if (ovmf_file)`. -/
def measureConfigFv (md : Md 48) (env : RuntimeEnv) (ovmfFile : Option File) :
    Proc (Measurement 48) Unit :=
  match ovmfFile with
  | none => pure ()
  | some file =>
      match readFile file with
      | none => outEarly env (-1)
      | some ovmfBuf => do
          let (ret, digest) ← lift (measureCfv md env.metadataAllocated ovmfBuf)
          when (ret ≠ 0) (outEarly env ret)
          let hashCfv := digest.getD env.hashCfvStack
          evlogAdd indexRtmr0 (ascii "Configuration FV") hashCfv
            (ascii "Configuration Firmware Volume")
          extendMr md hashCfv

/-- The rest of the body, with the separator allocated. -/
def measureBootServices (md : Md 48) (args : Rtmr0Args) : Proc (Measurement 48) Int := do
  evlogAdd indexRtmr0 (ascii "EV_SEPARATOR") (hashBuf md evSeparator) (ascii "HASH(00000000)")
  extendMr md (hashBuf md evSeparator)
  let ret ← call (calculateAcpiTables md indexRtmr0 args.cfg)
  exitIf (ret ≠ 0) ret
  let ret ← call (calculateEfiBootVars md indexRtmr0 args.bootVars)
  exitIf (ret ≠ 0) ret
  when (args.ovmfVersion = stable202408) do
    evlogAdd indexRtmr0 (ascii "EV_SEPARATOR") (hashBuf md evSeparator) (ascii "HASH(00000000)")
    extendMr md (hashBuf md evSeparator)
  return 0

def calculateRtmr0 (md : Md 48) (env : RuntimeEnv) (args : Rtmr0Args) :
    Proc (Measurement 48) Int := do
  update Measurement.clear
  match createTdHob getTdHobSize with
  | none => exit (-1)
  | some block =>
      evlogAdd indexRtmr0 (ascii "TD Hob") (hashBuf md block)
        (ascii "TD Hob passed from host VMM to guest firmware")
      extendMr md (hashBuf md block)
      measureConfigFv md env args.ovmfFile
      let ret ← call (measureSecureBootVariables md indexRtmr0 args.secureBoot)
      when (ret ≠ 0) (outEarly env ret)
      -- `ret` is 0 here and stays 0 on the way out
      exitIf (env.separatorAllocated = false) ret
      measureBootServices md args

/-! ## RTMR1 -/

structure Rtmr1Args where
  kernelFile : File
  configFile : Option File
  dumpKernelPath : Option DumpFile
  ovmfVersion : Bytes

/-- The block under `if (config_file)`. -/
def prepareKernel (env : RuntimeEnv) (configFile : Option File) (kernelBuf : Bytes) :
    Proc (Measurement 48) Bytes :=
  match configFile with
  | none => return kernelBuf
  | some file => do
      match ← lift (configLoad file) with
      | none => outEarly env (-1)
      | some config =>
          match configPrepareKernelPecoff kernelBuf config with
          | none => outEarly env (-1)
          | some image => return image

def callingEfiApplication : Bytes := ascii "Calling EFI Application from Boot Option"
def exitBootServicesInvocation : Bytes := ascii "Exit Boot Services Invocation"
def exitBootServicesSucceeded : Bytes := ascii "Exit Boot Services Returned with Success"

/-- An `EV_EFI_ACTION` event, its text logged and hashed. -/
def measureAction (md : Md 48) (action : Bytes) : Proc (Measurement 48) Unit := do
  evlogAdd indexRtmr1 (ascii "EV_EFI_ACTION") (hashBuf md action) action
  extendMr md (hashBuf md action)

/-- The body from the measured kernel on. -/
def measureKernelBoot (md : Md 48) (env : RuntimeEnv) (args : Rtmr1Args)
    (hashKernel : Digest 48) : Proc (Measurement 48) Int := do
  evlogAdd indexRtmr1 (basename args.kernelFile.path) hashKernel
    (ascii "Linux Kernel PE/COFF Image")
  extendMr md hashKernel
  when (args.dumpKernelPath.any (!·.written)) (outEarly env 0)
  measureAction md callingEfiApplication
  when (args.ovmfVersion ≠ stable202408) do
    exitIf (env.separatorAllocated = false) 0
    evlogAdd indexRtmr1 (ascii "EV_SEPARATOR") (hashBuf md evSeparator) (ascii "HASH(00000000)")
    extendMr md (hashBuf md evSeparator)
  measureAction md exitBootServicesInvocation
  measureAction md exitBootServicesSucceeded
  return 0

def calculateRtmr1 (md : Md 48) (measurePeImage : MeasurePeImage 48) (env : RuntimeEnv)
    (args : Rtmr1Args) : Proc (Measurement 48) Int := do
  update Measurement.clear
  match loadPeImage args.kernelFile with
  | none => outEarly env (-1)
  | some kernelBuf =>
      let image ← prepareKernel env args.configFile kernelBuf.bytes
      match measurePeImage image with
      | none => outEarly env 0
      | some hashKernel => measureKernelBoot md env args hashKernel

/-! ## RTMR2 and RTMR3 -/

structure Rtmr2Args where
  cmdlineFile : File
  trailingZeros : UInt64
  wideAllocated : Bool

def calculateRtmr2 (md : Md 48) (args : Rtmr2Args) : Proc (Measurement 48) Int := do
  update Measurement.clear
  match readFile args.cmdlineFile with
  | none => exit (-1)
  | some cmdlineBuf =>
      match ← lift (convertToChar16 args.wideAllocated cmdlineBuf.bytes args.trailingZeros) with
      | none => exit 0
      | some wcmdline =>
          evlogAdd indexRtmr2 (ascii "EV_EVENT_TAG") (hashBuf md wcmdline) args.cmdlineFile.path
          extendMr md (hashBuf md wcmdline)
          return 0

def calculateRtmr3 : Proc (Measurement 48) Int := do
  update Measurement.clear
  return 0

/-! ## Register and log -/

section InStep

variable {md : Md 48} {before : List (LogEntry 48)}

theorem outEarly_preserves {α : Type} (I : Measurement 48 → Prop) (env : RuntimeEnv) (ret : Int) :
    Preserves I (outEarly env ret : Proc (Measurement 48) α) :=
  .ite (fun _ => .exit ret) fun _ => .fault

theorem measureConfigFv_inStep (env : RuntimeEnv) (ovmfFile : Option File) :
    Preserves (InStep md indexRtmr0 before) (measureConfigFv md env ovmfFile) := by
  unfold measureConfigFv
  cases ovmfFile with
  | none => exact .pure ()
  | some file =>
      dsimp only
      cases readFile file with
      | none => exact outEarly_preserves _ env (-1)
      | some ovmfBuf =>
          refine .bind (.lift _) fun result => ?_
          refine .bind (.when fun _ => outEarly_preserves _ env _) fun _ => ?_
          exact InStep.record _ _ _

theorem measureBootServices_inStep (args : Rtmr0Args) :
    Preserves (InStep md indexRtmr0 before) (measureBootServices md args) := by
  refine InStep.logged ?_
  refine .bind (.call (calculateAcpiTables_inStep args.cfg)) fun _ => ?_
  refine .bind (.exitIf _ _) fun _ => ?_
  refine .bind (.call (calculateEfiBootVars_inStep args.bootVars)) fun _ => ?_
  refine .bind (.exitIf _ _) fun _ => ?_
  exact .bind (.when fun _ => InStep.record _ _ _) fun _ => .pure 0

theorem measureAction_inStep (action : Bytes) :
    Preserves (InStep md indexRtmr1 before) (measureAction md action) := InStep.record _ _ _

theorem prepareKernel_preserves (I : Measurement 48 → Prop) (env : RuntimeEnv)
    (configFile : Option File) (kernelBuf : Bytes) :
    Preserves I (prepareKernel env configFile kernelBuf) := by
  unfold prepareKernel
  cases configFile with
  | none => exact .pure kernelBuf
  | some file =>
      refine .bind (.lift _) fun loaded => ?_
      cases loaded with
      | none => exact outEarly_preserves I env (-1)
      | some config =>
          dsimp only
          cases configPrepareKernelPecoff kernelBuf config with
          | none => exact outEarly_preserves I env (-1)
          | some image => exact .pure image

theorem measureKernelBoot_inStep (env : RuntimeEnv) (args : Rtmr1Args) (hashKernel : Digest 48) :
    Preserves (InStep md indexRtmr1 before) (measureKernelBoot md env args hashKernel) := by
  refine InStep.logged ?_
  refine .bind (.when fun _ => outEarly_preserves _ env 0) fun _ => ?_
  refine .bind (measureAction_inStep _) fun _ => ?_
  refine .bind (.when fun _ => .bind (.exitIf _ _) fun _ => InStep.record _ _ _) fun _ => ?_
  refine .bind (measureAction_inStep _) fun _ => ?_
  exact .bind (measureAction_inStep _) fun _ => .pure 0

end InStep

theorem calculateRtmr0_inStep {md : Md 48} {env : RuntimeEnv} {args : Rtmr0Args}
    {s s' : Measurement 48} {ret : Int} (hempty : digestsOf indexRtmr0 s.evlog = [])
    (hrun : run (calculateRtmr0 md env args) s = .ok (ret, s')) :
    InStep md indexRtmr0 s.evlog s' := by
  refine InStep.of_run (fun before => InStep.logged ?_) hempty hrun
  refine .bind (measureConfigFv_inStep env args.ovmfFile) fun _ => ?_
  refine .bind (.call (measureSecureBootVariables_inStep args.secureBoot)) fun _ => ?_
  refine .bind (.when fun _ => outEarly_preserves _ env _) fun _ => ?_
  exact .bind (.exitIf _ _) fun _ => measureBootServices_inStep args

theorem calculateRtmr1_inStep {md : Md 48} {measurePeImage : MeasurePeImage 48}
    {env : RuntimeEnv} {args : Rtmr1Args} {s s' : Measurement 48} {ret : Int}
    (hempty : digestsOf indexRtmr1 s.evlog = [])
    (hrun : run (calculateRtmr1 md measurePeImage env args) s = .ok (ret, s')) :
    InStep md indexRtmr1 s.evlog s' := by
  refine InStep.of_run (fun before => ?_) hempty hrun
  cases loadPeImage args.kernelFile with
  | none => exact outEarly_preserves _ env (-1)
  | some kernelBuf =>
      refine .bind (prepareKernel_preserves _ env _ _) fun image => ?_
      cases measurePeImage image with
      | none => exact outEarly_preserves _ env 0
      | some hashKernel => exact measureKernelBoot_inStep env args hashKernel

theorem calculateRtmr2_inStep {md : Md 48} {args : Rtmr2Args} {s s' : Measurement 48} {ret : Int}
    (hempty : digestsOf indexRtmr2 s.evlog = [])
    (hrun : run (calculateRtmr2 md args) s = .ok (ret, s')) :
    InStep md indexRtmr2 s.evlog s' := by
  refine InStep.of_run (fun before => ?_) hempty hrun
  cases readFile args.cmdlineFile with
  | none => exact .exit (-1)
  | some cmdlineBuf =>
      refine .bind (.lift _) fun converted => ?_
      cases converted with
      | none => exact .exit 0
      | some wcmdline => exact InStep.logged (.pure 0)

theorem calculateRtmr3_inStep {md : Md 48} {s s' : Measurement 48} {ret : Int}
    (hempty : digestsOf indexRtmr3 s.evlog = []) (hrun : run calculateRtmr3 s = .ok (ret, s')) :
    InStep md indexRtmr3 s.evlog s' := InStep.of_run (fun _ => .pure 0) hempty hrun

/-- A call of one of the calculators of the runtime registers. -/
inductive RuntimeCall where
  | rtmr0 (args : Rtmr0Args)
  | rtmr1 (args : Rtmr1Args)
  | rtmr2 (args : Rtmr2Args)
  | rtmr3

def RuntimeCall.index : RuntimeCall → Nat
  | .rtmr0 _ => indexRtmr0
  | .rtmr1 _ => indexRtmr1
  | .rtmr2 _ => indexRtmr2
  | .rtmr3 => indexRtmr3

def RuntimeCall.body (md : Md 48) (measurePeImage : MeasurePeImage 48) (env : RuntimeEnv) :
    RuntimeCall → Proc (Measurement 48) Int
  | .rtmr0 args => calculateRtmr0 md env args
  | .rtmr1 args => calculateRtmr1 md measurePeImage env args
  | .rtmr2 args => calculateRtmr2 md args
  | .rtmr3 => calculateRtmr3

/-- At every return of a calculator the register replays its log, and the other logs
are as they were. -/
theorem runtimeCall_inStep (md : Md 48) (measurePeImage : MeasurePeImage 48) (env : RuntimeEnv)
    (c : RuntimeCall) (s s' : Measurement 48) (ret : Int)
    (hempty : digestsOf c.index s.evlog = [])
    (hrun : run (c.body md measurePeImage env) s = .ok (ret, s')) :
    InStep md c.index s.evlog s' := by
  cases c with
  | rtmr0 args => exact calculateRtmr0_inStep hempty hrun
  | rtmr1 args => exact calculateRtmr1_inStep hempty hrun
  | rtmr2 args => exact calculateRtmr2_inStep hempty hrun
  | rtmr3 => exact calculateRtmr3_inStep hempty hrun

/-- RTMR0 without a firmware file and without keys, with the separator of the older OVMF. -/
def bareRtmr0 : RuntimeCall :=
  .rtmr0 ⟨none, ⟨none, none, none, none⟩, stable202408, ⟨[0], none, true⟩,
    ⟨⟨none, true⟩, ⟨none, true⟩, ⟨none, true⟩, ⟨none, true⟩, ⟨none, true⟩⟩⟩

/-- The log already holds a record of RTMR2. -/
def loggedBefore : Measurement 48 :=
  ⟨zeroDigest 48, [⟨indexRtmr2, ascii "EV_EVENT_TAG", Sha384.sha384 [], ascii "cmdline"⟩]⟩

theorem runtimeCall_inStep_bareRtmr0 :
    ∃ s', run (bareRtmr0.body Sha384.sha384 (fun _ => none) ⟨true, zeroDigest 48, true, true⟩)
        loggedBefore = .ok (0, s') ∧
      s'.evlog.length = 11 ∧ InStep Sha384.sha384 1 loggedBefore.evlog s' := by
  have hreturns : (run (bareRtmr0.body Sha384.sha384 (fun _ => none)
      ⟨true, zeroDigest 48, true, true⟩) loggedBefore).toOption.map
        (fun r => (r.1, r.2.evlog.length)) = some (0, 11) := by decide +kernel
  obtain ⟨⟨ret, s'⟩, hrun, hvalues⟩ := exists_of_toOption_map hreturns
  obtain ⟨rfl, hlength⟩ := Prod.mk.inj hvalues
  exact ⟨s', hrun, hlength,
    runtimeCall_inStep _ (fun _ => none) _ bareRtmr0 loggedBefore s' 0 rfl hrun⟩

end MeasuredBoot.Tdx
