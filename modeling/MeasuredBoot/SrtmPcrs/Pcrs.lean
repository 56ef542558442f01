import MeasuredBoot.Common.Firmware
import MeasuredBoot.Common.KernelConfig
import MeasuredBoot.Common.Paths
import MeasuredBoot.SrtmPcrs.Gpt

/-! # The PCR calculators

`calculate_pcr0` to `calculate_pcr9` of `pcrs.c`. The optional arguments are
`NULL` where they are none; each function returns with the status its source has
at that point.
-/

namespace MeasuredBoot.SrtmPcrs

open Binary Imperative Imperative.Proc

/-- What the calculators are linked with: the digest, `MeasurePeImage`, and
`extract_lzma_fvmain_new` with the volume it unpacks. -/
structure PcrLibs where
  sha256 : Md 32
  measurePeImage : MeasurePeImage 32
  extractLzmaFvmainNew : Bytes → Except Stop (Option Bytes)

/-- What the calculators find in memory: whether the separator can be allocated,
whether the stack slot of `ev_separator` holds `NULL` before its initialisation, and
whether the allocator lets a buffer be freed twice. -/
structure PcrEnv where
  separatorAllocated : Bool
  slotNull : Bool
  freesTwice : Bool

def evSeparator : Bytes := zeros 4

/-- The `EV_SEPARATOR` event of a register, logged and extended. -/
def measureSeparator (sha256 : Md 32) (index : Nat) : Proc (Measurement 32) Unit := do
  evlogAdd index (ascii "EV_SEPARATOR") (hashBuf sha256 evSeparator) (ascii "HASH(00000000)")
  extendMr sha256 (hashBuf sha256 evSeparator)

/-! ## PCR 0 -/

structure Pcr0Args where
  ovmfFile : File
  dumpPeiPath : Option DumpFile
  dumpDxePath : Option DumpFile
  compactAllocated : Bool

/-- `FvLength` of the volume header at an offset. -/
def fvLength (image : Bytes) (off : UInt64) : Except Stop UInt64 := do
  let raw ← copyFrom image (off + 32).toNat 8
  return UInt64.ofNat (ofLE raw)

/-- `hash_and_dump`: the digest, or none where the dump cannot be written. -/
def hashAndDump (sha256 : Md 32) (data : Bytes) (dumpPath : Option DumpFile) :
    Option (Digest 32) :=
  if dumpPath.any (!·.written) then none else some (hashBuf sha256 data)

/-- A firmware volume inside the unpacked one, hashed, logged and extended. -/
def measureVolume (sha256 : Md 32) (fvmain : Bytes) (off : UInt64) (dumpPath : Option DumpFile)
    (name desc : Bytes) : Proc (Measurement 32) Unit := do
  let size ← lift (fvLength fvmain off)
  let data ← lift (copyFrom fvmain off.toNat size.toNat)
  match hashAndDump sha256 data dumpPath with
  | none => exit (-1)
  | some hash =>
      evlogAdd 0 name hash desc
      extendMr sha256 hash

/-- The body once the volumes are unpacked. -/
def measureVolumes (sha256 : Md 32) (env : PcrEnv) (args : Pcr0Args) (fvmain : Bytes) :
    Proc (Measurement 32) Int := do
  measureVolume sha256 fvmain 0x80 args.dumpPeiPath (ascii "PEIFV")
    (ascii "OVMF UEFI PEI Firmware Volume")
  let peiLength ← lift (fvLength fvmain 0x80)
  measureVolume sha256 fvmain (peiLength + 0x90) args.dumpDxePath (ascii "DXEFV")
    (ascii "OVMF UEFI DXE Firmware Volume")
  exitIf (env.separatorAllocated = false) (-1)
  measureSeparator sha256 0
  return 0

def calculatePcr0 (libs : PcrLibs) (env : PcrEnv) (args : Pcr0Args) :
    Proc (Measurement 32) Int := do
  update Measurement.clear
  evlogAdd 0 (ascii "EV_S_CRTM_VERSION") (hashBuf libs.sha256 (zeros 2))
    (ascii "CRTM Version String")
  extendMr libs.sha256 (hashBuf libs.sha256 (zeros 2))
  match readFile args.ovmfFile with
  | none => exit (-1)
  | some ovmfBuf =>
      let fvmainStart ← lift (fvLength ovmfBuf.bytes 0)
      let size ← lift (fvLength ovmfBuf.bytes fvmainStart)
      exitIf (args.compactAllocated = false) (-1)
      exitIf (fvmainStart > ovmfBuf.size ∨ size > ovmfBuf.size - fvmainStart) (-1)
      let compact ← lift (copyFrom ovmfBuf.bytes fvmainStart.toNat size.toNat)
      match ← lift (libs.extractLzmaFvmainNew compact) with
      | none => exit (-1)
      | some fvmain => measureVolumes libs.sha256 env args fvmain

/-! ## PCR 1 -/

structure Pcr1Args where
  cfg : AcpiFiles
  bootVars : BootVarArgs

/-- `goto out` in front of the initialisation of `ev_separator`. -/
def outEarly {α : Type} (env : PcrEnv) (ret : Int) : Proc (Measurement 32) α :=
  if env.slotNull then exit ret else fault

def calculatePcr1 (libs : PcrLibs) (env : PcrEnv) (args : Pcr1Args) :
    Proc (Measurement 32) Int := do
  update Measurement.clear
  let ret ← call (calculateAcpiTables libs.sha256 1 args.cfg)
  when (ret ≠ 0) (outEarly env ret)
  let ret ← call (calculateEfiBootVars libs.sha256 1 args.bootVars)
  when (ret ≠ 0) (outEarly env ret)
  exitIf (env.separatorAllocated = false) ret
  measureSeparator libs.sha256 1
  return 0

/-! ## PCR 2 -/

def bootServicesDriver : Bytes := ascii "EV_EFI_BOOT_SERVICES_DRIVER"

/-- One round of the loop over the drivers. -/
def measureDriver (libs : PcrLibs) (driver : File) : Proc (Measurement 32) Unit :=
  match loadPeImage driver with
  | none => exit (-1)
  | some driverBuf =>
      match libs.measurePeImage driverBuf.bytes with
      | none => exit (-1)
      | some hashDriver => do
          evlogAdd 2 bootServicesDriver hashDriver (basename driver.path)
          extendMr libs.sha256 hashDriver

def calculatePcr2 (libs : PcrLibs) (env : PcrEnv) (drivers : List File) :
    Proc (Measurement 32) Int := do
  update Measurement.clear
  forEach (measureDriver libs) drivers
  exitIf (env.separatorAllocated = false) (-1)
  measureSeparator libs.sha256 2
  return 0

/-! ## PCR 3 and PCR 6 -/

/-- A register that only a separator is extended into. -/
def calculateSeparatorPcr (libs : PcrLibs) (env : PcrEnv) (index : Nat) :
    Proc (Measurement 32) Int := do
  update Measurement.clear
  exitIf (env.separatorAllocated = false) (-1)
  measureSeparator libs.sha256 index
  return 0

def calculatePcr3 (libs : PcrLibs) (env : PcrEnv) : Proc (Measurement 32) Int :=
  calculateSeparatorPcr libs env 3

def calculatePcr6 (libs : PcrLibs) (env : PcrEnv) : Proc (Measurement 32) Int :=
  calculateSeparatorPcr libs env 6

/-! ## PCR 4 -/

structure Pcr4Args where
  kernelFile : Option File
  configFile : Option File
  bootloaderFiles : Option (List (Option File))

def bootServicesApplication : Bytes := ascii "EV_EFI_BOOT_SERVICES_APPLICATION"

/-- One round of the loop over the bootloaders. An EFI error does not end it: the digest
is still zero, and the image is freed a second time. -/
def measureBootloader (libs : PcrLibs) (env : PcrEnv) (bootloader : Option File) :
    Proc (Measurement 32) Unit :=
  match bootloader with
  | none => exit (-1)
  | some file =>
      match loadPeImage file with
      | none => exit (-1)
      | some blBuf =>
          match libs.measurePeImage blBuf.bytes with
          | none => do
              evlogAdd 4 bootServicesApplication (zeroDigest 32) (basename file.path)
              extendMr libs.sha256 (zeroDigest 32)
              when (env.freesTwice = false) fault
          | some hashBl => do
              evlogAdd 4 bootServicesApplication hashBl (basename file.path)
              extendMr libs.sha256 hashBl

/-- The block under `if (config_file)`. -/
def prepareKernel (configFile : Option File) (kernelBuf : Bytes) : Proc (Measurement 32) Bytes :=
  match configFile with
  | none => return kernelBuf
  | some file => do
      match ← lift (configLoad file) with
      | none => exit (-1)
      | some config =>
          match configPrepareKernelPecoff kernelBuf config with
          | none => exit (-1)
          | some image => return image

/-- The block under `if (kernel_file)`. -/
def measureKernel (libs : PcrLibs) (configFile : Option File) (kernelFile : File) :
    Proc (Measurement 32) Unit :=
  match loadPeImage kernelFile with
  | none => exit (-1)
  | some kernelBuf => do
      let image ← prepareKernel configFile kernelBuf.bytes
      match libs.measurePeImage image with
      | none => exit (-1)
      | some hashKernel =>
          evlogAdd 4 bootServicesApplication hashKernel (basename kernelFile.path)
          extendMr libs.sha256 hashKernel

def callingEfiApplication : Bytes := ascii "Calling EFI Application from Boot Option"

def calculatePcr4 (libs : PcrLibs) (env : PcrEnv) (args : Pcr4Args) :
    Proc (Measurement 32) Int := do
  update Measurement.clear
  exitIf (args.kernelFile = none ∧ args.bootloaderFiles = none) (-1)
  forEach (measureBootloader libs env) (args.bootloaderFiles.getD [])
  forEach (measureKernel libs args.configFile) args.kernelFile.toList
  evlogAdd 4 (ascii "EV_EFI_ACTION") (hashBuf libs.sha256 callingEfiApplication)
    (ascii "HASH('Calling EFI Application from Boot Option')")
  extendMr libs.sha256 (hashBuf libs.sha256 callingEfiApplication)
  exitIf (env.separatorAllocated = false) (-1)
  measureSeparator libs.sha256 4
  return 0

/-! ## PCR 5 -/

structure Pcr5Args where
  efiPartitionTable : Option File
  descriptionAllocated : Bool

def exitBootServicesInvocation : Bytes := ascii "Exit Boot Services Invocation"
def exitBootServicesSucceeded : Bytes := ascii "Exit Boot Services Returned with Success"

def sizeofGptHeader : Nat := 92

/-- The block under `if (efi_partition_table)`: its `ret` is not the one returned. -/
def measureGpt (libs : PcrLibs) (args : Pcr5Args) (table : File) : Proc (Measurement 32) Unit :=
  match readFile table with
  | none => exit (-1)
  | some gptBuf => do
      exitIf (gptBuf.bytes.length < sizeofGptHeader) (-1)
      match ← lift (writeGptHeader args.descriptionAllocated gptBuf.bytes) with
      | none => exit (-1)
      | some description =>
          evlogAdd 5 (ascii "EV_EFI_GPT_EVENT") (hashBuf libs.sha256 gptBuf.bytes) description
          extendMr libs.sha256 (hashBuf libs.sha256 gptBuf.bytes)

def calculatePcr5 (libs : PcrLibs) (env : PcrEnv) (args : Pcr5Args) :
    Proc (Measurement 32) Int := do
  update Measurement.clear
  exitIf (env.separatorAllocated = false) (-1)
  -- logged here, but extended behind the partition table
  evlogAdd 5 (ascii "EV_SEPARATOR") (hashBuf libs.sha256 evSeparator) (ascii "HASH(00000000)")
  forEach (measureGpt libs args) args.efiPartitionTable.toList
  evlogAdd 5 (ascii "EV_EFI_ACTION") (hashBuf libs.sha256 exitBootServicesInvocation)
    (ascii "HASH('Exit Boot Services Invocation')")
  evlogAdd 5 (ascii "EV_EFI_ACTION") (hashBuf libs.sha256 exitBootServicesSucceeded)
    (ascii "HASH('Exit Boot Services Returned with Success')")
  extendMr libs.sha256 (hashBuf libs.sha256 evSeparator)
  extendMr libs.sha256 (hashBuf libs.sha256 exitBootServicesInvocation)
  extendMr libs.sha256 (hashBuf libs.sha256 exitBootServicesSucceeded)
  return 0

/-! ## PCR 7 -/

structure Pcr7Args where
  sbatLevel : Option Bytes
  sbatAllocates : Bool
  secureBoot : SecureBootArgs

def efiImageSecurityDatabase1SbatLevelGuid : EfiGuid where
  data1 := 0x605dab50
  data2 := 0xe046
  data3 := 0x4300
  data4 := [0xab, 0xb6, 0x3d, 0xd8, 0x10, 0xdd, 0x8b, 0x23]

/-- The variable `var` of `calculate_pcr7`. -/
def sbatVariable (sbatLevel : Bytes) (allocates : Bool) : VariableType where
  eventType := ascii "EV_EFI_VARIABLE_AUTHORITY"
  variableName := utf16 "SbatLevel"
  vendorGuid := efiImageSecurityDatabase1SbatLevelGuid
  path := none
  data := some (cString sbatLevel)
  allocates := allocates

/-- The block under `if (sbat_level)`. -/
def measureSbatLevel (libs : PcrLibs) (allocates : Bool) (sbatLevel : Bytes) :
    Proc (Measurement 32) Unit := do
  let ret ← call (measureVariable libs.sha256 7 (sbatVariable sbatLevel allocates))
  exitIf (ret ≠ 0) (-1)

def calculatePcr7 (libs : PcrLibs) (env : PcrEnv) (args : Pcr7Args) :
    Proc (Measurement 32) Int := do
  update Measurement.clear
  let ret ← call (measureSecureBootVariables libs.sha256 7 args.secureBoot)
  exitIf (ret ≠ 0) (-1)
  exitIf (env.separatorAllocated = false) (-1)
  measureSeparator libs.sha256 7
  forEach (measureSbatLevel libs args.sbatAllocates) args.sbatLevel.toList
  return 0

/-! ## PCR 8 -/

/-- The commands file, and the heap behind the buffer it is read into: `strtok` needs a
NUL and the buffer has one only if the file does. -/
structure Pcr8Args where
  grubcmdsFile : Option File
  behind : Bytes

/-- One round of the `strtok` loop. -/
def measureGrubCmd (libs : PcrLibs) (cmd : Bytes) : Proc (Measurement 32) Unit := do
  evlogAdd 8 (ascii "EV_IPL") (hashBuf libs.sha256 cmd) cmd
  extendMr libs.sha256 (hashBuf libs.sha256 cmd)

/-- The block under `if (grubcmds_file)`. -/
def measureGrubCmds (libs : PcrLibs) (behind : Bytes) (grubcmdsFile : File) :
    Proc (Measurement 32) Unit :=
  match readFile grubcmdsFile with
  | none => exit (-1)
  | some grubcmdsBuf =>
      forEach (measureGrubCmd libs) (strtokAll 10 (cString (grubcmdsBuf.bytes ++ behind)))

def calculatePcr8 (libs : PcrLibs) (args : Pcr8Args) : Proc (Measurement 32) Int := do
  update Measurement.clear
  forEach (measureGrubCmds libs args.behind) args.grubcmdsFile.toList
  return 0

/-! ## PCR 9 -/

structure Pcr9Args where
  cmdline : Option File
  trailingZeros : UInt64
  initrd : Option File
  paths : Option PathArgs
  appendAllocated : Bool
  strAllocated : Bool
  wideAllocated : Bool

/-- `calculate_path` of `paths.c`. -/
def calculatePath (sha256 : Md 32) (path : RealFile) : Proc (Measurement 32) Int :=
  match hashFile sha256 path.file with
  | none => exit (-1)
  | some hash => do
      evlogAdd 9 (ascii "EV_IPL") hash path.file.path
      extendMr sha256 hash
      return 0

def calculatePathsRecursively (sha256 : Md 32) (fs : FileSystem) :
    Nat → List Nat → Bytes → Proc (Measurement 32) Int :=
  walkDirectory fs (calculatePath sha256)

def calculatePaths (sha256 : Md 32) (args : PathArgs) : Proc (Measurement 32) Int :=
  walkPaths args.fs (calculatePath sha256)
    (calculatePathsRecursively sha256 args.fs args.fs.depth) args.paths

/-- The command line OVMF boots with: ` initrd=initrd` is appended if there is an
initial ramdisk. The results of `realloc` and `malloc` are written to unchecked. -/
def bootCmdline (args : Pcr9Args) (cmdlineBuf : Bytes) : Except Stop Bytes :=
  if args.initrd.isSome ∧ args.appendAllocated = false ∨ args.strAllocated = false then
    .error .fault
  else .ok (if args.initrd.isSome then cmdlineBuf ++ ascii " initrd=initrd" else cmdlineBuf)

/-- The block under `if (cmdline)`. -/
def measureCmdline (libs : PcrLibs) (args : Pcr9Args) (cmdline : File) :
    Proc (Measurement 32) Unit :=
  match readFile cmdline with
  | none => exit (-1)
  | some cmdlineBuf => do
      let text ← lift (bootCmdline args cmdlineBuf.bytes)
      match ← lift (convertToChar16 args.wideAllocated text args.trailingZeros) with
      | none => exit (-1)
      | some wcmdline =>
          evlogAdd 9 (ascii "EV_EVENT_TAG") (hashBuf libs.sha256 wcmdline) (cString text)
          extendMr libs.sha256 (hashBuf libs.sha256 wcmdline)

/-- The block under `if (initrd)`. -/
def measureInitrd (libs : PcrLibs) (initrd : File) : Proc (Measurement 32) Unit :=
  match readFile initrd with
  | none => exit (-1)
  | some initrdBuf => do
      evlogAdd 9 (ascii "EV_EVENT_TAG") (hashBuf libs.sha256 initrdBuf.bytes) initrd.path
      extendMr libs.sha256 (hashBuf libs.sha256 initrdBuf.bytes)

def calculatePcr9 (libs : PcrLibs) (args : Pcr9Args) : Proc (Measurement 32) Int := do
  update Measurement.clear
  forEach (fun paths => do
    let ret ← call (calculatePaths libs.sha256 paths)
    exitIf (ret ≠ 0) ret) args.paths.toList
  forEach (measureCmdline libs args) args.cmdline.toList
  forEach (measureInitrd libs) args.initrd.toList
  return 0

end MeasuredBoot.SrtmPcrs
