import MeasuredBoot.Common.File
import MeasuredBoot.Common.Hash
import MeasuredBoot.Lib.CText

/-! # Kernel images, their boot configuration and command line

`LoadPeImage` of `MeasureBootPeCoff.c` and `common/kernel_config.c`: the setup
header fields a boot loader changes are read from a file of `name=value` lines
and written into the kernel image. `convert_to_char16` of `common/common.c`
widens the command line.
-/

namespace MeasuredBoot

open Binary Imperative

/-! ## PE images -/

/-- `LoadPeImage`: `read_file` without the `access`. -/
def loadPeImage (f : File) : Option Buffer :=
  if !f.allocates then none
  else if !f.opens then none
  else if (fread f.content.length f.reads).1.length ≠ f.content.length then none
  else some ⟨f.content, f.size_lt⟩

/-- One `fread` delivers the whole image. -/
def File.Loads (f : File) : Prop :=
  f.allocates ∧ f.opens ∧ (fread f.content.length f.reads).1.length = f.content.length

instance (f : File) : Decidable f.Loads := by
  unfold File.Loads
  infer_instance

theorem loadPeImage_of_loads {f : File} (h : f.Loads) :
    loadPeImage f = some ⟨f.content, f.size_lt⟩ := by
  obtain ⟨halloc, hopen, hread⟩ := h
  simp [loadPeImage, halloc, hopen, hread]

theorem loadPeImage_eq_none {f : File} : loadPeImage f = none ↔ ¬f.Loads := by
  unfold loadPeImage File.Loads
  cases f.allocates <;> cases f.opens <;> simp

theorem File.intact_loads (path content : Bytes) (h : content.length < 2 ^ 63) :
    (File.intact path content h).Loads := by
  simp [File.Loads, File.intact, fread]

/-- `MeasurePeImage`: an EFI error, or the digest of the image. -/
abbrev MeasurePeImage (n : Nat) := Bytes → Option (Digest n)

/-! ## The configuration -/

/-- The fields of the setup header that are configured. -/
structure KernelSetupHdr where
  typeOfLoader : UInt8 := 0
  loadflags : UInt8 := 0
  setupMoveSize : UInt16 := 0
  code32Start : UInt32 := 0
  ramdiskImage : UInt32 := 0
  ramdiskSize : UInt32 := 0
  bootsectKludge : UInt32 := 0
  heapEndPtr : UInt16 := 0
  extLoaderVer : UInt8 := 0
  extLoaderType : UInt8 := 0
  cmdLinePtr : UInt32 := 0
  deriving DecidableEq

def trim (str : Bytes) : Bytes :=
  ((str.dropWhile isspace).reverse.dropWhile isspace).reverse

/-- The header with one more value, or none for a name that is not known. -/
def setVal (c : KernelSetupHdr) (var val : Bytes) : Option KernelSetupHdr :=
  let value := strtolHex val
  if var = ascii "PeCoffTypeOfLoader" then some { c with typeOfLoader := .ofInt value }
  else if var = ascii "PeCoffLoadFlags" then some { c with loadflags := .ofInt value }
  else if var = ascii "PeCoffSetupMoveSize" then some { c with setupMoveSize := .ofInt value }
  else if var = ascii "PeCoffCode32Start" then some { c with code32Start := .ofInt value }
  else if var = ascii "PeCoffRamdiskImage" then some { c with ramdiskImage := .ofInt value }
  else if var = ascii "PeCoffRamdiskSize" then some { c with ramdiskSize := .ofInt value }
  else if var = ascii "PeCoffBootsectKludge" then some { c with bootsectKludge := .ofInt value }
  else if var = ascii "PeCoffHeapEndPtr" then some { c with heapEndPtr := .ofInt value }
  else if var = ascii "PeCoffExtLoaderVer" then some { c with extLoaderVer := .ofInt value }
  else if var = ascii "PeCoffExtLoaderType" then some { c with extLoaderType := .ofInt value }
  else if var = ascii "PeCoffCmdLinePtr" then some { c with cmdLinePtr := .ofInt value }
  else none

/-- One round of the loop of `config_load`. A token that does not start the line is
not the pointer `strdup` returned, so `free` must not get it. -/
def configLine (c : KernelSetupHdr) (line : Bytes) : Except Stop (Option KernelSetupHdr) :=
  let text := cString line
  match strtok 61 text with
  | none => .ok (some c)
  | some (var, rest) =>
      match strtok 61 rest with
      | none => if text.head? = some 61 then .error .fault else .ok (some c)
      | some (val, _) =>
          match setVal c (trim var) (trim val) with
          | none => .ok none
          | some c' => if text.head? = some 61 then .error .fault else .ok (some c')

def configLines (c : KernelSetupHdr) : List Bytes → Except Stop (Option KernelSetupHdr)
  | [] => .ok (some c)
  | line :: rest =>
      match configLine c line with
      | .ok (some c') => configLines c' rest
      | result => result

/-- The header a configuration text describes. -/
def parseConfig (text : Bytes) : Except Stop (Option KernelSetupHdr) :=
  configLines {} (getlines text)

/-- What `getline` delivers in all: a read error ends the lines like the end of the
file. -/
def untilError : List ReadEvent → Bytes
  | [] => []
  | .data bytes :: rest => bytes ++ untilError rest
  | .error :: _ => []

/-- `config_load`: the configuration, or none where it returns `-1`. -/
def configLoad (f : File) : Except Stop (Option KernelSetupHdr) :=
  if !f.opens then .ok none else parseConfig (untilError f.reads)

/-- The lines read are all of the file. -/
def File.LinesDelivered (f : File) : Prop := f.opens ∧ untilError f.reads = f.content

instance (f : File) : Decidable f.LinesDelivered := by
  unfold File.LinesDelivered
  infer_instance

theorem configLoad_of_delivered {f : File} (h : f.LinesDelivered) :
    configLoad f = parseConfig f.content := by
  simp [configLoad, h.1, h.2]

/-! ## Patching the kernel -/

/-- The fields as they stand behind each other from `type_of_loader` to
`cmd_line_ptr`. -/
def KernelSetupHdr.bytes (c : KernelSetupHdr) : Bytes :=
  [c.typeOfLoader, c.loadflags] ++ toLE 2 c.setupMoveSize.toNat ++ toLE 4 c.code32Start.toNat
    ++ toLE 4 c.ramdiskImage.toNat ++ toLE 4 c.ramdiskSize.toNat
    ++ toLE 4 c.bootsectKludge.toNat ++ toLE 2 c.heapEndPtr.toNat
    ++ [c.extLoaderVer, c.extLoaderType] ++ toLE 4 c.cmdLinePtr.toNat

@[simp] theorem KernelSetupHdr.bytes_length (c : KernelSetupHdr) : c.bytes.length = 28 := by
  simp [KernelSetupHdr.bytes]

def sizeofKernelSetupHdr : Nat := 0x230

/-- `config_prepare_kernel_pecoff`: the patched image, or none where it returns `-1`. -/
def configPrepareKernelPecoff (buf : Bytes) (c : KernelSetupHdr) : Option Bytes :=
  if buf.length < sizeofKernelSetupHdr then none else some (overwrite buf 0x210 c.bytes)

/-! ## The command line -/

/-- A `char` stored into a `char16_t`: it is signed. -/
def widen (c : UInt8) : Bytes := [c, if c < 128 then 0 else 0xff]

/-- `convert_to_char16`: the bytes of the wide string, or none where it returns
`NULL`. The result of `malloc` is not checked before it is written to. -/
def convertToChar16 (allocates : Bool) (input : Bytes) (trailingZeros : UInt64) :
    Except Stop (Option Bytes) :=
  let olen := UInt64.ofNat input.length * 2 + trailingZeros * 2
  if !allocates then
    if olen = 0 ∧ input = [] then .ok none else .error .fault
  else if olen.toNat < 2 * input.length then .error .fault
  else .ok (some (input.flatMap widen ++ zeros (olen.toNat - 2 * input.length)))

end MeasuredBoot
