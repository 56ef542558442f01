import MeasuredBoot.Common.KernelConfig
import MeasuredBoot.Lib.Assignments

/-! # The setup header in a kernel image

The configured header as fields under keys: what `set_val` assigns, and what
`config_prepare_kernel_pecoff` leaves in an image after a list of assignments.
-/

namespace MeasuredBoot

open Binary Assignments

/-! ## The fields -/

/-- The keys of a configuration. -/
inductive SetupKey where
  | typeOfLoader
  | loadflags
  | setupMoveSize
  | code32Start
  | ramdiskImage
  | ramdiskSize
  | bootsectKludge
  | heapEndPtr
  | extLoaderVer
  | extLoaderType
  | cmdLinePtr
  deriving DecidableEq

namespace SetupKey

def name : SetupKey → Bytes
  | typeOfLoader => ascii "PeCoffTypeOfLoader"
  | loadflags => ascii "PeCoffLoadFlags"
  | setupMoveSize => ascii "PeCoffSetupMoveSize"
  | code32Start => ascii "PeCoffCode32Start"
  | ramdiskImage => ascii "PeCoffRamdiskImage"
  | ramdiskSize => ascii "PeCoffRamdiskSize"
  | bootsectKludge => ascii "PeCoffBootsectKludge"
  | heapEndPtr => ascii "PeCoffHeapEndPtr"
  | extLoaderVer => ascii "PeCoffExtLoaderVer"
  | extLoaderType => ascii "PeCoffExtLoaderType"
  | cmdLinePtr => ascii "PeCoffCmdLinePtr"

/-- Where the field stands behind `not_implemented[0x210]`. -/
def position : SetupKey → Nat
  | typeOfLoader => 0
  | loadflags => 1
  | setupMoveSize => 2
  | code32Start => 4
  | ramdiskImage => 8
  | ramdiskSize => 12
  | bootsectKludge => 16
  | heapEndPtr => 20
  | extLoaderVer => 22
  | extLoaderType => 23
  | cmdLinePtr => 24

def width : SetupKey → Nat
  | typeOfLoader | loadflags | extLoaderVer | extLoaderType => 1
  | setupMoveSize | heapEndPtr => 2
  | code32Start | ramdiskImage | ramdiskSize | bootsectKludge | cmdLinePtr => 4

theorem position_add_width_le (key : SetupKey) : key.position + key.width ≤ 28 := by
  cases key <;> decide

end SetupKey

namespace KernelSetupHdr

def field (c : KernelSetupHdr) : SetupKey → Nat
  | .typeOfLoader => c.typeOfLoader.toNat
  | .loadflags => c.loadflags.toNat
  | .setupMoveSize => c.setupMoveSize.toNat
  | .code32Start => c.code32Start.toNat
  | .ramdiskImage => c.ramdiskImage.toNat
  | .ramdiskSize => c.ramdiskSize.toNat
  | .bootsectKludge => c.bootsectKludge.toNat
  | .heapEndPtr => c.heapEndPtr.toNat
  | .extLoaderVer => c.extLoaderVer.toNat
  | .extLoaderType => c.extLoaderType.toNat
  | .cmdLinePtr => c.cmdLinePtr.toNat

def assign (c : KernelSetupHdr) (key : SetupKey) (value : Int) : KernelSetupHdr :=
  match key with
  | .typeOfLoader => { c with typeOfLoader := .ofInt value }
  | .loadflags => { c with loadflags := .ofInt value }
  | .setupMoveSize => { c with setupMoveSize := .ofInt value }
  | .code32Start => { c with code32Start := .ofInt value }
  | .ramdiskImage => { c with ramdiskImage := .ofInt value }
  | .ramdiskSize => { c with ramdiskSize := .ofInt value }
  | .bootsectKludge => { c with bootsectKludge := .ofInt value }
  | .heapEndPtr => { c with heapEndPtr := .ofInt value }
  | .extLoaderVer => { c with extLoaderVer := .ofInt value }
  | .extLoaderType => { c with extLoaderType := .ofInt value }
  | .cmdLinePtr => { c with cmdLinePtr := .ofInt value }

theorem field_assign_self (c : KernelSetupHdr) (key : SetupKey) (value : Nat) :
    (c.assign key value).field key = value % 256 ^ key.width := by
  cases key <;>
    simp only [assign, field, SetupKey.width, UInt8.ofInt, UInt16.ofInt, UInt32.ofInt,
      UInt8.toNat_ofNat', UInt16.toNat_ofNat', UInt32.toNat_ofNat'] <;>
    omega

theorem field_assign_of_ne (c : KernelSetupHdr) (key other : SetupKey) (value : Int)
    (h : other ≠ key) : (c.assign other value).field key = c.field key := by
  cases other <;> cases key <;> first | rfl | exact absurd rfl h

/-- The fields truncate what they are given to their width. -/
def fields : FieldStore SetupKey Nat Nat KernelSetupHdr where
  get := field
  set c key value := c.assign key value
  stored key value := value % 256 ^ key.width
  get_set_self := field_assign_self
  get_set_of_ne c key other value := field_assign_of_ne c key other value

theorem field_injective {c c' : KernelSetupHdr} (h : ∀ key, c.field key = c'.field key) :
    c = c' := by
  cases c with
  | mk typeOfLoader loadflags setupMoveSize code32Start ramdiskImage ramdiskSize bootsectKludge
      heapEndPtr extLoaderVer extLoaderType cmdLinePtr =>
    cases c'
    have htype := UInt8.toNat_inj.mp (h .typeOfLoader)
    have hflags := UInt8.toNat_inj.mp (h .loadflags)
    have hmove := UInt16.toNat_inj.mp (h .setupMoveSize)
    have hcode := UInt32.toNat_inj.mp (h .code32Start)
    have himage := UInt32.toNat_inj.mp (h .ramdiskImage)
    have hsize := UInt32.toNat_inj.mp (h .ramdiskSize)
    have hkludge := UInt32.toNat_inj.mp (h .bootsectKludge)
    have hheap := UInt16.toNat_inj.mp (h .heapEndPtr)
    have hver := UInt8.toNat_inj.mp (h .extLoaderVer)
    have hext := UInt8.toNat_inj.mp (h .extLoaderType)
    have hcmd := UInt32.toNat_inj.mp (h .cmdLinePtr)
    simp only at htype hflags hmove hcode himage hsize hkludge hheap hver hext hcmd
    subst htype hflags hmove hcode himage hsize hkludge hheap hver hext hcmd
    rfl

/-- The header has each field at its position, little-endian. -/
theorem ofLE_slice_bytes (c : KernelSetupHdr) (key : SetupKey) :
    ofLE (slice c.bytes key.position key.width) = c.field key := by
  have hword : ∀ x : UInt16, ofLE (toLE 2 x.toNat) = x.toNat := fun x =>
    ofLE_toLE_of_lt (Nat.lt_of_lt_of_eq x.toNat_lt (by decide))
  have hlong : ∀ x : UInt32, ofLE (toLE 4 x.toNat) = x.toNat := fun x =>
    ofLE_toLE_of_lt (Nat.lt_of_lt_of_eq x.toNat_lt (by decide))
  cases key with
  | typeOfLoader => rfl
  | loadflags => rfl
  | setupMoveSize => exact hword c.setupMoveSize
  | code32Start => exact hlong c.code32Start
  | ramdiskImage => exact hlong c.ramdiskImage
  | ramdiskSize => exact hlong c.ramdiskSize
  | bootsectKludge => exact hlong c.bootsectKludge
  | heapEndPtr => exact hword c.heapEndPtr
  | extLoaderVer => rfl
  | extLoaderType => rfl
  | cmdLinePtr => exact hlong c.cmdLinePtr

end KernelSetupHdr

/-! ### The names -/

theorem setVal_name (c : KernelSetupHdr) (key : SetupKey) (val : Bytes) :
    setVal c key.name val = some (c.assign key (strtolHex val)) := by
  cases key <;> simp [setVal, SetupKey.name, KernelSetupHdr.assign, ascii]

theorem setVal_eq_none {c : KernelSetupHdr} {var val : Bytes} :
    setVal c var val = none ↔ ∀ key : SetupKey, var ≠ key.name := by
  constructor
  · intro hnone key hname
    rw [hname, setVal_name] at hnone
    cases hnone
  · intro hunknown
    unfold setVal
    exact (if_neg (hunknown .typeOfLoader)).trans <| (if_neg (hunknown .loadflags)).trans <|
      (if_neg (hunknown .setupMoveSize)).trans <| (if_neg (hunknown .code32Start)).trans <|
      (if_neg (hunknown .ramdiskImage)).trans <| (if_neg (hunknown .ramdiskSize)).trans <|
      (if_neg (hunknown .bootsectKludge)).trans <| (if_neg (hunknown .heapEndPtr)).trans <|
      (if_neg (hunknown .extLoaderVer)).trans <| (if_neg (hunknown .extLoaderType)).trans <|
      if_neg (hunknown .cmdLinePtr)

/-! ## Assignments -/

theorem configured_field (assigned : List (SetupKey × Nat)) (key : SetupKey) :
    (KernelSetupHdr.fields.run {} assigned).field key =
      lastValue 0 key assigned % 256 ^ key.width := by
  have hstart : KernelSetupHdr.fields.get {} key = KernelSetupHdr.fields.stored key 0 := by
    cases key <;> rfl
  exact KernelSetupHdr.fields.get_run hstart assigned

theorem run_of_sameOrder {assigned assigned' : List (SetupKey × Nat)}
    (h : SameOrder assigned assigned') :
    KernelSetupHdr.fields.run {} assigned = KernelSetupHdr.fields.run {} assigned' := by
  apply KernelSetupHdr.field_injective
  intro key
  rw [configured_field, configured_field, h.lastValue_eq]

/-! ## The image -/

/-- Every field of the image has the last value given to its key, or zero, and the other bytes
are as they were. -/
structure Configured (assigned : List (SetupKey × Nat)) (image patched : Bytes) : Prop where
  length : patched.length = image.length
  frame : ∀ i, i < 0x210 ∨ 0x22C ≤ i → patched[i]? = image[i]?
  fields : ∀ key : SetupKey, ofLE (slice patched (0x210 + key.position) key.width) =
    lastValue 0 key assigned % 256 ^ key.width

theorem configured_prepare (assigned : List (SetupKey × Nat)) {image : Bytes}
    (h : 0x230 ≤ image.length) :
    ∃ patched, configPrepareKernelPecoff image (KernelSetupHdr.fields.run {} assigned)
        = some patched ∧
      configPrepareKernelPecoff patched (KernelSetupHdr.fields.run {} assigned) = some patched ∧
      Configured assigned image patched := by
  let c := KernelSetupHdr.fields.run {} assigned
  have hsize : sizeofKernelSetupHdr = 0x230 := rfl
  have hbytes : c.bytes.length = 28 := c.bytes_length
  have hroom : 0x210 + c.bytes.length ≤ image.length := by omega
  have hprepare : configPrepareKernelPecoff image c = some (overwrite image 0x210 c.bytes) :=
    if_neg (by omega)
  have hlength := overwrite_length hroom
  refine ⟨overwrite image 0x210 c.bytes, hprepare, ?_, hlength, ?_, ?_⟩
  · have hagain := overwrite_overwrite c.bytes (show 0x210 ≤ image.length by omega)
    have htwice : configPrepareKernelPecoff (overwrite image 0x210 c.bytes) c =
        some (overwrite (overwrite image 0x210 c.bytes) 0x210 c.bytes) := if_neg (by omega)
    rw [hagain] at htwice
    exact htwice
  · intro i hi
    exact getElem?_overwrite hroom (by omega)
  · intro key
    have hwidth := key.position_add_width_le
    rw [slice_overwrite (by omega) (by omega), c.ofLE_slice_bytes, configured_field]

end MeasuredBoot
