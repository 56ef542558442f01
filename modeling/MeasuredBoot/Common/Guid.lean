import MeasuredBoot.Lib.Bytes

/-! # GUIDs in memory

`EFI_GUID` with its little-endian layout, as `memcmp` and `memcpy` see it.
-/

namespace MeasuredBoot

open Binary

structure EfiGuid where
  data1 : UInt32
  data2 : UInt16
  data3 : UInt16
  data4 : Bytes
  data4_length : data4.length = 8 := by rfl
  deriving DecidableEq

/-- The 16 bytes of the structure in memory. -/
def EfiGuid.bytes (g : EfiGuid) : Bytes :=
  toLE 4 g.data1.toNat ++ toLE 2 g.data2.toNat ++ toLE 2 g.data3.toNat ++ g.data4

@[simp] theorem EfiGuid.bytes_length (g : EfiGuid) : g.bytes.length = 16 := by
  simp [EfiGuid.bytes, g.data4_length]

end MeasuredBoot
