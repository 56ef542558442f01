import Mathlib.Data.List.Basic
import Mathlib.Data.List.TakeDrop
import Mathlib.Tactic.Linarith

/-! # Byte strings, little-endian numbers and in-place buffers

Fixed-width little-endian codecs, slices of a byte string and the overwrite of a
buffer at an offset, with the length and round-trip facts the layouts built on
them need.
-/

namespace Binary

abbrev Bytes := List UInt8

/-- The bytes of an ASCII text. -/
def ascii (text : String) : Bytes :=
  text.toList.map fun c => UInt8.ofNat c.toNat

/-- `n` zero bytes. -/
def zeros (n : Nat) : Bytes := List.replicate n 0

@[simp] theorem zeros_length (n : Nat) : (zeros n).length = n := by simp [zeros]

/-! ## Little-endian numbers -/

/-- The number a little-endian byte string denotes. -/
def ofLE : Bytes → Nat
  | [] => 0
  | b :: rest => b.toNat + 256 * ofLE rest

/-- The low `width` bytes of a number, least significant first. -/
def toLE : Nat → Nat → Bytes
  | 0, _ => []
  | width + 1, n => UInt8.ofNat n :: toLE width (n / 256)

@[simp] theorem toLE_length (width n : Nat) : (toLE width n).length = width := by
  induction width generalizing n with
  | zero => rfl
  | succ width ih => simp [toLE, ih]

theorem ofLE_lt (bytes : Bytes) : ofLE bytes < 256 ^ bytes.length := by
  induction bytes with
  | nil => simp [ofLE]
  | cons b rest ih =>
      have hb : b.toNat < 256 := b.toNat_lt
      have hpow : 256 ^ (rest.length + 1) = 256 * 256 ^ rest.length := by
        rw [Nat.pow_succ, Nat.mul_comm]
      simp only [ofLE, List.length_cons, hpow]
      omega

theorem ofLE_toLE (width n : Nat) : ofLE (toLE width n) = n % 256 ^ width := by
  induction width generalizing n with
  | zero => simp [toLE, ofLE, Nat.mod_one]
  | succ width ih =>
      have hpow : 256 ^ (width + 1) = 256 * 256 ^ width := by
        rw [Nat.pow_succ, Nat.mul_comm]
      have hbyte : (UInt8.ofNat n).toNat = n % 256 := by simp
      simp only [toLE, ofLE, ih, hbyte, hpow]
      rw [Nat.mod_mul]

theorem ofLE_toLE_of_lt {width n : Nat} (h : n < 256 ^ width) : ofLE (toLE width n) = n := by
  rw [ofLE_toLE, Nat.mod_eq_of_lt h]

/-- Two numbers that fit the width and have the same bytes are equal. -/
theorem toLE_inj {width m n : Nat} (hm : m < 256 ^ width) (hn : n < 256 ^ width)
    (h : toLE width m = toLE width n) : m = n := by
  rw [← ofLE_toLE_of_lt hm, ← ofLE_toLE_of_lt hn, h]

theorem toLE_uint64_inj {a b : UInt64} (h : toLE 8 a.toNat = toLE 8 b.toNat) : a = b :=
  UInt64.toNat_inj.mp (toLE_inj a.toNat_lt b.toNat_lt h)

/-! ## Slices -/

section Slice

variable {α : Type*}

/-- The `count` elements from position `off` on. -/
def slice (xs : List α) (off count : Nat) : List α := (xs.drop off).take count

theorem slice_length {xs : List α} {off count : Nat} (h : off + count ≤ xs.length) :
    (slice xs off count).length = count := by
  simp only [slice, List.length_take, List.length_drop]
  omega

/-- A slice that starts where the first of two strings ends reads the second. -/
theorem slice_append_right (xs ys : List α) (off count : Nat) :
    slice (xs ++ ys) (xs.length + off) count = slice ys off count := by
  simp only [slice]
  rw [← List.drop_drop, List.drop_left]

theorem slice_append_left {xs : List α} (ys : List α) {off count : Nat}
    (h : off + count ≤ xs.length) : slice (xs ++ ys) off count = slice xs off count := by
  simp only [slice]
  rw [List.drop_append_of_le_length (by omega), List.take_append_of_le_length]
  simp only [List.length_drop]
  omega

theorem slice_zero_length (xs : List α) : slice xs 0 xs.length = xs := by
  simp [slice]

/-- The part between a prefix and a suffix. -/
theorem slice_middle {pre mid post : List α} {off count : Nat} (hoff : off = pre.length)
    (hcount : count = mid.length) : slice (pre ++ mid ++ post) off count = mid := by
  subst hoff hcount
  simp [slice]

theorem slice_slice (xs : List α) (off m i n : Nat) (h : i + n ≤ m) :
    slice (slice xs off m) i n = slice xs (off + i) n := by
  simp only [slice, List.drop_take, List.drop_drop, List.take_take]
  congr 1
  omega

/-- Lists made of whole blocks are equal when their blocks are. -/
theorem eq_of_slices {xs ys : List α} {width n : Nat} (hwidth : 0 < width)
    (hxs : xs.length = width * n) (hys : ys.length = width * n)
    (h : ∀ i < n, slice xs (width * i) width = slice ys (width * i) width) : xs = ys := by
  have hget : ∀ zs : List α, ∀ k, zs[k]? = (slice zs (width * (k / width)) width)[k % width]? := by
    intro zs k
    rw [slice, List.getElem?_take_of_lt (Nat.mod_lt k hwidth), List.getElem?_drop,
      Nat.div_add_mod]
  refine List.ext_getElem? fun k => ?_
  by_cases hk : k < width * n
  · have hblock : k / width < n := Nat.div_lt_of_lt_mul hk
    rw [hget xs k, hget ys k, h _ hblock]
  · rw [List.getElem?_eq_none (by omega), List.getElem?_eq_none (by omega)]

end Slice

/-! ## Overwriting a buffer -/

/-- `memcpy` of `data` into a buffer at `off`. -/
def overwrite (buf : Bytes) (off : Nat) (data : Bytes) : Bytes :=
  buf.take off ++ data ++ buf.drop (off + data.length)

theorem overwrite_length {buf data : Bytes} {off : Nat} (h : off + data.length ≤ buf.length) :
    (overwrite buf off data).length = buf.length := by
  simp only [overwrite, List.length_append, List.length_take, List.length_drop]
  omega

/-- A write between a prefix and a suffix replaces what stands there. -/
theorem overwrite_middle {pre old post data : Bytes} {off : Nat} (hoff : off = pre.length)
    (hlen : old.length = data.length) :
    overwrite (pre ++ old ++ post) off data = pre ++ data ++ post := by
  subst hoff
  simp [overwrite, ← hlen, List.drop_append]

/-- A write leaves the bytes before and behind it. -/
theorem getElem?_overwrite {buf data : Bytes} {off i : Nat} (h : off + data.length ≤ buf.length)
    (hi : i < off ∨ off + data.length ≤ i) : (overwrite buf off data)[i]? = buf[i]? := by
  have htake : (buf.take off).length = off := by
    rw [List.length_take]
    omega
  rcases hi with hbefore | hbehind
  · rw [overwrite, List.append_assoc, List.getElem?_append_left (by omega),
      List.getElem?_take_of_lt hbefore]
  · rw [overwrite, List.getElem?_append_right (by simp only [List.length_append]; omega),
      List.getElem?_drop, List.length_append, htake]
    congr 1
    omega

/-- What was written is read back. -/
theorem slice_overwrite {buf data : Bytes} {off i count : Nat} (h : off ≤ buf.length)
    (hcount : i + count ≤ data.length) :
    slice (overwrite buf off data) (off + i) count = slice data i count := by
  have htake : (buf.take off).length = off := by
    rw [List.length_take]
    omega
  have hskip := slice_append_right (buf.take off) (data ++ buf.drop (off + data.length)) i count
  rw [htake] at hskip
  rw [overwrite, List.append_assoc, hskip, slice_append_left _ hcount]

/-- Writing the same bytes again changes nothing. -/
theorem overwrite_overwrite {buf : Bytes} {off : Nat} (data : Bytes) (h : off ≤ buf.length) :
    overwrite (overwrite buf off data) off data = overwrite buf off data := by
  have htake : off = (buf.take off).length := by
    rw [List.length_take]
    omega
  conv_lhs => rw [overwrite.eq_def buf off data, overwrite_middle htake rfl]
  rfl

end Binary
