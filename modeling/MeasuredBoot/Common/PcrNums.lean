import MeasuredBoot.Common.Hash
import MeasuredBoot.Lib.CText

/-! # Lists of register numbers

The `--pcrs` option both PCR tools take, and how they print a register. The numbers
are read with `strtol` and cut to 32 bits, so any `uint32_t` can be in the list. An
argument list is far shorter than 2^32 bytes, so its length fits `uint32_t`.
-/

namespace MeasuredBoot

open Binary

/-! ## Reading them -/

def isSpace (b : UInt8) : Bool := b = 32 || 9 ≤ b && b ≤ 13

/-- The value of a digit in some base up to 36. -/
def digitValue (b : UInt8) : Option Nat :=
  if 48 ≤ b ∧ b ≤ 57 then some (b.toNat - 48)
  else if 65 ≤ b ∧ b ≤ 90 then some (b.toNat - 55)
  else if 97 ≤ b ∧ b ≤ 122 then some (b.toNat - 87)
  else none

/-- The number in front of the first byte that is no digit of the base. -/
def readDigits (base : Nat) : Nat → Bytes → Nat
  | value, [] => value
  | value, b :: rest =>
      match digitValue b with
      | none => value
      | some d => if d < base then readDigits base (base * value + d) rest else value

/-- The base `strtol` finds for base 0, and the text from the first digit on. -/
def strtolPrefix : Bytes → Nat × Bytes
  | 48 :: x :: d :: rest =>
      if (x = 120 ∨ x = 88) ∧ (digitValue d).any (· < 16) then (16, d :: rest)
      else (8, x :: d :: rest)
  | 48 :: rest => (8, rest)
  | text => (10, text)

/-- The sign, and the text behind it. -/
def strtolSign : Bytes → Bool × Bytes
  | 45 :: rest => (true, rest)
  | 43 :: rest => (false, rest)
  | text => (false, text)

/-- `strtol(text, NULL, 0)`, with the limits of a 64-bit `long`. -/
def strtol (text : Bytes) : Int :=
  let (negative, unsigned) := strtolSign ((cString text).dropWhile isSpace)
  let (base, digits) := strtolPrefix unsigned
  let value := readDigits base 0 digits
  if negative then max (-value) (-2 ^ 63) else min value (2 ^ 63 - 1)

/-- The numbers a `--pcrs` argument adds to the list. -/
def readPcrNums (arg : Bytes) : List UInt32 :=
  (strtokAll 44 (cString arg)).map fun pch => UInt32.ofInt (strtol pch)

example : readPcrNums (ascii "0,,0x17,-1") = [0, 23, 0xffffffff] := by decide +kernel

/-! ## Looking one up -/

def contains (pcrNums : List UInt32) (value : UInt32) : Bool := pcrNums.any (· = value)

theorem contains_iff {pcrNums : List UInt32} {value : UInt32} :
    contains pcrNums value = true ↔ value ∈ pcrNums := by simp [contains]

/-! ## Printing them -/

/-- `%d` of a `uint32_t`. -/
def printedNum (num : UInt32) : Bytes :=
  if num.toNat < 2 ^ 31 then decText num.toNat else ascii "-" ++ decText (2 ^ 32 - num.toNat)

def upperHexDigit (n : Nat) : UInt8 := UInt8.ofNat (if n < 10 then 48 + n else 55 + n)

/-- `print_data` without a label. -/
def printData (bytes : Bytes) : Bytes :=
  (bytes.flatMap fun b => [upperHexDigit (b.toNat / 16), upperHexDigit (b.toNat % 16)]) ++
    ascii "\n"

/-- A `PCR Summary` object, with the name its number is printed under. -/
def jsonSummary (key : Bytes) (num : UInt32) (value : Digest 32) : Bytes :=
  ascii "\x7b\n\t\"type\":\"TPM Reference Value\",\n\t\"subtype\":\"PCR Summary\",\n\t\"" ++ key ++
    ascii "\":" ++ printedNum num ++ ascii ",\n\t\"sha256\":\"" ++ hexText value.val ++
    ascii "\",\n\t\"description\":\"PCR" ++ printedNum num ++ ascii "\"\n\x7d"

def textSummary (num : UInt32) (value : Digest 32) : Bytes :=
  ascii "PCR" ++ printedNum num ++ ascii ": " ++ printData value.val

/-- The `TPM PCR Aggregate` object. -/
def jsonAggregate (aggregate : Digest 32) : Bytes :=
  ascii "\x7b\n\t\"type\":\"TPM PCR Aggregate\",\n\t\"sha256\":\"" ++ hexText aggregate.val ++
    ascii "\"\n\x7d\n"

def textAggregate (aggregate : Digest 32) : Bytes :=
  ascii "PCR Aggregate: " ++ printData aggregate.val

end MeasuredBoot
