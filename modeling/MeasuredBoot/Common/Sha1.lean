import MeasuredBoot.Common.Sha2

/-! # SHA-1

`EVP_sha1()`, with the words, the padding and the blocks of SHA-256.
-/

namespace MeasuredBoot.Sha1

open Binary Sha2

def wordSize : Nat := 2 ^ 32

def rotl (n x : Nat) : Nat := ((x <<< n) % wordSize) ||| (x >>> (32 - n))

/-- The five working words. -/
structure Words where
  a : Nat
  b : Nat
  c : Nat
  d : Nat
  e : Nat

def initial : Words := ⟨0x67452301, 0xefcdab89, 0x98badcfe, 0x10325476, 0xc3d2e1f0⟩

/-- The function and the constant of a round, which change every twenty rounds. -/
def mix (s : Words) (i : Nat) : Nat :=
  if i < 20 then ((s.b &&& s.c) ||| ((wordSize - 1 - s.b) &&& s.d)) + 0x5a827999
  else if i < 40 then (s.b ^^^ s.c ^^^ s.d) + 0x6ed9eba1
  else if i < 60 then ((s.b &&& s.c) ||| (s.b &&& s.d) ||| (s.c &&& s.d)) + 0x8f1bbcdc
  else (s.b ^^^ s.c ^^^ s.d) + 0xca62c1d6

def round (s : Words) (i input : Nat) : Words :=
  ⟨(rotl 5 s.a + mix s i + s.e + input) % wordSize, s.a, rotl 30 s.b, s.c, s.d⟩

/-- The word of the message schedule behind the last sixteen. -/
def nextWord (w : List Nat) : Nat :=
  rotl 1 (w.getD 13 0 ^^^ w.getD 8 0 ^^^ w.getD 2 0 ^^^ w.getD 0 0)

/-- The rounds, with the sixteen words the schedule needs next. -/
def rounds : List Nat → List Nat → Words → Words
  | [], _, s => s
  | i :: is, w, s => rounds is (w.drop 1 ++ [nextWord w]) (round s i (w.getD 0 0))

def compress (s : Words) (block : List Nat) : Words :=
  let t := rounds (List.range 80) block s
  ⟨(s.a + t.a) % wordSize, (s.b + t.b) % wordSize, (s.c + t.c) % wordSize, (s.d + t.d) % wordSize,
    (s.e + t.e) % wordSize⟩

def hash (message : Bytes) : Words :=
  (messageBlocks 4 message).foldl compress initial

/-- The digest of a message. -/
def sha1 : Md 20 := fun message =>
  let s := hash message
  ⟨toBE 4 s.a ++ toBE 4 s.b ++ toBE 4 s.c ++ toBE 4 s.d ++ toBE 4 s.e, by simp [toBE]⟩

set_option maxRecDepth 20000 in
example : (hash (ascii "abc")).a = 0xa9993e36 ∧ (hash (ascii "abc")).e = 0x9cd0d89d := by
  decide +kernel

end MeasuredBoot.Sha1
