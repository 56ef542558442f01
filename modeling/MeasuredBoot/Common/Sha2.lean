import MeasuredBoot.Common.Hash

/-! # SHA-2

`EVP_sha256()` and `EVP_sha384()` for inputs shorter than 2^61 bytes, so that runs on
given inputs can be evaluated. Words are numbers below the word size.
-/

namespace MeasuredBoot

open Binary

namespace Sha2

/-- The eight working words. -/
structure Words where
  a : Nat
  b : Nat
  c : Nat
  d : Nat
  e : Nat
  f : Nat
  g : Nat
  h : Nat

/-- What the members of the family differ in. The last number of a schedule function is a
shift, all others are rotations. -/
structure Variant where
  wordBytes : Nat
  sum0 : Nat × Nat × Nat
  sum1 : Nat × Nat × Nat
  schedule0 : Nat × Nat × Nat
  schedule1 : Nat × Nat × Nat
  roundConstants : List Nat
  initial : Words

def toBE (width n : Nat) : Bytes := (toLE width n).reverse

/-- The first `count` big-endian words of a block. -/
def words (wordBytes : Nat) : Nat → Bytes → List Nat
  | 0, _ => []
  | count + 1, bytes =>
      ofLE (bytes.take wordBytes).reverse :: words wordBytes count (bytes.drop wordBytes)

def blocks (wordBytes : Nat) : Nat → Bytes → List (List Nat)
  | 0, _ => []
  | count + 1, bytes => words wordBytes 16 bytes :: blocks wordBytes count
      (bytes.drop (16 * wordBytes))

/-- The message, a one bit, zeros and the length in bits in two words. -/
def pad (wordBytes : Nat) (message : Bytes) : Bytes :=
  let blockSize := 16 * wordBytes
  message ++ [0x80] ++
    zeros ((2 * blockSize - 1 - 2 * wordBytes - message.length % blockSize) % blockSize) ++
    toBE (2 * wordBytes) (8 * message.length)

/-- The blocks of the padded message. -/
def messageBlocks (wordBytes : Nat) (message : Bytes) : List (List Nat) :=
  let padded := pad wordBytes message
  blocks wordBytes (padded.length / (16 * wordBytes)) padded

namespace Variant

variable (v : Variant)

def wordSize : Nat := 2 ^ (8 * v.wordBytes)

def rotr (n x : Nat) : Nat := (x >>> n) ||| ((x <<< (8 * v.wordBytes - n)) % v.wordSize)

def sum (n : Nat × Nat × Nat) (x : Nat) : Nat :=
  v.rotr n.1 x ^^^ v.rotr n.2.1 x ^^^ v.rotr n.2.2 x

def schedule (n : Nat × Nat × Nat) (x : Nat) : Nat :=
  v.rotr n.1 x ^^^ v.rotr n.2.1 x ^^^ (x >>> n.2.2)

/-- One round with the sum of its constant and its message word. -/
def round (s : Words) (input : Nat) : Words :=
  let ch := (s.e &&& s.f) ^^^ ((v.wordSize - 1 - s.e) &&& s.g)
  let maj := (s.a &&& s.b) ^^^ (s.a &&& s.c) ^^^ (s.b &&& s.c)
  let t1 := s.h + v.sum v.sum1 s.e + ch + input
  let t2 := v.sum v.sum0 s.a + maj
  ⟨(t1 + t2) % v.wordSize, s.a, s.b, s.c, (s.d + t1) % v.wordSize, s.e, s.f, s.g⟩

/-- The word of the message schedule behind the last sixteen. -/
def nextWord (w : List Nat) : Nat :=
  (w.getD 0 0 + v.schedule v.schedule0 (w.getD 1 0) + w.getD 9 0 +
    v.schedule v.schedule1 (w.getD 14 0)) % v.wordSize

/-- The rounds, with the sixteen words the schedule needs next. -/
def rounds : List Nat → List Nat → Words → Words
  | [], _, s => s
  | k :: ks, w, s => rounds ks (w.drop 1 ++ [v.nextWord w]) (v.round s (k + w.getD 0 0))

def compress (s : Words) (block : List Nat) : Words :=
  let t := v.rounds v.roundConstants block s
  ⟨(s.a + t.a) % v.wordSize, (s.b + t.b) % v.wordSize, (s.c + t.c) % v.wordSize,
    (s.d + t.d) % v.wordSize, (s.e + t.e) % v.wordSize, (s.f + t.f) % v.wordSize,
    (s.g + t.g) % v.wordSize, (s.h + t.h) % v.wordSize⟩

def hash (message : Bytes) : Words :=
  (messageBlocks v.wordBytes message).foldl v.compress v.initial

end Variant

end Sha2

namespace Sha256

open Sha2

def variant : Variant where
  wordBytes := 4
  sum0 := (2, 13, 22)
  sum1 := (6, 11, 25)
  schedule0 := (7, 18, 3)
  schedule1 := (17, 19, 10)
  roundConstants :=
  [0x428a2f98, 0x71374491, 0xb5c0fbcf, 0xe9b5dba5, 0x3956c25b, 0x59f111f1, 0x923f82a4, 0xab1c5ed5,
     0xd807aa98, 0x12835b01, 0x243185be, 0x550c7dc3, 0x72be5d74, 0x80deb1fe, 0x9bdc06a7, 0xc19bf174,
     0xe49b69c1, 0xefbe4786, 0x0fc19dc6, 0x240ca1cc, 0x2de92c6f, 0x4a7484aa, 0x5cb0a9dc, 0x76f988da,
     0x983e5152, 0xa831c66d, 0xb00327c8, 0xbf597fc7, 0xc6e00bf3, 0xd5a79147, 0x06ca6351, 0x14292967,
     0x27b70a85, 0x2e1b2138, 0x4d2c6dfc, 0x53380d13, 0x650a7354, 0x766a0abb, 0x81c2c92e, 0x92722c85,
     0xa2bfe8a1, 0xa81a664b, 0xc24b8b70, 0xc76c51a3, 0xd192e819, 0xd6990624, 0xf40e3585, 0x106aa070,
     0x19a4c116, 0x1e376c08, 0x2748774c, 0x34b0bcb5, 0x391c0cb3, 0x4ed8aa4a, 0x5b9cca4f, 0x682e6ff3,
     0x748f82ee, 0x78a5636f, 0x84c87814, 0x8cc70208, 0x90befffa, 0xa4506ceb, 0xbef9a3f7, 0xc67178f2]
  initial :=
    ⟨0x6a09e667, 0xbb67ae85, 0x3c6ef372, 0xa54ff53a, 0x510e527f, 0x9b05688c, 0x1f83d9ab, 0x5be0cd19⟩

/-- The digest of a message. -/
def sha256 : Md 32 := fun message =>
  let s := variant.hash message
  ⟨toBE 4 s.a ++ toBE 4 s.b ++ toBE 4 s.c ++ toBE 4 s.d ++ toBE 4 s.e ++ toBE 4 s.f ++ toBE 4 s.g
    ++ toBE 4 s.h, by simp [toBE]⟩

set_option maxRecDepth 20000 in
example : (variant.hash (ascii "abc")).a = 0xba7816bf ∧
    (variant.hash (ascii "abc")).h = 0xf20015ad := by decide +kernel

end Sha256

namespace Sha384

open Sha2

def variant : Variant where
  wordBytes := 8
  sum0 := (28, 34, 39)
  sum1 := (14, 18, 41)
  schedule0 := (1, 8, 7)
  schedule1 := (19, 61, 6)
  roundConstants :=
  [0x428a2f98d728ae22, 0x7137449123ef65cd, 0xb5c0fbcfec4d3b2f, 0xe9b5dba58189dbbc,
     0x3956c25bf348b538, 0x59f111f1b605d019, 0x923f82a4af194f9b, 0xab1c5ed5da6d8118,
     0xd807aa98a3030242, 0x12835b0145706fbe, 0x243185be4ee4b28c, 0x550c7dc3d5ffb4e2,
     0x72be5d74f27b896f, 0x80deb1fe3b1696b1, 0x9bdc06a725c71235, 0xc19bf174cf692694,
     0xe49b69c19ef14ad2, 0xefbe4786384f25e3, 0x0fc19dc68b8cd5b5, 0x240ca1cc77ac9c65,
     0x2de92c6f592b0275, 0x4a7484aa6ea6e483, 0x5cb0a9dcbd41fbd4, 0x76f988da831153b5,
     0x983e5152ee66dfab, 0xa831c66d2db43210, 0xb00327c898fb213f, 0xbf597fc7beef0ee4,
     0xc6e00bf33da88fc2, 0xd5a79147930aa725, 0x06ca6351e003826f, 0x142929670a0e6e70,
     0x27b70a8546d22ffc, 0x2e1b21385c26c926, 0x4d2c6dfc5ac42aed, 0x53380d139d95b3df,
     0x650a73548baf63de, 0x766a0abb3c77b2a8, 0x81c2c92e47edaee6, 0x92722c851482353b,
     0xa2bfe8a14cf10364, 0xa81a664bbc423001, 0xc24b8b70d0f89791, 0xc76c51a30654be30,
     0xd192e819d6ef5218, 0xd69906245565a910, 0xf40e35855771202a, 0x106aa07032bbd1b8,
     0x19a4c116b8d2d0c8, 0x1e376c085141ab53, 0x2748774cdf8eeb99, 0x34b0bcb5e19b48a8,
     0x391c0cb3c5c95a63, 0x4ed8aa4ae3418acb, 0x5b9cca4f7763e373, 0x682e6ff3d6b2b8a3,
     0x748f82ee5defb2fc, 0x78a5636f43172f60, 0x84c87814a1f0ab72, 0x8cc702081a6439ec,
     0x90befffa23631e28, 0xa4506cebde82bde9, 0xbef9a3f7b2c67915, 0xc67178f2e372532b,
     0xca273eceea26619c, 0xd186b8c721c0c207, 0xeada7dd6cde0eb1e, 0xf57d4f7fee6ed178,
     0x06f067aa72176fba, 0x0a637dc5a2c898a6, 0x113f9804bef90dae, 0x1b710b35131c471b,
     0x28db77f523047d84, 0x32caab7b40c72493, 0x3c9ebe0a15c9bebc, 0x431d67c49c100d4c,
     0x4cc5d4becb3e42b6, 0x597f299cfc657e2a, 0x5fcb6fab3ad6faec, 0x6c44198c4a475817]
  initial :=
    ⟨0xcbbb9d5dc1059ed8, 0x629a292a367cd507, 0x9159015a3070dd17, 0x152fecd8f70e5939,
      0x67332667ffc00b31, 0x8eb44a8768581511, 0xdb0c2e0d64f98fa7, 0x47b5481dbefa4fa4⟩

/-- The digest of a message: six of the eight words. -/
def sha384 : Md 48 := fun message =>
  let s := variant.hash message
  ⟨toBE 8 s.a ++ toBE 8 s.b ++ toBE 8 s.c ++ toBE 8 s.d ++ toBE 8 s.e ++ toBE 8 s.f,
    by simp [toBE]⟩

set_option maxRecDepth 20000 in
example : (variant.hash (ascii "abc")).a = 0xcb00753f45a35e8b ∧
    (variant.hash (ascii "abc")).f = 0x58baeca134c825a7 := by decide +kernel

end Sha384

end MeasuredBoot
