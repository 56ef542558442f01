import MeasuredBoot.Lib.Bytes
import MeasuredBoot.Lib.HashChain

/-! # Digests and measurement registers

The functions of `common/hash.c` over an arbitrary message digest. A digest
carries its length, so a register always has the size its algorithm writes.
-/

namespace MeasuredBoot

open Binary

/-- A digest of `n` bytes. -/
abbrev Digest (n : Nat) := { bytes : Bytes // bytes.length = n }

/-- A message digest algorithm (`EVP_MD`) with `n`-byte digests. -/
abbrev Md (n : Nat) := Bytes → Digest n

variable {n : Nat}

/-- A digest whose bytes are all zero, as after `memset`. -/
def zeroDigest (n : Nat) : Digest n := ⟨zeros n, zeros_length n⟩

/-- `hash_buf`: one update with the whole buffer. -/
def hashBuf (md : Md n) (data : Bytes) : Digest n := md data

/-- `hash_extend` called with the digest length: old value, then new digest. -/
def hashExtend (md : Md n) (pcrValue pcrExtend : Digest n) : Digest n :=
  md (pcrValue.val ++ pcrExtend.val)

/-- The string `hash_extend` hashes. -/
def extendBlock (pcrValue pcrExtend : Digest n) : Bytes := pcrValue.val ++ pcrExtend.val

/-- The register after extending the digests in order, from `start`. -/
def replayFrom (md : Md n) (start : Digest n) (digests : List (Digest n)) : Digest n :=
  HashChain.value md extendBlock start digests

/-- The register after extending the digests in order, from all zero bytes. -/
def replay (md : Md n) (digests : List (Digest n)) : Digest n :=
  replayFrom md (zeroDigest n) digests

@[simp] theorem replay_nil (md : Md n) : replay md [] = zeroDigest n := rfl

theorem replayFrom_concat (md : Md n) (start : Digest n) (digests : List (Digest n))
    (d : Digest n) :
    replayFrom md start (digests ++ [d]) = hashExtend md (replayFrom md start digests) d :=
  HashChain.value_concat ..

theorem replayFrom_append (md : Md n) (start : Digest n) (xs ys : List (Digest n)) :
    replayFrom md start (xs ++ ys) = replayFrom md (replayFrom md start xs) ys :=
  HashChain.value_append ..

theorem replay_concat (md : Md n) (digests : List (Digest n)) (d : Digest n) :
    replay md (digests ++ [d]) = hashExtend md (replay md digests) d :=
  replayFrom_concat ..

theorem extendBlock_inj {v v' d d' : Digest n} (h : extendBlock v d = extendBlock v' d') :
    v = v' ∧ d = d' := by
  have hlen : v.val.length = v'.val.length := v.property.trans v'.property.symm
  exact ⟨Subtype.ext (List.append_inj_left h hlen), Subtype.ext (List.append_inj_right h hlen)⟩

def sha256Extend (sha256 : Md 32) (pcrValue pcrExtend : Digest 32) : Digest 32 :=
  hashExtend sha256 pcrValue pcrExtend

def sha384Extend (sha384 : Md 48) (pcrValue pcrExtend : Digest 48) : Digest 48 :=
  hashExtend sha384 pcrValue pcrExtend

/-! ## Registers bind their events -/

/-- The strings hashed while the digests are extended from all zero bytes. -/
def hashedStrings (md : Md n) (digests : List (Digest n)) : List Bytes :=
  HashChain.hashed md extendBlock (zeroDigest n) digests

/-- Two strings hashed for the one and the other sequence collide, or some string
hashes to all zero bytes. -/
def HashBreaks (md : Md n) (xs ys : List (Digest n)) : Prop :=
  HashChain.Collides md (hashedStrings md xs) (hashedStrings md ys) ∨
    HashChain.Hits md (zeroDigest n) (hashedStrings md xs ++ hashedStrings md ys)

theorem replay_binding {md : Md n} {xs ys : List (Digest n)} (h : replay md xs = replay md ys) :
    xs = ys ∨ HashBreaks md xs ys :=
  HashChain.binding (I := fun _ => True) (P := fun _ => True) trivial (fun _ => trivial)
    (fun _ _ _ _ _ _ _ _ hblock => extendBlock_inj hblock) (fun _ _ => trivial)
    (fun _ _ => trivial) h

/-- Sequences extended to the same register are equal, or the hash breaks. -/
def BindsEvents (md : Md n) (extend : Digest n → Digest n → Digest n) : Prop :=
  ∀ xs ys : List (Digest n), xs.foldl extend (zeroDigest n) = ys.foldl extend (zeroDigest n) →
    xs = ys ∨ HashBreaks md xs ys

/-- Both registers bind the events extended into them, whatever their number. -/
theorem extend_bindsEvents (sha256 : Md 32) (sha384 : Md 48) :
    BindsEvents sha256 (sha256Extend sha256) ∧ BindsEvents sha384 (sha384Extend sha384) :=
  ⟨fun _ _ h => replay_binding h, fun _ _ h => replay_binding h⟩

end MeasuredBoot
