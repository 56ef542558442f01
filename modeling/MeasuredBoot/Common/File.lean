import MeasuredBoot.Common.Hash
import MeasuredBoot.Lib.Proc

/-! # Files and the buffers read from them

The file functions of `common/common.c` and `hash_file` of `common/hash.c`. A
file argument carries its content and how each operation on it goes, so that the
functions below cover every combination of failures.
-/

namespace MeasuredBoot

open Binary Imperative

/-! ## Buffers -/

/-- The object a file is read into. Its size is an `off_t`. -/
structure Buffer where
  bytes : Bytes
  size_lt : bytes.length < 2 ^ 63

namespace Buffer

/-- The size the program carries next to the pointer. -/
def size (b : Buffer) : UInt64 := UInt64.ofNat b.bytes.length

@[simp] theorem size_toNat (b : Buffer) : b.size.toNat = b.bytes.length := by
  have := b.size_lt
  simp only [size, UInt64.toNat_ofNat']
  omega

end Buffer

/-- `memcpy` from `count` bytes at `off` of an object that has the given bytes. -/
def copyFrom (object : Bytes) (off count : Nat) : Except Stop Bytes :=
  if off + count ≤ object.length then .ok (slice object off count) else .error .fault

theorem copyFrom_ok {object : Bytes} {off count : Nat} (h : off + count ≤ object.length) :
    copyFrom object off count = .ok (slice object off count) := if_pos h

theorem copyFrom_fault {object : Bytes} {off count : Nat} (h : ¬off + count ≤ object.length) :
    copyFrom object off count = .error .fault := if_neg h

/-! ## Files -/

/-- What one read of an open file gives. -/
inductive ReadEvent where
  | data (bytes : Bytes)
  | error
  deriving DecidableEq

/-- The bytes a sequence of reads delivers in all. -/
def delivered : List ReadEvent → Bytes
  | [] => []
  | .data bytes :: rest => bytes ++ delivered rest
  | .error :: rest => delivered rest

/-- A named file: its content, whether `access`, the allocation of its size and
`fopen` succeed, and what the reads of the open file give until end of file. -/
structure File where
  path : Bytes
  content : Bytes
  accessible : Bool
  allocates : Bool
  opens : Bool
  reads : List ReadEvent
  size_lt : content.length < 2 ^ 63
  reads_prefix : delivered reads <+: content

/-- `fread`: reads until it has the bytes asked for, end of file or an error. -/
def fread : Nat → List ReadEvent → Bytes × List ReadEvent
  | _, [] => ([], [])
  | count, .error :: rest => if count = 0 then ([], .error :: rest) else ([], rest)
  | count, .data bytes :: rest =>
      if count ≤ bytes.length then (bytes.take count, .data (bytes.drop count) :: rest)
      else
        let more := fread (count - bytes.length) rest
        (bytes ++ more.1, more.2)

theorem fread_delivered (count : Nat) (reads : List ReadEvent) :
    (fread count reads).1 ++ delivered (fread count reads).2 = delivered reads := by
  induction reads generalizing count with
  | nil => rfl
  | cons event rest ih =>
      cases event with
      | error =>
          simp only [fread]
          split <;> rfl
      | data bytes =>
          simp only [fread]
          split
          · simp [delivered, ← List.append_assoc]
          · simp [delivered, ih]

/-- `read_file`: the buffer, or none where it returns `-1`. -/
def readFile (f : File) : Option Buffer :=
  if !f.accessible then none
  else if !f.allocates then none
  else if !f.opens then none
  else if (fread f.content.length f.reads).1.length ≠ f.content.length then none
  else some ⟨f.content, f.size_lt⟩

/-- The file is there and one `fread` of its size delivers all of it. -/
def File.Readable (f : File) : Prop :=
  f.accessible ∧ f.allocates ∧ f.opens ∧
    (fread f.content.length f.reads).1.length = f.content.length

instance (f : File) : Decidable f.Readable := by
  unfold File.Readable
  infer_instance

theorem readFile_eq_some {f : File} {b : Buffer} :
    readFile f = some b ↔ f.Readable ∧ b.bytes = f.content := by
  rcases b with ⟨bytes, hlt⟩
  unfold readFile File.Readable
  cases f.accessible <;> cases f.allocates <;> cases f.opens <;> simp
  exact fun _ => eq_comm

theorem readFile_eq_none {f : File} : readFile f = none ↔ ¬f.Readable := by
  unfold readFile File.Readable
  cases f.accessible <;> cases f.allocates <;> cases f.opens <;> simp

theorem readFile_of_readable {f : File} (h : f.Readable) :
    readFile f = some ⟨f.content, f.size_lt⟩ := readFile_eq_some.mpr ⟨h, rfl⟩

/-- A file every operation succeeds on, delivered in one piece. -/
def File.intact (path content : Bytes) (h : content.length < 2 ^ 63) : File where
  path := path
  content := content
  accessible := true
  allocates := true
  opens := true
  reads := [.data content]
  size_lt := h
  reads_prefix := by simp [delivered]

theorem File.intact_readable (path content : Bytes) (h : content.length < 2 ^ 63) :
    (File.intact path content h).Readable := by
  simp [File.Readable, File.intact, fread]

/-- A file to be written and whether `write_file` succeeds on it. -/
structure DumpFile where
  path : Bytes
  written : Bool

/-! ## Hashing a file in chunks -/

/-- The chunks of the loop of `hash_file`: one `fread` each until one gives nothing. -/
def freadChunks : Nat → List ReadEvent → List Bytes
  | 0, _ => []
  | fuel + 1, reads =>
      match fread 1024 reads with
      | ([], _) => []
      | (chunk, rest) => chunk :: freadChunks fuel rest

/-- Every round but the last consumes a byte, so this many rounds always suffice. -/
def File.chunks (f : File) : List Bytes :=
  freadChunks ((delivered f.reads).length + 1) f.reads

/-- `hash_file`: the digest, or none where it returns `-1`. A read error only ends
the loop. -/
def hashFile {n : Nat} (md : Md n) (f : File) : Option (Digest n) :=
  if !f.opens then none else some (md f.chunks.flatten)

/-- The file opens and the chunks read from it are all of it. -/
def File.Streams (f : File) : Prop := f.opens ∧ f.chunks.flatten = f.content

instance (f : File) : Decidable f.Streams := by
  unfold File.Streams
  infer_instance

theorem hashFile_of_streams {n : Nat} {md : Md n} {f : File} (h : f.Streams) :
    hashFile md f = some (md f.content) := by
  unfold hashFile
  rw [h.1, h.2]
  rfl

end MeasuredBoot
