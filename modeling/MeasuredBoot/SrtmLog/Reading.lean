import MeasuredBoot.SrtmLog.RoundTrip

/-! # Reading the event log

`read_file_chunk` and the loop of `tpm_parse_eventlog`. A read of the log gives some bytes,
is interrupted by a signal or fails; behind the last one is end of file. A chunk that stays
short for a failure looks like the last one.
-/

namespace MeasuredBoot.SrtmLog

open Binary Imperative Imperative.Proc

/-! ## The open file -/

/-- What one read of the log gives. -/
inductive LogRead where
  | data (bytes : Bytes)
  | interrupted
  | failed

/-- How an `fread` ends: with all bytes, at end of file, or with a read that set `errno`. -/
inductive FreadEnd where
  | full
  | eof
  | interrupted
  | failed
  deriving DecidableEq

/-- The bytes of one `fread`, how it ended and the reads still to come. -/
def freadLog : Nat → List LogRead → Bytes × FreadEnd × List LogRead
  | 0, reads => ([], .full, reads)
  | _ + 1, [] => ([], .eof, [])
  | _ + 1, .interrupted :: rest => ([], .interrupted, rest)
  | _ + 1, .failed :: rest => ([], .failed, rest)
  | count + 1, .data bytes :: rest =>
      if count + 1 ≤ bytes.length then
        (bytes.take (count + 1), .full, .data (bytes.drop (count + 1)) :: rest)
      else
        let more := freadLog (count + 1 - bytes.length) rest
        (bytes ++ more.1, more.2)

/-- All bytes the reads give. -/
def contentOf : List LogRead → Bytes
  | [] => []
  | .data bytes :: rest => bytes ++ contentOf rest
  | .interrupted :: rest => contentOf rest
  | .failed :: rest => contentOf rest

/-- The bytes in front of the first read that fails. -/
def arrived : List LogRead → Bytes
  | [] => []
  | .data bytes :: rest => bytes ++ arrived rest
  | .interrupted :: rest => arrived rest
  | .failed :: _ => []

theorem arrived_isPrefix (reads : List LogRead) : arrived reads <+: contentOf reads := by
  induction reads with
  | nil => exact List.prefix_rfl
  | cons read rest ih =>
      cases read with
      | data bytes => exact (List.prefix_append_right_inj bytes).mpr ih
      | interrupted => exact ih
      | failed => exact List.nil_prefix

/-- What an `fread` of `count` bytes takes from the reads. -/
structure FreadSpec (count : Nat) (reads : List LogRead) (got : Bytes) (ended : FreadEnd)
    (rest : List LogRead) : Prop where
  full : ended = .full → got.length = count
  short : ended ≠ .full → got.length < count
  goesOn : ended = .full ∨ ended = .interrupted → arrived reads = got ++ arrived rest
  exhausted : ended = .eof ∨ ended = .failed → arrived reads = got
  progress : ended = .interrupted → rest.length < reads.length

theorem freadLog_spec (count : Nat) (reads : List LogRead) :
    FreadSpec count reads (freadLog count reads).1 (freadLog count reads).2.1
      (freadLog count reads).2.2 := by
  induction reads generalizing count with
  | nil =>
      cases count with
      | zero => constructor <;> simp [freadLog, arrived]
      | succ count => constructor <;> simp [freadLog, arrived]
  | cons read rest ih =>
      cases count with
      | zero => constructor <;> simp [freadLog]
      | succ count =>
          cases read with
          | interrupted => constructor <;> simp [freadLog, arrived]
          | failed => constructor <;> simp [freadLog, arrived]
          | data bytes =>
              by_cases hfits : count + 1 ≤ bytes.length
              · simp only [freadLog, if_pos hfits]
                constructor
                · intro _
                  rw [List.length_take]
                  omega
                · exact fun hne => absurd rfl hne
                · intro _
                  simp only [arrived]
                  rw [← List.append_assoc, List.take_append_drop]
                · exact fun hend => absurd hend (by decide)
                · exact fun hend => absurd hend (by decide)
              · have hmore := ih (count + 1 - bytes.length)
                simp only [freadLog, if_neg hfits]
                constructor
                · intro hend
                  have hlength := hmore.full hend
                  rw [List.length_append]
                  omega
                · intro hend
                  have hlength := hmore.short hend
                  rw [List.length_append]
                  omega
                · intro hend
                  rw [arrived, hmore.goesOn hend, List.append_assoc]
                · intro hend
                  rw [arrived, hmore.exhausted hend]
                · intro hend
                  have hlength := hmore.progress hend
                  rw [List.length_cons]
                  omega

/-! ## A chunk -/

/-- A write of `data` at `off` of an object. -/
def storeAt (object : Bytes) (off : Nat) (data : Bytes) : Except Stop Bytes :=
  if off + data.length ≤ object.length then .ok (overwrite object off data) else .error .fault

/-- What `read_file_chunk` leaves: the object it read into, the bytes it counted and the
reads still to come. -/
structure ChunkRead where
  object : Bytes
  length : Nat
  rest : List LogRead

/-- The loop of `read_file_chunk` at `&object[off]`. A short `fread` is repeated where it
was interrupted; at end of file `errno` is not looked at. -/
def chunkLoop (off len : Nat) : Nat → Bytes → Nat → List LogRead → Except Stop ChunkRead
  | 0, _, _, _ => .error .diverge
  | fuel + 1, object, chunkLen, reads => do
      let (got, ended, rest) := freadLog (len - chunkLen) reads
      let object ← storeAt object (off + chunkLen) got
      let chunkLen := chunkLen + got.length
      if chunkLen < len ∧ ended = .interrupted then chunkLoop off len fuel object chunkLen rest
      else return ⟨object, chunkLen, rest⟩

/-- Each repetition takes an interruption from the reads. -/
def readFileChunk (object : Bytes) (off len : Nat) (reads : List LogRead) :
    Except Stop ChunkRead :=
  chunkLoop off len (reads.length + 1) object 0 reads

theorem storeAt_append (pre : Bytes) {old data : Bytes} (h : data.length ≤ old.length) :
    storeAt (pre ++ old) pre.length data = .ok (pre ++ data ++ old.drop data.length) := by
  have hroom : pre.length + data.length ≤ (pre ++ old).length := by
    rw [List.length_append]
    omega
  rw [storeAt, if_pos hroom, overwrite, List.take_left, ← List.drop_drop, List.drop_left]

theorem chunkLoop_round {off len fuel chunkLen : Nat} {pre old got : Bytes} {ended : FreadEnd}
    {reads rest : List LogRead} (hpre : pre.length = off + chunkLen)
    (hfread : freadLog (len - chunkLen) reads = (got, ended, rest))
    (hgot : got.length ≤ old.length) :
    chunkLoop off len (fuel + 1) (pre ++ old) chunkLen reads =
      if chunkLen + got.length < len ∧ ended = .interrupted then
        chunkLoop off len fuel (pre ++ got ++ old.drop got.length) (chunkLen + got.length) rest
      else .ok ⟨pre ++ got ++ old.drop got.length, chunkLen + got.length, rest⟩ := by
  rw [chunkLoop, hfread, ← hpre]
  dsimp only
  rw [storeAt_append pre hgot]
  rfl

/-- The chunk is filled with what arrives, as far as it comes. -/
theorem chunkLoop_spec {off len fuel chunkLen : Nat} {pre old : Bytes} {reads : List LogRead}
    (hpre : pre.length = off + chunkLen) (hroom : len - chunkLen ≤ old.length)
    (hchunk : chunkLen ≤ len) (hfuel : reads.length < fuel) :
    ∃ chunk rest, chunk = (arrived reads).take (len - chunkLen) ∧
      chunkLoop off len fuel (pre ++ old) chunkLen reads =
        .ok ⟨pre ++ chunk ++ old.drop chunk.length, chunkLen + chunk.length, rest⟩ ∧
      (chunk.length = len - chunkLen → arrived reads = chunk ++ arrived rest) := by
  induction fuel generalizing chunkLen pre old reads with
  | zero => omega
  | succ fuel ih =>
      rcases hfread : freadLog (len - chunkLen) reads with ⟨got, ended, rest⟩
      have hspec : FreadSpec (len - chunkLen) reads got ended rest := by
        have hall := freadLog_spec (len - chunkLen) reads
        rw [hfread] at hall
        exact hall
      have hgot : got.length ≤ len - chunkLen := by
        by_cases hfull : ended = .full
        · exact Nat.le_of_eq (hspec.full hfull)
        · exact Nat.le_of_lt (hspec.short hfull)
      rw [chunkLoop_round hpre hfread (Nat.le_trans hgot hroom)]
      by_cases hagain : chunkLen + got.length < len ∧ ended = .interrupted
      · have harrived := hspec.goesOn (Or.inr hagain.2)
        have hshort := hspec.progress hagain.2
        have hnext : (pre ++ got).length = off + (chunkLen + got.length) := by
          rw [List.length_append]
          omega
        have hleft : len - (chunkLen + got.length) ≤ (old.drop got.length).length := by
          rw [List.length_drop]
          omega
        obtain ⟨chunk, last, hchunk', hloop, hlast⟩ := ih hnext hleft (by omega)
          (show rest.length < fuel from by omega)
        refine ⟨got ++ chunk, last, ?_, ?_, ?_⟩
        · rw [harrived, hchunk', List.take_append, List.take_of_length_le hgot, Nat.sub_add_eq]
        · rw [if_pos hagain, hloop]
          simp only [List.append_assoc, List.drop_drop, List.length_append, Nat.add_assoc]
        · intro hfull
          rw [List.length_append] at hfull
          rw [harrived, hlast (by omega), List.append_assoc]
      · rw [if_neg hagain]
        by_cases hfull : ended = .full
        · have harrived := hspec.goesOn (Or.inl hfull)
          refine ⟨got, rest, ?_, rfl, fun _ => harrived⟩
          rw [harrived, ← hspec.full hfull, List.take_left]
        · have hlength := hspec.short hfull
          have hover : ended = .eof ∨ ended = .failed := by
            cases ended with
            | full => exact absurd rfl hfull
            | eof => exact Or.inl rfl
            | interrupted => exact absurd ⟨by omega, rfl⟩ hagain
            | failed => exact Or.inr rfl
          have harrived := hspec.exhausted hover
          refine ⟨got, rest, ?_, rfl, fun heq => by omega⟩
          rw [harrived, List.take_of_length_le hgot]

/-! ## The whole log -/

/-- A chunk of fresh memory. -/
abbrev Chunk : Type := { bytes : Bytes // bytes.length = chunkSize }

/-- What `calloc` gives. -/
def zeroChunk : Chunk := ⟨zeros chunkSize, zeros_length chunkSize⟩

/-- The loop of `tpm_parse_eventlog`. `heap` is what `realloc` puts behind an object of a
size. -/
def readLoop (heap : Nat → Chunk) : Nat → Bytes → Nat → List LogRead →
    Except Stop (Bytes × Nat)
  | 0, _, _, _ => .error .diverge
  | fuel + 1, eventbuf, size, reads => do
      let chunk ← readFileChunk eventbuf size chunkSize reads
      let size := size + chunk.length
      if chunk.length = chunkSize then
        readLoop heap fuel (chunk.object ++ (heap size).val) size chunk.rest
      else return (chunk.object, size)

/-- `eventbuf` and `size` behind the loop. Each round but the last takes a chunk. -/
def readEventlog (heap : Nat → Chunk) (reads : List LogRead) : Except Stop (Bytes × Nat) :=
  readLoop heap ((contentOf reads).length + 1) zeroChunk.val 0 reads

theorem readFileChunk_spec {pre old : Bytes} {reads : List LogRead}
    (hold : old.length = chunkSize) :
    ∃ chunk rest, chunk = (arrived reads).take chunkSize ∧
      readFileChunk (pre ++ old) pre.length chunkSize reads =
        .ok ⟨pre ++ chunk ++ old.drop chunk.length, chunk.length, rest⟩ ∧
      (chunk.length = chunkSize → arrived reads = chunk ++ arrived rest) := by
  obtain ⟨chunk, rest, hchunk, hloop, hrest⟩ := @chunkLoop_spec pre.length chunkSize
    (reads.length + 1) 0 pre old reads rfl (Nat.le_of_eq hold.symm) (Nat.zero_le _)
    (Nat.lt_succ_self _)
  rw [Nat.zero_add] at hloop
  exact ⟨chunk, rest, hchunk, hloop, hrest⟩

theorem readLoop_round (heap : Nat → Chunk) {fuel : Nat} {pre old chunk : Bytes}
    {reads rest : List LogRead}
    (h : readFileChunk (pre ++ old) pre.length chunkSize reads =
      .ok ⟨pre ++ chunk ++ old.drop chunk.length, chunk.length, rest⟩) :
    readLoop heap (fuel + 1) (pre ++ old) pre.length reads =
      if chunk.length = chunkSize then
        readLoop heap fuel (pre ++ chunk ++ old.drop chunk.length ++
          (heap (pre.length + chunk.length)).val) (pre.length + chunk.length) rest
      else .ok (pre ++ chunk ++ old.drop chunk.length, pre.length + chunk.length) := by
  rw [readLoop, h]
  rfl

/-- Behind `pre`, the loop leaves what arrives and the rest of the last chunk. -/
theorem readLoop_spec (heap : Nat → Chunk) {fuel : Nat} {pre : Bytes} (old : Chunk)
    {reads : List LogRead} (hfuel : (arrived reads).length < fuel) :
    ∃ slack, readLoop heap fuel (pre ++ old.val) pre.length reads =
        .ok (pre ++ arrived reads ++ slack, (pre ++ arrived reads).length) ∧
      slack.length = chunkSize - (arrived reads).length % chunkSize ∧
      ((arrived reads).length < chunkSize → slack = old.val.drop (arrived reads).length) := by
  induction fuel generalizing pre old reads with
  | zero => omega
  | succ fuel ih =>
      obtain ⟨chunk, rest, hchunk, hread, hrest⟩ := @readFileChunk_spec pre old.val reads
        old.property
      have hpos : 0 < chunkSize := by decide
      rw [readLoop_round heap hread]
      by_cases hfull : chunk.length = chunkSize
      · have harrived := hrest hfull
        have hlength : (arrived reads).length = chunkSize + (arrived rest).length := by
          rw [harrived, List.length_append, hfull]
        have hnil : old.val.drop chunk.length = [] :=
          List.drop_of_length_le (by rw [old.property, hfull])
        have hfront : pre.length + chunk.length = (pre ++ chunk).length := List.length_append.symm
        obtain ⟨slack, hloop, hslack, -⟩ := @ih (pre ++ chunk) (heap (pre ++ chunk).length) rest
          (by omega)
        refine ⟨slack, ?_, ?_, fun hshort => absurd hshort (by omega)⟩
        · rw [if_pos hfull, hnil, List.append_nil, hfront, hloop, harrived, List.append_assoc pre]
        · rw [hslack, hlength, Nat.add_mod_left]
      · have hshort : (arrived reads).length < chunkSize := by
          rw [hchunk, List.length_take] at hfull
          omega
        have hall : chunk = arrived reads := by
          rw [hchunk, List.take_of_length_le (Nat.le_of_lt hshort)]
        refine ⟨old.val.drop (arrived reads).length, ?_, ?_, fun _ => rfl⟩
        · rw [if_neg hfull, hall, List.length_append]
        · rw [List.length_drop, old.property, Nat.mod_eq_of_lt hshort]

/-- Whatever the stream gives, reading it ends, stays in the buffer and leaves the bytes
in front of the first read that fails, with the size of the rest of the last chunk. -/
theorem readEventlog_eq (heap : Nat → Chunk) (reads : List LogRead) :
    ∃ b : EventBuf, b.log = arrived reads ∧
      readEventlog heap reads = .ok (b.memory, b.log.length) := by
  have hfuel : (arrived reads).length < (contentOf reads).length + 1 :=
    Nat.lt_succ_of_le (arrived_isPrefix reads).length_le
  obtain ⟨slack, hloop, hslack, hzero⟩ := @readLoop_spec heap _ [] zeroChunk reads hfuel
  have hzeros : (arrived reads).length < chunkSize →
      slack = zeros (chunkSize - (arrived reads).length) := by
    intro hshort
    rw [hzero hshort]
    exact List.drop_replicate
  exact ⟨⟨arrived reads, slack, hslack, hzeros⟩, rfl, hloop⟩

end MeasuredBoot.SrtmLog
