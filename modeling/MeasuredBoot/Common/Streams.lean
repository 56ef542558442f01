import MeasuredBoot.Common.KernelConfig

/-! # Hashing a stream and reading it whole

`read_file` compares the bytes it got with the size of the file, `hash_file` reads
until a `fread` gives nothing. On a stream that fails before its end the first says
so and the second does not.
-/

namespace MeasuredBoot

open Binary

/-! ## What one `fread` takes -/

theorem untilError_le (reads : List ReadEvent) : untilError reads <+: delivered reads := by
  induction reads with
  | nil => exact List.prefix_rfl
  | cons event rest ih =>
      cases event with
      | error => exact List.nil_prefix
      | data bytes => exact (List.prefix_append_right_inj bytes).mpr ih

theorem fread_eq_take (count : Nat) (reads : List ReadEvent) :
    (fread count reads).1 = (untilError reads).take count := by
  induction reads generalizing count with
  | nil => simp [fread, untilError]
  | cons event rest ih =>
      cases event with
      | error =>
          simp only [fread, untilError, List.take_nil]
          split <;> rfl
      | data bytes =>
          simp only [fread, untilError]
          split
          · rename_i hle
            rw [List.take_append_of_le_length hle]
          · rename_i hle
            rw [List.take_append, List.take_of_length_le (by omega), ih]

/-- A `fread` that is served in full leaves the stream right behind what it took. -/
theorem untilError_fread {count : Nat} {reads : List ReadEvent} (hpos : 0 < count)
    (h : count ≤ (untilError reads).length) :
    untilError (fread count reads).2 = (untilError reads).drop count := by
  induction reads generalizing count with
  | nil => simp [untilError] at h; omega
  | cons event rest ih =>
      cases event with
      | error => simp [untilError] at h; omega
      | data bytes =>
          simp only [untilError, List.length_append] at h
          simp only [fread, untilError]
          split
          · rename_i hle
            rw [List.drop_append_of_le_length hle]
            rfl
          · rename_i hle
            have hnil : bytes.drop count = [] := List.drop_eq_nil_of_le (by omega)
            rw [ih (by omega) (by omega), List.drop_append, hnil, List.nil_append]

/-! ## What the chunks hold -/

theorem freadChunks_le (fuel : Nat) (reads : List ReadEvent) :
    (freadChunks fuel reads).flatten <+: delivered reads := by
  induction fuel generalizing reads with
  | zero => exact List.nil_prefix
  | succ fuel ih =>
      simp only [freadChunks]
      have hbytes := fread_delivered 1024 reads
      cases hread : fread 1024 reads with
      | mk chunk rest =>
          rw [hread] at hbytes
          cases chunk with
          | nil => exact List.nil_prefix
          | cons byte chunk =>
              rw [← hbytes]
              exact (List.prefix_append_right_inj (byte :: chunk)).mpr (ih rest)

/-- The loop of `hash_file` gets at least to the first read error. -/
theorem untilError_le_freadChunks (fuel : Nat) (reads : List ReadEvent)
    (h : (delivered reads).length < fuel) :
    untilError reads <+: (freadChunks fuel reads).flatten := by
  induction fuel generalizing reads with
  | zero => omega
  | succ fuel ih =>
      simp only [freadChunks]
      have hbytes := fread_delivered 1024 reads
      have htake := fread_eq_take 1024 reads
      cases hread : fread 1024 reads with
      | mk chunk rest =>
          rw [hread] at hbytes htake
          dsimp only at hbytes htake
          cases chunk with
          | nil =>
              have hnil : untilError reads = [] := by
                cases hu : untilError reads with
                | nil => rfl
                | cons byte bytes => simp [hu] at htake
              rw [hnil]
              exact List.nil_prefix
          | cons byte chunk =>
              have hlen : (byte :: chunk).length + (delivered rest).length
                  = (delivered reads).length := by rw [← List.length_append, hbytes]
              have hsplit : untilError reads
                  = (byte :: chunk) ++ (untilError reads).drop 1024 := by
                rw [show byte :: chunk = (untilError reads).take 1024 from htake,
                  List.take_append_drop]
              show untilError reads <+: (byte :: chunk) ++ (freadChunks fuel rest).flatten
              rw [hsplit]
              apply (List.prefix_append_right_inj (byte :: chunk)).mpr
              by_cases hfull : 1024 ≤ (untilError reads).length
              · have hrest := untilError_fread (by decide) hfull
                rw [hread] at hrest
                dsimp only at hrest
                rw [← hrest]
                apply ih
                simp only [List.length_cons] at hlen
                omega
              · rw [List.drop_eq_nil_of_le (by omega)]
                exact List.nil_prefix

/-- Nothing fails before the whole content is delivered. -/
def File.DeliversAll (f : File) : Prop := untilError f.reads = f.content

instance (f : File) : Decidable f.DeliversAll := by
  unfold File.DeliversAll
  infer_instance

theorem File.chunks_of_deliversAll {f : File} (h : f.DeliversAll) :
    f.chunks.flatten = f.content := by
  have hle : untilError f.reads <+: f.chunks.flatten :=
    untilError_le_freadChunks _ _ (Nat.lt_succ_self _)
  have hge : f.chunks.flatten <+: f.content :=
    (freadChunks_le _ _).trans f.reads_prefix
  rw [h] at hle
  exact hge.eq_of_length_le hle.length_le

/-- The size check of `read_file` passes on the streams that deliver everything. -/
theorem File.deliversAll_iff {f : File} :
    f.DeliversAll ↔ (fread f.content.length f.reads).1.length = f.content.length := by
  rw [fread_eq_take, List.length_take]
  have hpre : untilError f.reads <+: f.content :=
    (untilError_le f.reads).trans f.reads_prefix
  constructor
  · intro h
    rw [show untilError f.reads = f.content from h, Nat.min_self]
  · intro h
    exact hpre.eq_of_length_le (by omega)

/-! ## The two ways to hash -/

/-- `read_file` gets as far as its `fread` and prints that it read less than the file. -/
def File.ReportsIncompleteRead (f : File) : Prop :=
  f.accessible ∧ f.allocates ∧ f.opens ∧
    (fread f.content.length f.reads).1.length ≠ f.content.length

/-- `hash_file` agrees with `hash_buf` on the content, whichever the digest, and fails
where `read_file` reports an incomplete read of the same stream. -/
structure HashesWholeFile (f : File) : Prop where
  digest : ∀ (n : Nat) (md : Md n) (hash : Digest n),
    hashFile md f = some hash → hash = hashBuf md f.content
  incomplete : ∀ accessible allocates : Bool,
    File.ReportsIncompleteRead { f with accessible := accessible, allocates := allocates } →
      ∀ (n : Nat) (md : Md n), hashFile md f = none

/-- `hash_file` takes a read error for the end of the file, so the digest stands for the
content exactly where no read fails before the end. -/
theorem hashesWholeFile_iff (f : File) :
    HashesWholeFile f ↔ f.opens = false ∨ f.DeliversAll := by
  constructor
  · intro h
    by_contra hnot
    rw [not_or, Bool.not_eq_false] at hnot
    have hshort := mt File.deliversAll_iff.mpr hnot.2
    have hnone := h.incomplete true true ⟨rfl, rfl, hnot.1, hshort⟩ 0 (fun _ => zeroDigest 0)
    simp [hashFile, hnot.1] at hnone
  · rintro (hopen | hall)
    · have hnone : ∀ (n : Nat) (md : Md n), hashFile md f = none := by
        intro n md
        simp [hashFile, hopen]
      refine ⟨?_, fun _ _ _ => hnone⟩
      intro n md hash h
      rw [hnone] at h
      cases h
    · constructor
      · intro n md hash h
        unfold hashFile at h
        rw [File.chunks_of_deliversAll hall] at h
        split at h
        · cases h
        · exact (Option.some.inj h).symm
      · rintro accessible allocates ⟨-, -, -, hread⟩
        exact absurd (File.deliversAll_iff.mp hall) hread

/-- A file of one byte whose first read fails. -/
def unreadableFile : File where
  path := [102]
  content := [120]
  accessible := true
  allocates := true
  opens := true
  reads := [.error]
  size_lt := by decide
  reads_prefix := List.nil_prefix

theorem not_hashesWholeFile_unreadable : ¬HashesWholeFile unreadableFile := by
  intro h
  have hnone := h.incomplete true true ⟨rfl, rfl, rfl, by decide⟩ 0 (fun _ => zeroDigest 0)
  exact absurd hnone (by decide)

end MeasuredBoot
