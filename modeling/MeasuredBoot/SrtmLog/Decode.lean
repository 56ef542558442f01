import MeasuredBoot.SrtmLog.Parser

/-! # The events of a log

An event read in one piece from the memory at its header, and the parser's functions
in terms of it: `parse_event2` finds its size, and the digest callback gets its digests
in order.
-/

namespace MeasuredBoot.SrtmLog

open Binary Imperative Imperative.Proc

variable {σ : Type}

/-- An event. `window` are the bytes an `EV_NO_ACTION_STRUCT` takes at its data. -/
structure Event where
  pcrIndex : Nat
  eventType : Nat
  digests : List Digest2
  data : Bytes
  window : Bytes
  deriving DecidableEq

/-- `count` digests, one behind the other. -/
def digestsAt : Nat → Bytes → List Digest2
  | 0, _ => []
  | count + 1, mem => digest2At mem :: digestsAt count (mem.drop (digest2At mem).size)

def totalSize (digests : List Digest2) : Nat := (digests.map Digest2.size).sum

/-- Where the `TCG_EVENT2` of the event at `mem` starts. -/
def bodyOffset (mem : Bytes) : Nat :=
  12 + totalSize (digestsAt (header2At mem).digestCount (mem.drop 12))

def eventAt (mem : Bytes) : Event where
  pcrIndex := (header2At mem).pcrIndex
  eventType := (header2At mem).eventType
  digests := digestsAt (header2At mem).digestCount (mem.drop 12)
  data := slice mem (bodyOffset mem + 4) (ofLE (slice mem (bodyOffset mem) 4))
  window := slice mem (bodyOffset mem + 4) 17

def eventSizeAt (mem : Bytes) : Nat := bodyOffset mem + 4 + ofLE (slice mem (bodyOffset mem) 4)

/-- The events in the `size` bytes at a pointer. -/
def eventsFrom : Nat → Bytes → Nat → List Event
  | 0, _, _ => []
  | fuel + 1, mem, size =>
      if size = 0 then []
      else eventAt mem :: eventsFrom fuel (mem.drop (eventSizeAt mem)) (size - eventSizeAt mem)

/-- The events behind the specification event of a log. -/
def EventBuf.events (b : EventBuf) : List Event :=
  match specidEvent b.memory b.log.length with
  | none => []
  | some next =>
      eventsFrom (b.log.length - next + 1) (b.memory.drop next) (b.log.length - next)

/-! ## Digests -/

/-- The digest callback on one digest, and the `break` behind it. -/
def digestRound (cb : Digest2 → Proc σ Bool) (d : Digest2) : Proc σ Unit := do
  let ret ← cb d
  exitIf (ret = false) 0

/-- Where the digests fit, the loop only calls back. -/
theorem digestLoop_eq (cb : Digest2 → Proc σ Bool) (count : Nat) (mem : Bytes) (size : Nat)
    (h : totalSize (digestsAt count mem) ≤ size) :
    digestLoop cb count mem size = forEach (digestRound cb) (digestsAt count mem) := by
  induction count generalizing mem size with
  | zero => rfl
  | succ count ih =>
      have hsplit : totalSize (digestsAt (count + 1) mem) = (digest2At mem).size +
          totalSize (digestsAt count (mem.drop (digest2At mem).size)) := by
        simp [digestsAt, totalSize]
      have hsize : (digest2At mem).size =
          2 + tpm2AlgUtilGetHashSize (ofLE (slice mem 0 2)) := rfl
      rw [hsplit] at h
      have hheader : ¬size < 2 := by omega
      have hdigest : ¬size < 2 + tpm2AlgUtilGetHashSize (ofLE (slice mem 0 2)) := by omega
      have hrest := ih (mem.drop (digest2At mem).size) (size - (digest2At mem).size) (by omega)
      simp only [digestLoop, exitIf_neg hheader, exitIf_neg hdigest, pure_bind, ← hsize, hrest,
        digestsAt, forEach, digestRound, bind_assoc]

/-- The accumulator adds up the digests, and gets through only where they fit. -/
theorem digestLoop_accumulator (count : Nat) (mem : Bytes) (size total : Nat) :
    wlp (digestLoop digest2Accumulator count mem size)
      (fun _ total' => total' = total + totalSize (digestsAt count mem) ∧
        totalSize (digestsAt count mem) ≤ size) (fun r _ => r = 0) total := by
  induction count generalizing mem size total with
  | zero => exact ⟨rfl, Nat.zero_le _⟩
  | succ count ih =>
      have hsplit : totalSize (digestsAt (count + 1) mem) = (digest2At mem).size +
          totalSize (digestsAt count (mem.drop (digest2At mem).size)) := by
        simp [digestsAt, totalSize]
      have hsize : (digest2At mem).size =
          2 + tpm2AlgUtilGetHashSize (ofLE (slice mem 0 2)) := rfl
      unfold digestLoop
      apply wlp_bind
      apply wlp_exitIf
      · intro _
        rfl
      intro _
      apply wlp_bind
      apply wlp_exitIf
      · intro _
        rfl
      intro hfits
      apply wlp_bind
      show wlp _ _ _ _
      apply wlp_bind
      apply wlp_update
      apply wlp_pure
      apply wlp_bind
      apply wlp_exitIf
      · intro _
        rfl
      intro _
      rw [← hsize]
      apply wlp_mono (ih _ _ _)
      · intro _ total' htotal
        rw [hsplit]
        omega
      · intro r _ hr
        exact hr

/-! ## Events -/

/-- The counting pass of `parse_event2`. -/
theorem countDigests_spec (mem : Bytes) (size : Nat) :
    wlp (do
      foreachDigest2 digest2Accumulator (header2At mem).pcrIndex (mem.drop 12)
        (header2At mem).digestCount size
      return (1 : Int))
      (fun r total => r = 1 → (header2At mem).pcrIndex < 32 ∧ 12 + total = bodyOffset mem)
      (fun r total => r = 1 → (header2At mem).pcrIndex < 32 ∧ 12 + total = bodyOffset mem) 0 := by
  apply wlp_bind
  apply wlp_bind
  apply wlp_exitIf
  · intro _ h
    cases h
  intro hpcr
  apply wlp_mono (digestLoop_accumulator _ _ _ 0)
  · intro _ total htotal
    apply wlp_pure
    intro _
    constructor
    · unfold tpm2MaxPcrs at hpcr
      omega
    · rw [htotal.1, Nat.zero_add]
      rfl
  · intro r _ hr h
    rw [hr] at h
    cases h

/-- What `parse_event2` finds where it succeeds. -/
theorem parseEvent2_spec (mem : Bytes) (bufSize : Nat) (s : σ) :
    wlp (parseEvent2 mem bufSize)
      (fun layout t => t = s ∧ 12 ≤ bufSize ∧ (eventAt mem).pcrIndex < 32 ∧
        layout = ⟨eventSizeAt mem, bodyOffset mem - 12⟩ ∧ eventSizeAt mem ≤ bufSize)
      (fun r _ => r = 0) s := by
  apply wlp_bind
  apply wlp_exitIf
  · intro _
    rfl
  intro hheader
  apply wlp_bind
  apply wlp_lift
  intro counted hcounted
  apply wlp_bind
  apply wlp_exitIf
  · intro _
    rfl
  intro hret
  have hcount := run_of_wlp (countDigests_spec mem _) hcounted
  obtain ⟨hpcr, htotal⟩ := hcount (not_not.mp hret)
  apply wlp_bind
  apply wlp_exitIf
  · intro _
    rfl
  intro _
  apply wlp_bind
  apply wlp_exitIf
  · intro _
    rfl
  intro hdata
  rw [htotal] at hdata
  show s = s ∧ _
  rw [htotal]
  refine ⟨rfl, Nat.le_of_not_lt hheader, hpcr, ?_, Nat.le_of_not_lt hdata⟩
  have hback : counted.2 = bodyOffset mem - 12 := by omega
  rw [hback]
  rfl

end MeasuredBoot.SrtmLog
