import MeasuredBoot.SrtmPcrs.Pcrs
import MeasuredBoot.Tdx.RuntimeStatus

/-! # The kernel command line in RTMR2 and PCR 9

Both tools widen the command line with `convert_to_char16`, which assigns a `char`
to a 16-bit unit. A `char` is signed, so the upper half of the byte values changes.
-/

namespace MeasuredBoot

open Binary Imperative Imperative.Proc

/-! ## What the line widens to -/

/-- Little-endian 16-bit units with the unsigned values of the bytes, and `z` zero units. -/
def charUnits (line : Bytes) (z : Nat) : Bytes :=
  line.flatMap (fun c => toLE 2 c.toNat) ++ zeros (2 * z)

theorem widen_length (c : UInt8) : (widen c).length = 2 := rfl

/-- Widening keeps the value of a byte below 128 and of no other. -/
theorem widen_eq_toLE {c : UInt8} : widen c = toLE 2 c.toNat ↔ c < 128 := by
  have hhigh : c.toNat / 256 = 0 := Nat.div_eq_of_lt c.toNat_lt
  constructor
  · intro h
    by_contra hc
    simp [widen, toLE, hhigh, hc] at h
  · intro hc
    simp [widen, toLE, hhigh, hc]

theorem flatMap_widen_eq {line : Bytes} :
    line.flatMap widen = line.flatMap (fun c => toLE 2 c.toNat) ↔ ∀ c ∈ line, c < 128 := by
  induction line with
  | nil => simp
  | cons c line ih =>
      rw [List.flatMap_cons, List.flatMap_cons, List.forall_mem_cons, ← ih, ← widen_eq_toLE]
      have hlen : (widen c).length = (toLE 2 c.toNat).length := by
        rw [widen_length, toLE_length]
      constructor
      · exact fun h => List.append_inj h hlen
      · rintro ⟨hc, hline⟩
        rw [hc, hline]

/-- The conversion gives the unsigned units where no byte is negative as a `char` and
the size of the wide string does not wrap. -/
theorem convertToChar16_eq_charUnits {line : Bytes} {z : UInt64} :
    convertToChar16 true line z = .ok (some (charUnits line z.toNat)) ↔
      (∀ c ∈ line, c < 128) ∧ 2 * (line.length + z.toNat) < 2 ^ 64 := by
  constructor
  · intro h
    simp only [convertToChar16, Bool.not_true, Bool.false_eq_true, if_false] at h
    have holen := (UInt64.ofNat line.length * 2 + z * 2).toNat_lt
    split at h
    · cases h
    · have hwide := Option.some.inj (Except.ok.inj h)
      have hsame : (line.flatMap widen).length
          = (line.flatMap fun c => toLE 2 c.toNat).length := by
        simp only [List.length_flatMap, widen_length, toLE_length]
      obtain ⟨hline, hzeros⟩ := List.append_inj hwide hsame
      have hcount := congrArg List.length hzeros
      rw [zeros_length, zeros_length] at hcount
      exact ⟨flatMap_widen_eq.mp hline, by omega⟩
  · rintro ⟨hascii, hsize⟩
    rw [Tdx.convertToChar16_of_size (by omega), flatMap_widen_eq.mpr hascii]
    rfl

/-- Digests tell two strings apart: some algorithm does. -/
theorem eq_of_hashBuf {n : Nat} {data data' : Bytes}
    (h : ∀ md : Md (n + 1), hashBuf md data = hashBuf md data') : data = data' := by
  by_contra hne
  have hmd := h fun bytes => if bytes = data then zeroDigest (n + 1)
    else ⟨List.replicate (n + 1) 1, List.length_replicate⟩
  simp [hashBuf, zeroDigest, zeros, Ne.symm hne, List.replicate_succ] at hmd

/-! ## The event of the line -/

/-- The log has the digest of the data, so the state determines the data. -/
theorem Measurement.measured_inj {n index : Nat} {s : Measurement (n + 1)}
    {name data data' desc : Bytes}
    (h : ∀ md, s.measured md index name data desc = s.measured md index name data' desc) :
    data = data' := by
  apply eq_of_hashBuf (n := n)
  intro md
  have hlog := congrArg Measurement.evlog (h md)
  simpa [Measurement.measured] using hlog

/-- The state after the command line event of a register. -/
def Measurement.tagged {n : Nat} (s : Measurement n) (md : Md n) (index : Nat)
    (wcmdline desc : Bytes) : Measurement n :=
  s.measured md index (ascii "EV_EVENT_TAG") wcmdline desc

/-- RTMR2 behind the read and the allocation is decided by the conversion alone. -/
theorem calculateRtmr2_of_wide {cmdline : File} {z : UInt64} {wcmdline : Bytes}
    (hread : cmdline.Readable)
    (hwide : convertToChar16 true cmdline.content z = .ok (some wcmdline)) (md : Md 48)
    (s : Measurement 48) :
    run (Tdx.calculateRtmr2 md ⟨cmdline, z, true⟩) s =
      .ok (0, s.clear.tagged md Tdx.indexRtmr2 wcmdline cmdline.path) := by
  unfold Tdx.calculateRtmr2
  rw [readFile_of_readable hread]
  dsimp only
  rw [hwide]
  rfl

namespace SrtmPcrs

/-- The line OVMF boots with: an initial ramdisk is announced behind it. -/
def bootLine (args : Pcr9Args) (line : Bytes) : Bytes :=
  if args.initrd.isSome then line ++ ascii " initrd=initrd" else line

/-- The block under `if (paths)`. -/
def measurePaths (libs : PcrLibs) (args : Pcr9Args) : Proc (Measurement 32) Unit :=
  forEach (fun paths => do
    let ret ← call (calculatePaths libs.sha256 paths)
    exitIf (ret ≠ 0) ret) args.paths.toList

/-- What is left of `calculate_pcr9` behind the command line. -/
def measureRest (libs : PcrLibs) (args : Pcr9Args) : Proc (Measurement 32) Int := do
  forEach (measureInitrd libs) args.initrd.toList
  return 0

/-- Every allocation for the command line succeeds. -/
structure Pcr9Args.Allocates (args : Pcr9Args) : Prop where
  append : args.appendAllocated = true
  str : args.strAllocated = true
  wide : args.wideAllocated = true

theorem measureCmdline_of_readable {args : Pcr9Args} {cmdline : File} (halloc : args.Allocates)
    (hread : cmdline.Readable) (libs : PcrLibs) (t : Measurement 32) :
    measureCmdline libs args cmdline t =
      match convertToChar16 true (bootLine args cmdline.content) args.trailingZeros with
      | .error why => .stop why
      | .ok none => .exit (-1) t
      | .ok (some wcmdline) =>
          .next () (t.tagged libs.sha256 9 wcmdline
            (cString (bootLine args cmdline.content))) := by
  have hline : bootCmdline args cmdline.content = .ok (bootLine args cmdline.content) := by
    simp [bootCmdline, bootLine, halloc.append, halloc.str]
  unfold measureCmdline
  rw [readFile_of_readable hread]
  dsimp only
  rw [hline, halloc.wide, lift_ok_bind]
  cases convertToChar16 true (bootLine args cmdline.content) args.trailingZeros with
  | error why => rfl
  | ok converted => cases converted <;> rfl

/-- `calculate_pcr9` where the paths are done: the command line, then the rest. -/
theorem calculatePcr9_of_paths {libs : PcrLibs} {args : Pcr9Args} {cmdline : File}
    {s t : Measurement 32} (hcmdline : args.cmdline = some cmdline)
    (hpaths : measurePaths libs args s.clear = .next () t) :
    calculatePcr9 libs args s = (do measureCmdline libs args cmdline; measureRest libs args) t := by
  have hsplit : calculatePcr9 libs args s = Outcome.andThen (measurePaths libs args s.clear)
      (fun _ => do
        forEach (measureCmdline libs args) args.cmdline.toList
        measureRest libs args) := rfl
  rw [hsplit, hpaths, hcmdline, andThen_next]
  show ((measureCmdline libs args cmdline >>= fun _ => pure ()) >>=
    fun _ => measureRest libs args) t = _
  rw [bind_assoc]
  rfl

end SrtmPcrs

open SrtmPcrs

/-! ## The two tools -/

/-- Whatever else the two tools are given, they hash the unsigned units of a command line
that is read and converted, and the event with that digest is the one measured. -/
structure WidensCmdline (cmdline : File) (z : UInt64) : Prop where
  rtmr2 : cmdline.Readable → ∀ md s,
    run (Tdx.calculateRtmr2 md ⟨cmdline, z, true⟩) s =
      .ok (0, s.clear.tagged md Tdx.indexRtmr2 (charUnits cmdline.content z.toNat) cmdline.path)
  pcr9 : cmdline.Readable → ∀ (libs : PcrLibs) (args : Pcr9Args) s t,
    args.cmdline = some cmdline → args.trailingZeros = z → args.Allocates →
      measurePaths libs args s.clear = .next () t →
        calculatePcr9 libs args s =
          measureRest libs args
            (t.tagged libs.sha256 9 (charUnits (bootLine args cmdline.content) z.toNat)
              (cString (bootLine args cmdline.content)))

/-- No byte of the line is negative as a `char`, and the wide string of the longer line,
with ` initrd=initrd` and the trailing zeros, has a size. -/
structure NarrowCmdline (line : Bytes) (z : UInt64) : Prop where
  ascii : ∀ c ∈ line, c < 128
  size : 2 * (line.length + (Binary.ascii " initrd=initrd").length + z.toNat) < 2 ^ 64

theorem initrdSuffix_ascii : ∀ c ∈ ascii " initrd=initrd", c < 128 := by
  have hall : (ascii " initrd=initrd").all (fun c => decide (c < 128)) = true := by decide
  intro c hc
  exact of_decide_eq_true (List.all_eq_true.mp hall c hc)

theorem NarrowCmdline.bootLine {line : Bytes} {z : UInt64} (h : NarrowCmdline line z)
    (args : Pcr9Args) :
    convertToChar16 true (bootLine args line) z
      = .ok (some (charUnits (SrtmPcrs.bootLine args line) z.toNat)) := by
  have hsize := h.size
  rw [convertToChar16_eq_charUnits]
  unfold SrtmPcrs.bootLine
  split
  · refine ⟨?_, by rw [List.length_append]; exact hsize⟩
    exact List.forall_mem_append.mpr ⟨h.ascii, initrdSuffix_ascii⟩
  · exact ⟨h.ascii, by omega⟩

/-- PCR 9 is asked for with a ramdisk that cannot be read, so that the run ends right
behind the command line. -/
def pcr9WithInitrd (cmdline : File) (z : UInt64) : Pcr9Args where
  cmdline := some cmdline
  trailingZeros := z
  initrd := some { cmdline with accessible := false }
  paths := none
  appendAllocated := true
  strAllocated := true
  wideAllocated := true

theorem narrowCmdline_of_widens {cmdline : File} {z : UInt64} (h : WidensCmdline cmdline z)
    (hread : cmdline.Readable) : NarrowCmdline cmdline.content z := by
  let args := pcr9WithInitrd cmdline z
  let line := cmdline.content ++ ascii " initrd=initrd"
  have halloc : args.Allocates := ⟨rfl, rfl, rfl⟩
  let libs (md : Md 32) : PcrLibs := ⟨md, fun _ => none, fun _ => .ok none⟩
  let s : Measurement 32 := ⟨zeroDigest 32, []⟩
  have hrun : ∀ md, (do measureCmdline (libs md) args cmdline; measureRest (libs md) args) s.clear
      = .exit (-1) (s.clear.tagged md 9 (charUnits line z.toNat) (cString line)) := by
    intro md
    rw [← calculatePcr9_of_paths rfl rfl]
    exact h.pcr9 hread (libs md) args s s.clear rfl rfl halloc rfl
  have hwide : convertToChar16 true line z = .ok (some (charUnits line z.toNat)) := by
    have hblock : ∀ md, Outcome.andThen (measureCmdline (libs md) args cmdline s.clear)
        (fun _ => measureRest (libs md) args)
          = .exit (-1) (s.clear.tagged md 9 (charUnits line z.toNat) (cString line)) := hrun
    simp only [measureCmdline_of_readable halloc hread] at hblock
    change ∀ md, Outcome.andThen (match convertToChar16 true line z with
      | .error why => .stop why
      | .ok none => .exit (-1) s.clear
      | .ok (some wcmdline) => .next () (s.clear.tagged md 9 wcmdline (cString line)))
        (fun _ => measureRest (libs md) args) = _ at hblock
    cases hconv : convertToChar16 true line z with
    | error why =>
        rw [hconv] at hblock
        cases hblock fun _ => zeroDigest 32
    | ok converted =>
        rw [hconv] at hblock
        cases converted with
        | none =>
            have hlog := hblock fun _ => zeroDigest 32
            injection hlog with _ hstate
            cases congrArg Measurement.evlog hstate
        | some wcmdline =>
            have hsame : wcmdline = charUnits line z.toNat := by
              apply Measurement.measured_inj (n := 31)
              intro md
              have hexit := hblock md
              injection hexit
            rw [hsame]
  obtain ⟨hascii, hsize⟩ := convertToChar16_eq_charUnits.mp hwide
  rw [List.length_append] at hsize
  exact ⟨fun c hc => hascii c (List.mem_append_left _ hc), hsize⟩

/-- The bytes measured for a command line are its unsigned units exactly where none of
its bytes is 128 or above. -/
theorem widensCmdline_iff (cmdline : File) (z : UInt64) :
    WidensCmdline cmdline z ↔ ¬cmdline.Readable ∨ NarrowCmdline cmdline.content z := by
  constructor
  · intro h
    by_cases hread : cmdline.Readable
    · exact Or.inr (narrowCmdline_of_widens h hread)
    · exact Or.inl hread
  · rintro (hread | hnarrow)
    · exact ⟨fun h => absurd h hread, fun h => absurd h hread⟩
    · constructor
      · intro hread md s
        have hsize := hnarrow.size
        have hwide := convertToChar16_eq_charUnits.mpr
          (⟨hnarrow.ascii, by omega⟩ : _ ∧ 2 * (cmdline.content.length + z.toNat) < 2 ^ 64)
        exact calculateRtmr2_of_wide hread hwide md s
      · intro hread libs args s t hcmdline hz halloc hpaths
        rw [calculatePcr9_of_paths hcmdline hpaths, bind_apply,
          measureCmdline_of_readable halloc hread, hz, hnarrow.bootLine args]
        rfl

/-- A command line of one byte, `0xe9` (an `é` in Latin-1). -/
def latinCmdline : File := .intact (ascii "cmdline") [0xe9] (by decide)

theorem not_widensCmdline_latin : ¬WidensCmdline latinCmdline 0 := by
  intro h
  have hread : latinCmdline.Readable := File.intact_readable ..
  have hascii := (narrowCmdline_of_widens h hread).ascii
  exact absurd (hascii 0xe9 List.mem_cons_self) (by decide)

end MeasuredBoot
