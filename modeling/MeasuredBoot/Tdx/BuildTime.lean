import MeasuredBoot.Common.EventLog
import MeasuredBoot.Tdx.MeasureRun

/-! # Build-time registers

`calculate_mrseam` and `calculate_mrtd`, and when the status of the MRTD
calculation can be trusted.
-/

namespace MeasuredBoot.Tdx

open Binary Imperative Imperative.Proc

def indexMrtd : Nat := 0
def indexMrseam : Nat := 5

/-- `memcpy` of a digest into the register. -/
def setMr (hash : Digest 48) (s : Measurement 48) : Measurement 48 := { s with mr := hash }

def calculateMrseam (md : Md 48) (tdxModule : File) : Proc (Measurement 48) Int := do
  update Measurement.clear
  match hashFile md tdxModule with
  | none => exit (-1)
  | some hashMrseam =>
      update fun s => s.log indexMrseam (ascii "TDX-Module") hashMrseam
        (ascii "SEAMLDR Measurement: TDX-Module")
      update (setMr hashMrseam)
      return 0

/-- `stack` is what `hash_mrtd` holds before `measure_ovmf` writes it. -/
def calculateMrtd (md : Md 48) (env : OvmfEnv) (stack : Digest 48) (ovmfFile : File)
    (qemuVersion : Bytes) : Proc (Measurement 48) Int := do
  update Measurement.clear
  match readFile ovmfFile with
  | none => exit (-1)
  | some ovmfBuf =>
      let (ret, out) ← inner (measureOvmf md env ovmfBuf qemuVersion) OvmfRun.start
      exitIf (ret ≠ 0) ret
      let hashMrtd := out.digest.getD stack
      update fun s => s.log indexMrtd (ascii "OVMF") hashMrtd
        (ascii "TDX Module Measurement: Initial TD contents (OVMF)")
      update (setMr hashMrtd)
      return 0

/-! ## Status soundness of the MRTD -/

/-- `measure_ovmf` returns, and returns 0 only for an accepted image whose complete
record stream the digest is of. -/
def MeasureSound (md : Md 48) (env : OvmfEnv) (rawImage : Buffer) (qemuVersion : Bytes) : Prop :=
  ∃ ret out, run (measureOvmf md env rawImage qemuVersion) OvmfRun.start = .ok (ret, out) ∧
    (ret = 0 → ∃ off d, Accepted rawImage qemuVersion off d ∧
      out.digest = some (md (updatesOf (recordsOf rawImage qemuVersion off d)).flatten))

/-- `calculate_mrtd` returns, and for an image that is not accepted it fails with the
log as it was and the register cleared. -/
def MrtdSound (md : Md 48) (env : OvmfEnv) (rawImage : Buffer) (qemuVersion : Bytes) : Prop :=
  ∀ (ovmfFile : File) (stack : Digest 48) (s : Measurement 48),
    readFile ovmfFile = some rawImage →
    ∃ ret s', run (calculateMrtd md env stack ovmfFile qemuVersion) s = .ok (ret, s') ∧
      ((¬∃ off d, Accepted rawImage qemuVersion off d) →
        ret ≠ 0 ∧ s'.evlog = s.evlog ∧ s'.mr = zeroDigest 48)

theorem calculateMrtd_run {md : Md 48} {env : OvmfEnv} {ovmfFile : File} {rawImage : Buffer}
    {qemuVersion : Bytes} (stack : Digest 48) (s : Measurement 48) {ret : Int} {out : OvmfRun}
    (hfile : readFile ovmfFile = some rawImage)
    (hrun : run (measureOvmf md env rawImage qemuVersion) OvmfRun.start = .ok (ret, out)) :
    run (calculateMrtd md env stack ovmfFile qemuVersion) s =
      if ret ≠ 0 then .ok (ret, s.clear)
      else .ok (0, setMr (out.digest.getD stack) (s.clear.log indexMrtd (ascii "OVMF")
        (out.digest.getD stack) (ascii "TDX Module Measurement: Initial TD contents (OVMF)"))) := by
  unfold calculateMrtd
  rw [hfile]
  simp only [inner_of_run hrun, pure_bind]
  by_cases hret : ret ≠ 0
  · rw [if_pos hret, exitIf_pos hret]
    rfl
  · rw [if_neg hret, exitIf_neg hret]
    rfl

/-- An abandoned run reports success without a digest. -/
theorem not_measureSound_of_abandoned {md : Md 48} {env : OvmfEnv} {rawImage : Buffer}
    {qemuVersion : Bytes} (hearly : ¬EarlyReject env rawImage)
    (hreject : ¬(env.Ready ∧ ∃ off d, Accepted rawImage qemuVersion off d)) :
    ¬MeasureSound md env rawImage qemuVersion := by
  rintro ⟨ret, out, hrun, hsound⟩
  obtain ⟨hret, hnone⟩ := run_of_abandoned hearly hreject hrun
  obtain ⟨off, d, -, hdigest⟩ := hsound hret
  rw [hnone] at hdigest
  cases hdigest

/-- The status is sound exactly when the image is turned down before its sections are
looked at or nothing fails after that. -/
theorem mrtdStatus_sound_iff (md : Md 48) (env : OvmfEnv) (rawImage : Buffer)
    (qemuVersion : Bytes) :
    (MeasureSound md env rawImage qemuVersion ∧ MrtdSound md env rawImage qemuVersion) ↔
      (EarlyReject env rawImage ∨
        env.Ready ∧ ∃ off d, Accepted rawImage qemuVersion off d) := by
  constructor
  · rintro ⟨hsound, -⟩
    by_contra hnot
    rw [not_or] at hnot
    exact not_measureSound_of_abandoned hnot.1 hnot.2 hsound
  · rintro (hearly | ⟨henv, off, d, haccepted⟩)
    · have hrun := run_of_earlyReject md hearly qemuVersion
      refine ⟨⟨-1, _, hrun, by simp⟩, fun ovmfFile stack s hfile => ?_⟩
      refine ⟨-1, s.clear, ?_, fun _ => ⟨by simp, rfl, rfl⟩⟩
      rw [calculateMrtd_run stack s hfile hrun, if_pos (by decide)]
    · have hrun := run_of_accepted md haccepted henv
      refine ⟨⟨0, _, hrun, fun _ => ⟨off, d, haccepted, rfl⟩⟩, fun ovmfFile stack s hfile => ?_⟩
      have hmrtd := calculateMrtd_run stack s hfile hrun
      rw [if_neg (by decide)] at hmrtd
      exact ⟨0, _, hmrtd, fun hnone => absurd ⟨off, d, haccepted⟩ hnone⟩

/-- A section whose memory address is not aligned to a page. -/
def misaligned : TdxMetadataSection := ⟨0, 0, 1, 0, 0, 0⟩

theorem mrtdStatus_unsound_misaligned :
    ¬∃ md : Md 48, MeasureSound md ⟨true, true, true⟩ (tinyImage misaligned) (ascii "9.2.0") ∧
      MrtdSound md ⟨true, true, true⟩ (tinyImage misaligned) (ascii "9.2.0") := by
  rintro ⟨md, hsound, -⟩
  have hdesc := tinyImage_describes misaligned
  refine not_measureSound_of_abandoned ?_ ?_ hsound
  · intro hearly
    cases hearly with
    | noOffset h => simp [hdesc.found] at h
    | descriptor off d hoff hread h =>
        obtain rfl : 0 = off := by simpa [hdesc.found] using hoff
        obtain rfl : tinyDescriptor = d := by simpa [hdesc.descriptor] using hread
        simp [hdesc.valid] at h
  · rintro ⟨-, off, d, haccepted⟩
    obtain ⟨rfl, rfl⟩ := hdesc.unique haccepted.describes
    have hsec := (forall_sections.mp haccepted.sections 0 (by decide)).sane.addressAligned
    revert hsec
    decide

end MeasuredBoot.Tdx
