import MeasuredBoot.PeCoff.Signature
import MeasuredBoot.SrtmPcrs.Images
import MeasuredBoot.Tdx.RuntimeStatus

/-! # Registers that images are measured into

The calculators with the `MeasurePeImage` of the source in the place of any: two equal
values of a register come from the same images up to their signatures, or the hash
breaks.
-/

namespace MeasuredBoot

open Binary Imperative Imperative.Proc PeCoff

/-- What the callers see of `MeasurePeImage`: no digest after an EFI error. -/
def peDigest {n : Nat} (md : Md n) (env : MeasureEnv) : MeasurePeImage n := fun image =>
  match measurePeImage md env image with
  | .ok (status, some hash) => if efiError status then none else some hash
  | _ => none

/-- The image has no gaps and is not too large for the loader's numbers. -/
def GapFree (image : Bytes) : Prop := NoWrap image ∧ Contiguous image

theorem peDigest_eq_some {n : Nat} {md : Md n} {env : MeasureEnv} {image : Bytes}
    {hash : Digest n} (hgap : GapFree image) (h : peDigest md env image = some hash) :
    WellFormed image ∧ hash = md (authenticode image) := by
  unfold peDigest at h
  split at h
  · next status hash' hrun =>
    split at h
    · cases h
    · cases h
      obtain ⟨-, hwell, -, -, rfl⟩ :=
        (measurePeImage_digest_iff md env hgap.1 _ _).mp hrun
      exact ⟨hwell, rfl⟩
  · cases h

/-- Equal digests of images without gaps. -/
theorem peDigest_binds {n : Nat} {md : Md n} {env env' : MeasureEnv} {image image' : Bytes}
    {hash : Digest n} (hgap : GapFree image) (hgap' : GapFree image')
    (h : peDigest md env image = some hash) (h' : peDigest md env' image' = some hash) :
    SameUpToSignature image image' ∨
      HashChain.Collides md [authenticode image] [authenticode image'] := by
  obtain ⟨hwell, rfl⟩ := peDigest_eq_some hgap h
  obtain ⟨hwell', heq⟩ := peDigest_eq_some hgap' h'
  by_cases hsame : authenticode image = authenticode image'
  · rw [hgap.2.authenticode_eq hwell, hgap'.2.authenticode_eq hwell'] at hsame
    exact Or.inl ((unsigned_eq_iff hwell hwell' hgap.2 hgap'.2).mp hsame)
  · exact Or.inr ⟨_, List.mem_singleton_self _, _, List.mem_singleton_self _, hsame, heq⟩

/-- The slot of `ctx` holds `NULL`, and nothing fails. -/
def plainEnv : MeasureEnv := ⟨true, true, true, false⟩

theorem peDigest_gapless {n : Nat} (md : Md n) {image : Bytes} (hgap : GapFree image)
    (h : WellFormed image) : peDigest md plainEnv image = some (md (authenticode image)) := by
  unfold peDigest
  rw [measurePeImage_gapless hgap.1 ⟨rfl, rfl, rfl⟩ h hgap.2]
  rfl

theorem smallImage_gapFree : GapFree smallImage := ⟨smallImage_noWrap, smallImage_contiguous⟩

theorem signedImage_gapFree : GapFree signedImage := ⟨signedImage_noWrap, signedImage_same.2.1⟩

theorem signedImage_length : signedImage.length = 272 := by
  rw [signedImage, attachCertificates_length smallImage_wellFormed smallImage_security.1,
    smallImage_length]
  rfl

/-! ## PCR 4 -/

namespace SrtmPcrs

namespace PcrImage

/-- The bytes that are measured, if there are any. -/
def content : PcrImage → Option Bytes
  | .driver file => some file.content
  | .bootloader file => file.map File.content
  | .kernel configFile file =>
      match preparedKernel configFile file.content with
      | .ok image => image
      | .error _ => none

end PcrImage

section Binding

variable {libs libs' : PcrLibs} {menv menv' : MeasureEnv}

/-- Every image that is measured has no gaps. -/
def AllGapFree (images : List PcrImage) : Prop :=
  ∀ x ∈ images, ∀ image, x.content = some image → GapFree image

theorem AllGapFree.cons {x : PcrImage} {images : List PcrImage} (h : AllGapFree (x :: images)) :
    (∀ image, x.content = some image → GapFree image) ∧ AllGapFree images :=
  ⟨h x List.mem_cons_self, fun y hy => h y (List.mem_cons_of_mem x hy)⟩

/-- The events that every run extends behind the images of PCR 4. -/
def bootEvents (sha256 : Md 32) : List (Digest 32) :=
  [sha256 callingEfiApplication, sha256 evSeparator]

end Binding

section Bootloader

variable (sha256 : Md 32)

end Bootloader

theorem signedImage_authenticode : authenticode smallImage = authenticode signedImage := by
  obtain ⟨hwell, hc, hsame⟩ := signedImage_same
  rw [smallImage_contiguous.authenticode_eq smallImage_wellFormed, hc.authenticode_eq hwell,
    hsame.unsigned_eq smallImage_wellFormed hwell smallImage_contiguous hc]

end SrtmPcrs

/-! ## RTMR1 -/

namespace Tdx

theorem Rtmr1Args.Prepared.unique {args : Rtmr1Args} {image image' : Bytes}
    (h : args.Prepared image) (h' : args.Prepared image') : image = image' := by
  cases h with
  | plain hnone =>
      cases h' with
      | plain _ => rfl
      | patched file config image hfile _ _ _ => simp [hnone] at hfile
  | patched file config image hfile hread hparse hpatch =>
      cases h' with
      | plain hnone => simp [hnone] at hfile
      | patched file' config' image' hfile' hread' hparse' hpatch' =>
          obtain rfl : file = file' := Option.some.inj (hfile.symm.trans hfile')
          obtain rfl : config = config' :=
            Option.some.inj (Except.ok.inj (hparse.symm.trans hparse'))
          exact Option.some.inj (hpatch.symm.trans hpatch')

/-- A complete run leaves the replay of its events in the register. -/
theorem calculateRtmr1_mr {md : Md 48} {measurePeImage : MeasurePeImage 48} {env : RuntimeEnv}
    {args : Rtmr1Args} {hashKernel : Digest 48} {s t : Measurement 48} {ret : Int}
    (h : Rtmr1Complete measurePeImage env args hashKernel)
    (hrun : run (calculateRtmr1 md measurePeImage env args) s = .ok (ret, t)) :
    t.mr = replay md (rtmr1Digests md args hashKernel) := by
  obtain ⟨body, hbody, hextends⟩ := calculateRtmr1_of_complete md h
  obtain ⟨u, hu, hmr⟩ := hextends s.clear
  have hclear : run (calculateRtmr1 md measurePeImage env args) s = run body s.clear := by
    rw [hbody]
    rfl
  rw [hclear, run, hu] at hrun
  cases hrun
  exact hmr

/-- Two complete calculations of RTMR1 that end with the same value measured the same
prepared kernel, up to its signature, or the hash breaks. -/
theorem calculateRtmr1_binds_kernel {md : Md 48} {menv menv' : MeasureEnv}
    {env env' : RuntimeEnv} {args args' : Rtmr1Args} {image image' : Bytes}
    {hashKernel hashKernel' : Digest 48} {s s' t t' : Measurement 48} {ret ret' : Int}
    (hprepared : args.Prepared image) (hprepared' : args'.Prepared image')
    (hgap : GapFree image) (hgap' : GapFree image')
    (hcomplete : Rtmr1Complete (peDigest md menv) env args hashKernel)
    (hcomplete' : Rtmr1Complete (peDigest md menv') env' args' hashKernel')
    (hrun : run (calculateRtmr1 md (peDigest md menv) env args) s = .ok (ret, t))
    (hrun' : run (calculateRtmr1 md (peDigest md menv') env' args') s' = .ok (ret', t'))
    (heq : t.mr = t'.mr) :
    SameUpToSignature image image' ∨
      HashChain.Collides md [authenticode image] [authenticode image'] ∨
      HashBreaks md (rtmr1Digests md args (md (authenticode image)))
        (rtmr1Digests md args' (md (authenticode image'))) := by
  obtain ⟨measured, hmeasured, hhash⟩ := hcomplete.measured
  obtain ⟨measured', hmeasured', hhash'⟩ := hcomplete'.measured
  obtain rfl := hprepared.unique hmeasured
  obtain rfl := hprepared'.unique hmeasured'
  have hreplay := (calculateRtmr1_mr hcomplete hrun).symm.trans
    (heq.trans (calculateRtmr1_mr hcomplete' hrun'))
  obtain ⟨-, hkernel⟩ := peDigest_eq_some hgap hhash
  obtain ⟨-, hkernel'⟩ := peDigest_eq_some hgap' hhash'
  rcases replay_binding hreplay with hdigests | hbreaks
  · have hsame : hashKernel = hashKernel' := by
      unfold rtmr1Digests at hdigests
      exact (List.cons.inj hdigests).1
    rw [← hsame] at hhash'
    rcases peDigest_binds hgap hgap' hhash hhash' with hsignature | hcollides
    · exact Or.inl hsignature
    · exact Or.inr (Or.inl hcollides)
  · rw [hkernel, hkernel'] at hbreaks
    exact Or.inr (Or.inr hbreaks)

/-- A kernel that is measured as it is. -/
def kernelArgs (content : Bytes) (h : content.length < 2 ^ 63) : Rtmr1Args where
  kernelFile := .intact (ascii "bzImage.efi") content h
  configFile := none
  dumpKernelPath := none
  ovmfVersion := ascii "edk2-stable202411"

theorem kernelArgs_complete {content : Bytes} (md : Md 48) (h : content.length < 2 ^ 63)
    (env : RuntimeEnv) (halloc : env.separatorAllocated = true) (hgap : GapFree content)
    (hwell : WellFormed content) :
    Rtmr1Complete (peDigest md plainEnv) env (kernelArgs content h)
      (md (authenticode content)) where
  loads := File.intact_loads _ _ _
  measured := ⟨content, .plain rfl, peDigest_gapless md hgap hwell⟩
  dumped := fun d hd => by cases hd
  separator := fun _ => halloc

theorem kernelArgs_run {content : Bytes} (md : Md 48) (h : content.length < 2 ^ 63)
    (env : RuntimeEnv) (halloc : env.separatorAllocated = true) (hgap : GapFree content)
    (hwell : WellFormed content) (s : Measurement 48) :
    ∃ t, run (calculateRtmr1 md (peDigest md plainEnv) env (kernelArgs content h)) s =
      .ok (0, t) := by
  obtain ⟨body, hbody, hextends⟩ :=
    calculateRtmr1_of_complete md (kernelArgs_complete md h env halloc hgap hwell)
  obtain ⟨t, ht, -⟩ := hextends s.clear
  refine ⟨t, ?_⟩
  rw [hbody]
  change run body s.clear = _
  rw [run, ht]

theorem calculateRtmr1_binds_kernel_signed :
    SameUpToSignature smallImage signedImage ∨
      HashChain.Collides Sha384.sha384 [authenticode smallImage] [authenticode signedImage] ∨
      HashBreaks Sha384.sha384
        (rtmr1Digests Sha384.sha384 (kernelArgs smallImage (by rw [smallImage_length]; decide))
          (Sha384.sha384 (authenticode smallImage)))
        (rtmr1Digests Sha384.sha384 (kernelArgs signedImage (by rw [signedImage_length]; decide))
          (Sha384.sha384 (authenticode signedImage))) := by
  let env : RuntimeEnv := ⟨true, zeroDigest 48, true, true⟩
  obtain ⟨t, hrun⟩ := kernelArgs_run Sha384.sha384 _ env rfl smallImage_gapFree
    smallImage_wellFormed ⟨zeroDigest 48, []⟩
  obtain ⟨t', hrun'⟩ := kernelArgs_run Sha384.sha384 _ env rfl signedImage_gapFree
    signedImage_same.1 ⟨zeroDigest 48, []⟩
  have hcomplete := kernelArgs_complete Sha384.sha384
    (by rw [smallImage_length]; decide) env rfl smallImage_gapFree smallImage_wellFormed
  have hcomplete' := kernelArgs_complete Sha384.sha384
    (by rw [signedImage_length]; decide) env rfl signedImage_gapFree signedImage_same.1
  refine calculateRtmr1_binds_kernel (.plain rfl) (.plain rfl) smallImage_gapFree
    signedImage_gapFree hcomplete hcomplete' hrun hrun' ?_
  rw [calculateRtmr1_mr hcomplete hrun, calculateRtmr1_mr hcomplete' hrun',
    SrtmPcrs.signedImage_authenticode]
  rfl

end Tdx

end MeasuredBoot
