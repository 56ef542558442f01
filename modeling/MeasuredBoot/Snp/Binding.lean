import MeasuredBoot.Common.Sha2
import MeasuredBoot.Snp.LaunchDigest

/-! # What the launch digest binds

The page information chain determines its records; the records determine the
configuration up to the hashes of the pages.
-/

namespace MeasuredBoot.Snp

open Binary Imperative Imperative.Proc

variable {sha256 : Md 32} {sha384 : Md 48}

/-- The pages hashed by a sequence of updates. -/
def hashedPages (updates : List PageUpdate) : List Bytes := updates.filterMap (·.page)

/-- Every string a sequence of updates hashes: its pages and its page information. -/
def hashedStrings (sha384 : Md 48) (updates : List PageUpdate) : List Bytes :=
  hashedPages updates ++
    HashChain.hashed sha384 pageInfoBytes (zeroDigest 48) (updates.map (PageUpdate.info sha384))

/-- Equal page digests come from equal pages, or the pages collide. -/
theorem page_eq_or_collides {us us' : List PageUpdate} {a b : Bytes}
    (ha : a ∈ hashedPages us) (hb : b ∈ hashedPages us') (h : sha384 a = sha384 b) :
    a = b ∨ HashChain.Collides sha384 (hashedPages us) (hashedPages us') := by
  by_cases hab : a = b
  · exact Or.inl hab
  · exact Or.inr ⟨a, ha, b, hb, hab, h⟩

/-! ## Decoding the page sequence -/

/-- Everything after the firmware. -/
def restPages (hashes : Option Bytes) (vcpus : Nat) (vmmType : VmmType) : List PageUpdate :=
  zeroPages 0x800000 0x809000 ++ (zeroPages 0x80a000 0x80d000 ++
    ([⟨none, snpPageTypeSecrets, 0x80d000⟩] ++
      ((if vmmType = .qemu then [cpuidPage] else []) ++ (kernelPages hashes ++
        ((if vmmType = .ec2 then [cpuidPage] else []) ++ vmsaPages vcpus vmmType)))))

theorem launchPages_eq (ovmf : Bytes) (hashes : Option Bytes) (vcpus : Nat) (vmmType : VmmType) :
    launchPages ovmf hashes vcpus vmmType =
      firmwarePages ovmf ++ restPages hashes vcpus vmmType := by
  simp only [launchPages, restPages, List.append_assoc]

def isNormal (info : PageInfo) : Bool := info.pageType = snpPageTypeNormal

/-- The firmware is the leading run of normal pages. -/
theorem takeWhile_normal (ovmf : Bytes) (hashes : Option Bytes) (vcpus : Nat)
    (vmmType : VmmType) :
    ((launchPages ovmf hashes vcpus vmmType).map (PageUpdate.info sha384)).takeWhile isNormal =
      (firmwarePages ovmf).map (PageUpdate.info sha384) := by
  have hall : ∀ info ∈ (firmwarePages ovmf).map (PageUpdate.info sha384), isNormal info = true := by
    intro info hinfo
    simp only [firmwarePages, List.map_map, List.mem_map] at hinfo
    obtain ⟨i, -, rfl⟩ := hinfo
    rfl
  rw [launchPages_eq, List.map_append, List.takeWhile_append_of_pos hall]
  have hrest : ((restPages hashes vcpus vmmType).map (PageUpdate.info sha384)).takeWhile isNormal =
      [] := by rfl
  rw [hrest, List.append_nil]

/-- Equal sequences have equal firmware parts and equal remainders. -/
theorem split_firmware {ovmf ovmf' : Bytes} {hashes hashes' : Option Bytes}
    {vcpus vcpus' : Nat} {vmmType vmmType' : VmmType}
    (h : (launchPages ovmf hashes vcpus vmmType).map (PageUpdate.info sha384) =
      (launchPages ovmf' hashes' vcpus' vmmType').map (PageUpdate.info sha384)) :
    (firmwarePages ovmf).map (PageUpdate.info sha384) =
      (firmwarePages ovmf').map (PageUpdate.info sha384) ∧
    (restPages hashes vcpus vmmType).map (PageUpdate.info sha384) =
      (restPages hashes' vcpus' vmmType').map (PageUpdate.info sha384) := by
  have hfirmware := congrArg (List.takeWhile isNormal) h
  rw [takeWhile_normal, takeWhile_normal] at hfirmware
  refine ⟨hfirmware, ?_⟩
  rw [launchPages_eq, launchPages_eq, List.map_append, List.map_append, hfirmware] at h
  exact List.append_cancel_left h

/-- Equal firmware parts come from equal images, or two pages collide. -/
theorem firmware_decode {ovmf ovmf' : Bytes} (hwhole : 4096 ∣ ovmf.length)
    (hwhole' : 4096 ∣ ovmf'.length)
    (h : (firmwarePages ovmf).map (PageUpdate.info sha384) =
      (firmwarePages ovmf').map (PageUpdate.info sha384)) :
    ovmf = ovmf' ∨
      HashChain.Collides sha384 (hashedPages (firmwarePages ovmf))
        (hashedPages (firmwarePages ovmf')) := by
  have hcount : ovmf.length / 4096 = ovmf'.length / 4096 := by
    have hlen := congrArg List.length h
    simpa [firmwarePages] using hlen
  by_cases hpages : ∀ i < ovmf.length / 4096,
      slice ovmf (4096 * i) 4096 = slice ovmf' (4096 * i) 4096
  · exact Or.inl (eq_of_slices (by omega) (by omega) (by omega) hpages)
  · push Not at hpages
    obtain ⟨i, hi, hne⟩ := hpages
    refine Or.inr ⟨slice ovmf (4096 * i) 4096, ?_, slice ovmf' (4096 * i) 4096, ?_, hne, ?_⟩
    · simp only [hashedPages, firmwarePages, List.filterMap_map, List.mem_filterMap,
        List.mem_range]
      exact ⟨i, hi, rfl⟩
    · simp only [hashedPages, firmwarePages, List.filterMap_map, List.mem_filterMap,
        List.mem_range]
      exact ⟨i, hcount ▸ hi, rfl⟩
    · have hinfo := congrArg (fun infos => infos[i]?.map PageInfo.contents) h
      simpa [firmwarePages, hi, ← hcount, PageUpdate.info, hashBuf] using hinfo

theorem kernelPages_length (hashes : Option Bytes) : (kernelPages hashes).length = 17 := by
  cases hashes <;> rfl

/-- Whether there is a kernel shows in the page at 0x810000, and so does its page. -/
theorem kernel_decode {hashes hashes' : Option Bytes}
    (h : (kernelPages hashes).map (PageUpdate.info sha384) =
      (kernelPages hashes').map (PageUpdate.info sha384)) :
    hashes = hashes' ∨
      HashChain.Collides sha384 (hashedPages (kernelPages hashes))
        (hashedPages (kernelPages hashes')) := by
  have htype := congrArg (fun infos => infos[1]?.map PageInfo.pageType) h
  cases hashes with
  | none =>
      cases hashes' with
      | none => exact Or.inl rfl
      | some page' =>
          exact absurd (show some snpPageTypeZero = some snpPageTypeNormal from htype) (by decide)
  | some page =>
      cases hashes' with
      | none =>
          exact absurd (show some snpPageTypeNormal = some snpPageTypeZero from htype) (by decide)
      | some page' =>
          have hcontents := congrArg (fun infos => infos[1]?.map PageInfo.contents) h
          have hhash : sha384 page = sha384 page' := Option.some.inj hcontents
          have hmem : ∀ p : Bytes, p ∈ hashedPages (kernelPages (some p)) := by
            intro p
            simp [hashedPages, kernelPages]
          rcases page_eq_or_collides (hmem page) (hmem page') hhash with rfl | hc
          · exact Or.inl rfl
          · exact Or.inr hc

theorem vmsa_decode {vcpus vcpus' : Nat} {vmmType : VmmType} (hv : 1 ≤ vcpus) (hv' : 1 ≤ vcpus')
    (h : (vmsaPages vcpus vmmType).map (PageUpdate.info sha384) =
      (vmsaPages vcpus' vmmType).map (PageUpdate.info sha384)) : vcpus = vcpus' := by
  have hlen := congrArg List.length h
  simp only [vmsaPages, List.length_map, List.length_cons, List.length_replicate] at hlen
  omega

def headType (infos : List PageInfo) : Option UInt8 := infos.head?.map PageInfo.pageType

/-- The page behind the secrets. -/
theorem headType_qemu (hashes : Option Bytes) (vmmType : VmmType) (tail : List PageInfo) :
    headType ((if vmmType = .qemu then [cpuidPage] else []).map (PageUpdate.info sha384) ++
      ((kernelPages hashes).map (PageUpdate.info sha384) ++ tail)) =
      some (if vmmType = .qemu then snpPageTypeCpuid else snpPageTypeZero) := by
  cases vmmType <;> cases hashes <;> rfl

/-- The page behind the kernel pages. -/
theorem headType_ec2 (vcpus : Nat) (vmmType vmmType' : VmmType) :
    headType ((if vmmType = .ec2 then [cpuidPage] else []).map (PageUpdate.info sha384) ++
      (vmsaPages vcpus vmmType').map (PageUpdate.info sha384)) =
      some (if vmmType = .ec2 then snpPageTypeCpuid else snpPageTypeVmsa) := by
  cases vmmType <;> rfl

/-- The rest of the sequence determines the kernel page, the virtual CPUs and the VMM. -/
theorem rest_decode {hashes hashes' : Option Bytes} {vcpus vcpus' : Nat}
    {vmmType vmmType' : VmmType} (hv : 1 ≤ vcpus) (hv' : 1 ≤ vcpus')
    (h : (restPages hashes vcpus vmmType).map (PageUpdate.info sha384) =
      (restPages hashes' vcpus' vmmType').map (PageUpdate.info sha384)) :
    (hashes = hashes' ∨
      HashChain.Collides sha384 (hashedPages (kernelPages hashes))
        (hashedPages (kernelPages hashes'))) ∧ vcpus = vcpus' ∧ vmmType = vmmType' := by
  simp only [restPages, List.map_append, List.append_cancel_left_eq] at h
  have hqemu : vmmType = .qemu ↔ vmmType' = .qemu := by
    have htypes := congrArg headType h
    rw [headType_qemu, headType_qemu] at htypes
    by_cases hq : vmmType = .qemu <;> by_cases hq' : vmmType' = .qemu <;>
      simp [hq, hq', snpPageTypeCpuid, snpPageTypeZero] at htypes ⊢
  rw [if_congr hqemu rfl rfl] at h
  have htail := List.append_cancel_left h
  have hlen : ((kernelPages hashes).map (PageUpdate.info sha384)).length =
      ((kernelPages hashes').map (PageUpdate.info sha384)).length := by
    simp only [List.length_map, kernelPages_length]
  obtain ⟨hkernel, hlast⟩ := List.append_inj htail hlen
  have hec2 : vmmType = .ec2 ↔ vmmType' = .ec2 := by
    have htypes := congrArg headType hlast
    rw [headType_ec2, headType_ec2] at htypes
    by_cases he : vmmType = .ec2 <;> by_cases he' : vmmType' = .ec2 <;>
      simp [he, he', snpPageTypeCpuid, snpPageTypeVmsa] at htypes ⊢
  have hvmm : vmmType = vmmType' := by
    cases vmmType <;> cases vmmType' <;> simp_all
  subst hvmm
  exact ⟨kernel_decode hkernel, vmsa_decode hv hv' (List.append_cancel_left hlast), rfl⟩

/-! ## Two runs -/

/-- A run that wrote the register got through all of its pages. -/
theorem run_of_success {args : SnpArgs} {ret : Int} {out : SnpRun}
    (hrun : run (calculateMr sha256 sha384 args) SnpRun.start = .ok (ret, out))
    (hsuccess : out.mr.isSome) :
    out.updates = pagesOf sha256 args ∧ out.mr = some (launchDigest sha384 out.updates) := by
  by_cases hread : BuffersRead args
  · by_cases hfault : NoFault args
    · rw [run_of_noFault sha256 sha384 hread hfault] at hrun
      cases hrun
      exact ⟨rfl, rfl⟩
    · rw [run_of_fault hread hfault] at hrun
      cases hrun
  · rw [run_of_readFailure hread] at hrun
    cases hrun
    simp [SnpRun.start] at hsuccess

theorem hashedPages_append (us vs : List PageUpdate) :
    hashedPages (us ++ vs) = hashedPages us ++ hashedPages vs := by simp [hashedPages]

theorem firmwarePages_hashed (sha256 : Md 32) (args : SnpArgs) :
    ∀ b ∈ hashedPages (firmwarePages args.ovmf.content), b ∈ hashedPages (pagesOf sha256 args) := by
  intro b hb
  rw [pagesOf, launchPages_eq, hashedPages_append]
  exact List.mem_append_left _ hb

theorem kernelPages_hashed (sha256 : Md 32) (args : SnpArgs) :
    ∀ b ∈ hashedPages (kernelPages (hashPage sha256 args)),
      b ∈ hashedPages (pagesOf sha256 args) := by
  intro b hb
  simp only [pagesOf, launchPages, hashedPages_append, List.mem_append]
  exact Or.inl (Or.inl (Or.inr hb))

/-- Two successful runs with one launch digest had the same firmware, hash-table page,
virtual CPUs and VMM, unless strings they hashed collide or hash to zero. -/
theorem launchDigest_binding (sha256 : Md 32) (sha384 : Md 48) (args args' : SnpArgs)
    (hwhole : 4096 ∣ args.ovmf.content.length) (hwhole' : 4096 ∣ args'.ovmf.content.length)
    (hv : 1 ≤ args.vcpus) (hv' : 1 ≤ args'.vcpus) (ret ret' : Int) (out out' : SnpRun)
    (hrun : run (calculateMr sha256 sha384 args) SnpRun.start = .ok (ret, out))
    (hrun' : run (calculateMr sha256 sha384 args') SnpRun.start = .ok (ret', out'))
    (hsuccess : out.mr.isSome) (hsame : out.mr = out'.mr) :
    (args.ovmf.content = args'.ovmf.content ∧ hashPage sha256 args = hashPage sha256 args' ∧
      args.vcpus = args'.vcpus ∧ args.vmmType = args'.vmmType) ∨
    HashChain.Collides sha384 (hashedStrings sha384 out.updates)
      (hashedStrings sha384 out'.updates) ∨
    HashChain.Hits sha384 (zeroDigest 48)
      (hashedStrings sha384 out.updates ++ hashedStrings sha384 out'.updates) := by
  obtain ⟨hupdates, hmr⟩ := run_of_success hrun hsuccess
  obtain ⟨hupdates', hmr'⟩ := run_of_success hrun' (hsame ▸ hsuccess)
  have hdigest : launchDigest sha384 out.updates = launchDigest sha384 out'.updates := by
    rw [hmr, hmr'] at hsame
    exact Option.some.inj hsame
  have hpages : ∀ us : List PageUpdate, ∀ b ∈ hashedPages us, b ∈ hashedStrings sha384 us :=
    fun us b hb => List.mem_append_left _ hb
  have hinfos : ∀ us : List PageUpdate, ∀ b ∈ HashChain.hashed sha384 pageInfoBytes
      (zeroDigest 48) (us.map (PageUpdate.info sha384)), b ∈ hashedStrings sha384 us :=
    fun us b hb => List.mem_append_right _ hb
  rcases HashChain.binding (I := fun _ => True) (P := fun _ => True) trivial (fun _ => trivial)
    (fun _ _ _ _ _ _ _ _ h => pageInfoBytes_inj h) (fun _ _ => trivial) (fun _ _ => trivial)
    hdigest with hchain | hcollides | hhits
  · rw [hupdates, hupdates'] at hchain
    obtain ⟨hfirmware, hrest⟩ := split_firmware hchain
    obtain ⟨hkernel, hvcpus, hvmm⟩ := rest_decode hv hv' hrest
    rcases firmware_decode hwhole hwhole' hfirmware with hovmf | hcollides
    · rcases hkernel with hkernel | hcollides
      · exact Or.inl ⟨hovmf, hkernel, hvcpus, hvmm⟩
      · refine Or.inr (Or.inl (hcollides.mono ?_ ?_))
        · exact fun b hb => hpages _ b (hupdates ▸ kernelPages_hashed sha256 args b hb)
        · exact fun b hb => hpages _ b (hupdates' ▸ kernelPages_hashed sha256 args' b hb)
    · refine Or.inr (Or.inl (hcollides.mono ?_ ?_))
      · exact fun b hb => hpages _ b (hupdates ▸ firmwarePages_hashed sha256 args b hb)
      · exact fun b hb => hpages _ b (hupdates' ▸ firmwarePages_hashed sha256 args' b hb)
  · exact Or.inr (Or.inl (hcollides.mono (hinfos _) (hinfos _)))
  · refine Or.inr (Or.inr (hhits.mono fun b hb => ?_))
    rcases List.mem_append.mp hb with hb | hb
    · exact List.mem_append_left _ (hinfos _ b hb)
    · exact List.mem_append_right _ (hinfos _ b hb)

/-- One page of firmware and one virtual CPU. -/
def onePage : SnpArgs where
  ovmf := File.intact (ascii "OVMF.fd") (zeros 4096) (by simp)
  kernel := none
  initrd := none
  cmdline := none
  cmdlineAllocated := true
  vcpus := 1
  vmmType := .qemu

theorem onePage_read : BuffersRead onePage :=
  ⟨File.intact_readable _ _ _, fun f hf => by simp [onePage] at hf⟩

theorem onePage_noFault : NoFault onePage :=
  ⟨by simp [onePage, File.intact], fun _ => rfl⟩

/-- The same with a command line that has no memory, which only matters with a kernel. -/
def onePageCopy : SnpArgs :=
  { onePage with
    ovmf := File.intact (ascii "OVMF_CODE.fd") (zeros 4096) (by simp)
    cmdlineAllocated := false }

theorem onePageCopy_read : BuffersRead onePageCopy :=
  ⟨File.intact_readable _ _ _, fun f hf => by simp [onePageCopy, onePage] at hf⟩

theorem onePageCopy_noFault : NoFault onePageCopy :=
  ⟨by simp [onePageCopy, File.intact], fun hsome => by simp [onePageCopy, onePage] at hsome⟩

theorem launchDigest_binding_onePage :
    ∃ out out', run (calculateMr Sha256.sha256 Sha384.sha384 onePage) SnpRun.start =
        .ok (0, out) ∧
      run (calculateMr Sha256.sha256 Sha384.sha384 onePageCopy) SnpRun.start = .ok (0, out') ∧
      ((onePage.ovmf.content = onePageCopy.ovmf.content ∧
        hashPage Sha256.sha256 onePage = hashPage Sha256.sha256 onePageCopy ∧
        onePage.vcpus = onePageCopy.vcpus ∧ onePage.vmmType = onePageCopy.vmmType) ∨
      HashChain.Collides Sha384.sha384 (hashedStrings Sha384.sha384 out.updates)
        (hashedStrings Sha384.sha384 out'.updates) ∨
      HashChain.Hits Sha384.sha384 (zeroDigest 48)
        (hashedStrings Sha384.sha384 out.updates ++
          hashedStrings Sha384.sha384 out'.updates)) := by
  have hrun := run_of_noFault Sha256.sha256 Sha384.sha384 onePage_read onePage_noFault
  have hrun' := run_of_noFault Sha256.sha256 Sha384.sha384 onePageCopy_read onePageCopy_noFault
  exact ⟨_, _, hrun, hrun', launchDigest_binding _ _ onePage onePageCopy
    onePage_noFault.wholePages onePageCopy_noFault.wholePages (by decide) (by decide) _ _ _ _
    hrun hrun' rfl rfl⟩

end MeasuredBoot.Snp
