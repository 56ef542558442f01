import MeasuredBoot.Common.Sha2
import MeasuredBoot.Snp.LaunchDigest
import Mathlib.Data.List.Nodup
import Mathlib.Data.List.Perm.Basic

/-! # The pages of the guest a launch covers

Where the updates of `calculate_mr` lie in guest memory: the firmware below 4 GiB,
the fixed pages below 0x820000, and the save areas of the virtual CPUs.
-/

namespace MeasuredBoot.Snp

open Binary Imperative Imperative.Proc

/-! ## The layout -/

/-- A page that every configuration measures for a firmware of `size` bytes. -/
def InLayout (size gpa : Nat) : Prop :=
  4096 ∣ gpa ∧ (0x100000000 - size ≤ gpa ∧ gpa < 0x100000000 ∨
    0x800000 ≤ gpa ∧ gpa < 0x820000 ∧ gpa ≠ 0x809000)

/-- The pages hold the firmware in order, each byte once, byte `k` at 4 GiB - size + k. -/
structure FirmwareCovered (ovmf : Bytes) (pages : List PageUpdate) : Prop where
  bytes : (pages.filterMap (·.page)).flatten = ovmf
  place : ∀ k < ovmf.length, ∃ u page, pages[k / 4096]? = some u ∧ u.page = some page ∧
    page.length = 4096 ∧ page[k % 4096]? = ovmf[k]? ∧
    u.gpa.toNat + k % 4096 = 0x100000000 - ovmf.length + k

/-- One save area for each virtual CPU, the first for the reset vector. -/
structure VmsaPages (vcpus : Nat) (vmmType : VmmType) (pages : List PageUpdate) : Prop where
  count : pages.length = vcpus
  type : ∀ u ∈ pages, u.pageType = snpPageTypeVmsa
  first : ∀ u, pages[0]? = some u → u.page = some (vmcbSaveAreaInit 0xfffffff0 vmmType)
  others : ∀ i u, 0 < i → pages[i]? = some u → u.page = some (vmcbSaveAreaInit 0x80b004 vmmType)

/-- The pages between the firmware and the save areas. -/
def lowPages (hashes : Option Bytes) (vmmType : VmmType) : List PageUpdate :=
  zeroPages 0x800000 0x809000 ++ zeroPages 0x80a000 0x80d000 ++
    [⟨none, snpPageTypeSecrets, 0x80d000⟩] ++
    (if vmmType = .qemu then [cpuidPage] else []) ++ kernelPages hashes ++
    (if vmmType = .ec2 then [cpuidPage] else [])

theorem launchPages_split (ovmf : Bytes) (hashes : Option Bytes) (vcpus : Nat)
    (vmmType : VmmType) :
    launchPages ovmf hashes vcpus vmmType =
      firmwarePages ovmf ++ lowPages hashes vmmType ++ vmsaPages vcpus vmmType := by
  simp only [launchPages, lowPages, List.append_assoc]

/-! ## The fixed pages -/

/-- The addresses below 0x820000. The page at 0x809000 is left out. -/
def lowGpas : List Nat :=
  ((List.range 32).filter (· ≠ 9)).map fun i => 0x800000 + 4096 * i

theorem lowGpas_nodup : lowGpas.Nodup := by decide +kernel

theorem mem_lowGpas {gpa : Nat} :
    gpa ∈ lowGpas ↔ 4096 ∣ gpa ∧ 0x800000 ≤ gpa ∧ gpa < 0x820000 ∧ gpa ≠ 0x809000 := by
  simp only [lowGpas, List.mem_map, List.mem_filter, List.mem_range, decide_eq_true_eq]
  constructor
  · rintro ⟨i, ⟨hi, hne⟩, rfl⟩
    omega
  · rintro ⟨⟨q, rfl⟩, hlow, hhigh, hne⟩
    exact ⟨q - 2048, by omega, by omega⟩

/-- Each of the four configurations measures the same fixed addresses, in its own order. -/
theorem lowPages_gpas (hashes : Option Bytes) {vmmType : VmmType}
    (h : vmmType = .qemu ∨ vmmType = .ec2) :
    ((lowPages hashes vmmType).map (·.gpa.toNat)).Perm lowGpas := by
  -- only whether there is a hash-table page matters, not what it holds
  have hpage : ∀ page, (kernelPages (some page)).map (·.gpa.toNat) =
      (kernelPages (some [])).map (·.gpa.toNat) := fun _ => rfl
  cases hashes with
  | none => rcases h with rfl | rfl <;> decide +kernel
  | some page =>
      have hsame : (lowPages (some page) vmmType).map (·.gpa.toNat) =
          (lowPages (some []) vmmType).map (·.gpa.toNat) := by
        simp only [lowPages, List.map_append, hpage page]
      rw [hsame]
      rcases h with rfl | rfl <;> decide +kernel

theorem zero_ne_vmsa : snpPageTypeZero ≠ snpPageTypeVmsa := by decide

theorem normal_ne_vmsa : snpPageTypeNormal ≠ snpPageTypeVmsa := by decide

theorem lowPages_mem {hashes : Option Bytes} {vmmType : VmmType} {u : PageUpdate}
    (h : u ∈ lowPages hashes vmmType) :
    (u.page = none ∨ u.page = hashes) ∧ u.pageType ≠ snpPageTypeVmsa := by
  have hzero : ∀ first last, u ∈ zeroPages first last →
      (u.page = none ∨ u.page = hashes) ∧ u.pageType ≠ snpPageTypeVmsa := by
    intro first last hu
    obtain ⟨i, -, rfl⟩ := List.mem_map.mp hu
    exact ⟨Or.inl rfl, zero_ne_vmsa⟩
  have hcpuid : ∀ vmm : VmmType, u ∈ (if vmmType = vmm then [cpuidPage] else []) →
      (u.page = none ∨ u.page = hashes) ∧ u.pageType ≠ snpPageTypeVmsa := by
    intro vmm hu
    split at hu
    · obtain rfl := List.mem_singleton.mp hu
      exact ⟨Or.inl rfl, by decide⟩
    · cases hu
  simp only [lowPages, List.mem_append] at h
  rcases h with ((((hu | hu) | hu) | hu) | hu) | hu
  · exact hzero _ _ hu
  · exact hzero _ _ hu
  · obtain rfl := List.mem_singleton.mp hu
    exact ⟨Or.inl rfl, by decide⟩
  · exact hcpuid _ hu
  · cases hashes with
    | none => exact hzero _ _ hu
    | some page =>
        rcases List.mem_cons.mp hu with rfl | hu
        · exact ⟨Or.inl rfl, by decide⟩
        · rcases List.mem_cons.mp hu with rfl | hu
          · exact ⟨Or.inr rfl, normal_ne_vmsa⟩
          · exact hzero _ _ hu
  · exact hcpuid _ hu

/-! ## The firmware pages -/

section Firmware

variable {ovmf : Bytes}

theorem firmwarePages_getElem? {i : Nat} (hi : i < ovmf.length / 4096) :
    (firmwarePages ovmf)[i]? = some ⟨some (slice ovmf (4096 * i) 4096), snpPageTypeNormal,
      0x100000000 - UInt64.ofNat ovmf.length + UInt64.ofNat (4096 * i)⟩ := by
  simp [firmwarePages, hi]

/-- The 64-bit address of a firmware page is the exact one up to 4 GiB. -/
theorem firmwareGpa_toNat (hsize : ovmf.length ≤ 0x100000000) {i : Nat}
    (hi : i < ovmf.length / 4096) :
    (0x100000000 - UInt64.ofNat ovmf.length + UInt64.ofNat (4096 * i)).toNat =
      0x100000000 - ovmf.length + 4096 * i := by
  have hlen : (UInt64.ofNat ovmf.length).toNat = ovmf.length := by
    simp only [UInt64.toNat_ofNat']
    omega
  have hround : (UInt64.ofNat (4096 * i)).toNat = 4096 * i := by
    simp only [UInt64.toNat_ofNat']
    omega
  rw [UInt64.toNat_add, UInt64.toNat_sub, hlen, hround]
  simp only [UInt64.reduceToNat]
  omega

theorem firmwarePages_covered (hwhole : 4096 ∣ ovmf.length)
    (hsize : ovmf.length ≤ 0x100000000) : FirmwareCovered ovmf (firmwarePages ovmf) where
  bytes := by
    have hpages : (firmwarePages ovmf).filterMap (·.page) =
        (List.range (ovmf.length / 4096)).map fun i => slice ovmf (4096 * i) 4096 := by
      simp [firmwarePages, List.filterMap_map]
    have hprefix : ∀ n, n ≤ ovmf.length / 4096 →
        ((List.range n).map fun i => slice ovmf (4096 * i) 4096).flatten =
          ovmf.take (4096 * n) := by
      intro n hn
      induction n with
      | zero => simp
      | succ n ih =>
          rw [List.range_succ, List.map_append, List.flatten_append, ih (by omega)]
          simp only [List.map_singleton, List.flatten_singleton, slice]
          rw [Nat.mul_succ, List.take_add]
    rw [hpages, hprefix _ le_rfl, List.take_of_length_le (by omega)]
  place k hk := by
    have hi : k / 4096 < ovmf.length / 4096 := by omega
    refine ⟨_, _, firmwarePages_getElem? hi, rfl, slice_length (by omega), ?_, ?_⟩
    · rw [slice, List.getElem?_take_of_lt (by omega), List.getElem?_drop, Nat.div_add_mod]
    · have hgpa := firmwareGpa_toNat hsize hi
      change UInt64.toNat _ + _ = _
      rw [hgpa]
      omega

theorem gpas_of_range {n : Nat} {page : Nat → Option Bytes} {type : UInt8} {gpa : Nat → UInt64}
    {address : Nat → Nat} (h : ∀ i < n, (gpa i).toNat = address i) :
    ((List.range n).map fun i => PageUpdate.mk (page i) type (gpa i)).map (·.gpa.toNat) =
      (List.range n).map address := by
  rw [List.map_map]
  exact List.map_congr_left fun i hi => h i (List.mem_range.mp hi)

theorem firmwarePages_gpas (hsize : ovmf.length ≤ 0x100000000) :
    (firmwarePages ovmf).map (·.gpa.toNat) =
      (List.range (ovmf.length / 4096)).map fun i => 0x100000000 - ovmf.length + 4096 * i :=
  gpas_of_range fun _ hi => firmwareGpa_toNat hsize hi

theorem mem_firmwareGpas (hwhole : 4096 ∣ ovmf.length) (hsize : ovmf.length ≤ 0x100000000)
    {gpa : Nat} :
    gpa ∈ (firmwarePages ovmf).map (·.gpa.toNat) ↔
      4096 ∣ gpa ∧ 0x100000000 - ovmf.length ≤ gpa ∧ gpa < 0x100000000 := by
  rw [firmwarePages_gpas hsize, List.mem_map]
  simp only [List.mem_range]
  constructor
  · rintro ⟨i, hi, rfl⟩
    omega
  · rintro ⟨hpage, hlow, hhigh⟩
    exact ⟨(gpa - (0x100000000 - ovmf.length)) / 4096, by omega, by omega⟩

theorem firmwareGpas_nodup (hsize : ovmf.length ≤ 0x100000000) :
    ((firmwarePages ovmf).map (·.gpa.toNat)).Nodup := by
  rw [firmwarePages_gpas hsize]
  refine List.nodup_range.map fun i j heq => ?_
  change 0x100000000 - ovmf.length + 4096 * i = 0x100000000 - ovmf.length + 4096 * j at heq
  omega

end Firmware

theorem vmsaPages_spec {vcpus : Nat} (h : 1 ≤ vcpus) (vmmType : VmmType) :
    VmsaPages vcpus vmmType (vmsaPages vcpus vmmType) where
  count := by
    simp only [vmsaPages, List.length_cons, List.length_replicate]
    omega
  type u hu := by
    rcases List.mem_cons.mp hu with rfl | hu
    · rfl
    · rw [List.eq_of_mem_replicate hu]
  first u hu := by
    obtain rfl := Option.some.inj hu
    rfl
  others i u hi hu := by
    obtain ⟨j, rfl⟩ : ∃ j, i = j + 1 := ⟨i - 1, by omega⟩
    have hmem : u ∈ List.replicate (vcpus - 1) _ := List.mem_of_getElem? hu
    rw [List.eq_of_mem_replicate hmem]

/-! ## Coverage of a run -/

/-- The updates of a run cover the guest: the firmware, the fixed pages of the layout
that is the same for every configuration, no page twice, and the save areas. -/
def CoversGuest (ovmf : Bytes) (hashes : Option Bytes) (vcpus : Nat) (vmmType : VmmType)
    (updates : List PageUpdate) : Prop :=
  ∃ firmware low vmsas, updates = firmware ++ low ++ vmsas ∧
    FirmwareCovered ovmf firmware ∧
    (∀ u ∈ low, u.page = none ∨ u.page = hashes) ∧
    (∀ u ∈ firmware ++ low, u.pageType ≠ snpPageTypeVmsa) ∧
    ((firmware ++ low).map (·.gpa)).Nodup ∧
    (∀ gpa, (∃ u ∈ firmware ++ low, u.gpa.toNat = gpa) ↔ InLayout ovmf.length gpa) ∧
    VmsaPages vcpus vmmType vmsas

theorem launchPages_coversGuest {ovmf : Bytes} {vcpus : Nat} {vmmType : VmmType}
    (hashes : Option Bytes) (hwhole : 4096 ∣ ovmf.length)
    (hsize : ovmf.length ≤ 0x100000000 - 0x820000) (hvcpus : 1 ≤ vcpus)
    (hvmm : vmmType = .qemu ∨ vmmType = .ec2) :
    CoversGuest ovmf hashes vcpus vmmType (launchPages ovmf hashes vcpus vmmType) := by
  have hsize' : ovmf.length ≤ 0x100000000 := by omega
  have hlow := lowPages_gpas hashes hvmm
  have hfirmware : ∀ gpa, gpa ∈ (firmwarePages ovmf).map (·.gpa.toNat) ↔ _ :=
    fun gpa => mem_firmwareGpas hwhole hsize'
  refine ⟨_, _, _, launchPages_split ovmf hashes vcpus vmmType,
    firmwarePages_covered hwhole hsize', fun u hu => (lowPages_mem hu).1, ?_, ?_, ?_,
    vmsaPages_spec hvcpus vmmType⟩
  · intro u hu
    rcases List.mem_append.mp hu with hu | hu
    · obtain ⟨i, -, rfl⟩ := List.mem_map.mp hu
      exact normal_ne_vmsa
    · exact (lowPages_mem hu).2
  · -- the addresses are distinct as numbers: the firmware starts above the fixed pages
    have hnodup : ((firmwarePages ovmf ++ lowPages hashes vmmType).map (·.gpa.toNat)).Nodup := by
      rw [List.map_append]
      refine List.Nodup.append (firmwareGpas_nodup hsize') (hlow.nodup_iff.mpr lowGpas_nodup) ?_
      intro gpa hgpa hgpa'
      have hhigh := (hfirmware gpa).mp hgpa
      have hlow' := mem_lowGpas.mp (hlow.mem_iff.mp hgpa')
      omega
    refine List.Nodup.of_map UInt64.toNat ?_
    rwa [List.map_map]
  · intro gpa
    have hsplit : (∃ u ∈ firmwarePages ovmf ++ lowPages hashes vmmType, u.gpa.toNat = gpa) ↔
        gpa ∈ (firmwarePages ovmf).map (·.gpa.toNat) ∨
          gpa ∈ (lowPages hashes vmmType).map (·.gpa.toNat) := by
      rw [← List.mem_append, ← List.map_append, List.mem_map]
    rw [hsplit, hfirmware, hlow.mem_iff, mem_lowGpas, InLayout]
    omega

/-- Every run over a firmware that fits above the fixed pages covers the guest. -/
theorem calculateMr_coversGuest (sha256 : Md 32) (sha384 : Md 48) (args : SnpArgs)
    (hwhole : 4096 ∣ args.ovmf.content.length)
    (hsize : args.ovmf.content.length ≤ 0x100000000 - 0x820000) (hvcpus : 1 ≤ args.vcpus)
    (hvmm : args.vmmType = .qemu ∨ args.vmmType = .ec2) (hread : BuffersRead args)
    (halloc : args.cmdline.isSome → args.cmdlineAllocated = true) :
    ∃ out, run (calculateMr sha256 sha384 args) SnpRun.start = .ok (0, out) ∧
      CoversGuest args.ovmf.content (hashPage sha256 args) args.vcpus args.vmmType
        out.updates :=
  ⟨_, run_of_noFault sha256 sha384 hread ⟨hwhole, halloc⟩,
    launchPages_coversGuest _ hwhole hsize hvcpus hvmm⟩

/-- Two pages of firmware, two virtual CPUs and a kernel under EC2. -/
def twoPagesEc2 : SnpArgs where
  ovmf := File.intact (ascii "OVMF.fd") (zeros 8192) (by simp)
  kernel := some (File.intact (ascii "kernel") [1] (by decide))
  initrd := none
  cmdline := none
  cmdlineAllocated := true
  vcpus := 2
  vmmType := .ec2

theorem calculateMr_coversGuest_twoPagesEc2 :
    ∃ out, run (calculateMr Sha256.sha256 Sha384.sha384 twoPagesEc2) SnpRun.start =
        .ok (0, out) ∧
      CoversGuest (zeros 8192) (hashPage Sha256.sha256 twoPagesEc2) 2 .ec2 out.updates := by
  have hlen : twoPagesEc2.ovmf.content.length = 8192 := zeros_length 8192
  exact calculateMr_coversGuest _ _ twoPagesEc2 (by omega) (by omega) (by decide)
    (Or.inr rfl) ⟨File.intact_readable _ _ _, fun f hf => by cases hf⟩ fun _ => rfl

/-! ## Firmware of any size -/

/-- The updates of the loop over the firmware: no other page in front of the first zero
page is a normal one. -/
def firmwareUpdates (updates : List PageUpdate) : List PageUpdate :=
  updates.takeWhile fun u => u.pageType = snpPageTypeNormal

/-- The firmware pages are whole pages of the file and lie below 4 GiB. -/
def FirmwareInBounds (ovmf : Bytes) (updates : List PageUpdate) : Prop :=
  ∀ u ∈ firmwareUpdates updates,
    (∃ off, off + 4096 ≤ ovmf.length ∧ u.page = some (slice ovmf off 4096)) ∧
      u.gpa.toNat < 0x100000000

/-- `calculate_mr` returns, with a status that is not 0 or firmware pages in bounds. -/
def FirmwareSafe (sha256 : Md 32) (sha384 : Md 48) (args : SnpArgs) : Prop :=
  ∃ ret out, run (calculateMr sha256 sha384 args) SnpRun.start = .ok (ret, out) ∧
    (ret ≠ 0 ∨ FirmwareInBounds args.ovmf.content out.updates)

theorem firmwareUpdates_launchPages (ovmf : Bytes) (hashes : Option Bytes) (vcpus : Nat)
    (vmmType : VmmType) :
    firmwareUpdates (launchPages ovmf hashes vcpus vmmType) = firmwarePages ovmf := by
  have hall : ∀ u ∈ firmwarePages ovmf, decide (u.pageType = snpPageTypeNormal) = true := by
    intro u hu
    obtain ⟨i, -, rfl⟩ := List.mem_map.mp hu
    rfl
  have hrest : (lowPages hashes vmmType ++ vmsaPages vcpus vmmType).takeWhile
      (fun u => decide (u.pageType = snpPageTypeNormal)) = [] := by rfl
  rw [firmwareUpdates, launchPages_split, List.append_assoc,
    List.takeWhile_append_of_pos hall, hrest, List.append_nil]

theorem firmwareInBounds_iff {ovmf : Bytes} (hlt : ovmf.length < 2 ^ 63)
    (hwhole : 4096 ∣ ovmf.length) (hashes : Option Bytes) (vcpus : Nat) (vmmType : VmmType) :
    FirmwareInBounds ovmf (launchPages ovmf hashes vcpus vmmType) ↔
      ovmf.length ≤ 0x100000000 := by
  unfold FirmwareInBounds
  rw [firmwareUpdates_launchPages]
  constructor
  · intro h
    by_contra hnot
    -- the first page of a larger file has an address that wraps below 0
    have hpage : 0 < ovmf.length / 4096 := by omega
    have hmem := List.mem_of_getElem? (firmwarePages_getElem? hpage)
    have hgpa := (h _ hmem).2
    have hlen : (UInt64.ofNat ovmf.length).toNat = ovmf.length := by
      simp only [UInt64.toNat_ofNat']
      omega
    have hzero : (UInt64.ofNat (4096 * 0)).toNat = 0 := rfl
    simp only [UInt64.toNat_add, hzero, UInt64.toNat_sub, hlen, UInt64.reduceToNat] at hgpa
    omega
  · intro hsize u hu
    have hgpa := List.mem_map_of_mem (f := fun u : PageUpdate => u.gpa.toNat) hu
    rw [firmwarePages_gpas hsize] at hgpa
    obtain ⟨j, hj, hgpa⟩ := List.mem_map.mp hgpa
    have hj' := List.mem_range.mp hj
    obtain ⟨i, hi, rfl⟩ := List.mem_map.mp hu
    have hi' := List.mem_range.mp hi
    exact ⟨⟨4096 * i, by omega, rfl⟩, by rw [← hgpa]; omega⟩

/-- The firmware is hashed in bounds exactly if it is not read at all, or it is whole pages
of at most 4 GiB and the copy of the command line can be made. -/
theorem firmwareSafe_iff (sha256 : Md 32) (sha384 : Md 48) (args : SnpArgs) :
    FirmwareSafe sha256 sha384 args ↔
      ¬BuffersRead args ∨ NoFault args ∧ args.ovmf.content.length ≤ 0x100000000 := by
  by_cases hread : BuffersRead args
  · by_cases hfault : NoFault args
    · have hrun := run_of_noFault sha256 sha384 hread hfault
      have hbounds := firmwareInBounds_iff args.ovmf.size_lt hfault.wholePages
        (hashPage sha256 args) args.vcpus args.vmmType
      constructor
      · rintro ⟨ret, out, hrun', hsafe⟩
        rw [hrun] at hrun'
        cases hrun'
        exact Or.inr ⟨hfault, hbounds.mp (hsafe.resolve_left (by decide))⟩
      · intro h
        have hsize := (h.resolve_left (not_not.mpr hread)).2
        exact ⟨0, _, hrun, Or.inr (hbounds.mpr hsize)⟩
    · constructor
      · rintro ⟨ret, out, hrun, -⟩
        rw [run_of_fault hread hfault] at hrun
        cases hrun
      · intro h
        exact absurd (h.resolve_left (not_not.mpr hread)).1 hfault
  · refine ⟨fun _ => Or.inl hread, fun _ => ⟨0, _, run_of_readFailure hread, Or.inr ?_⟩⟩
    intro u hu
    cases hu

/-- A firmware of one byte. -/
def oneByte : SnpArgs where
  ovmf := File.intact (ascii "OVMF.fd") [0] (by decide)
  kernel := none
  initrd := none
  cmdline := none
  cmdlineAllocated := true
  vcpus := 1
  vmmType := .qemu

theorem not_firmwareSafe_oneByte :
    ¬∀ (sha256 : Md 32) (sha384 : Md 48) (args : SnpArgs), FirmwareSafe sha256 sha384 args := by
  intro hall
  obtain ⟨ret, out, hrun, -⟩ := hall (fun _ => zeroDigest 32) (fun _ => zeroDigest 48) oneByte
  have hread : BuffersRead oneByte := ⟨File.intact_readable _ _ _, fun f hf => by cases hf⟩
  have hfault : ¬NoFault oneByte := fun h => absurd h.wholePages (by decide)
  rw [run_of_fault hread hfault] at hrun
  cases hrun

end MeasuredBoot.Snp
