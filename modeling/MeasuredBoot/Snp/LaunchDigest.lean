import MeasuredBoot.Lib.Emitter
import MeasuredBoot.Snp.Pages

/-! # The SNP launch digest

`calculate_mr` of `snp.c` with the sequence of pages it hashes.
-/

namespace MeasuredBoot.Snp

open Binary Imperative Imperative.Proc

/-! ## Launch updates -/

/-- One call of `page_info_update`: the page or `NULL`, its type and address. -/
structure PageUpdate where
  page : Option Bytes
  pageType : UInt8
  gpa : UInt64
  deriving DecidableEq

/-- The digest so far, the updates that led to it, and the register, once written. -/
structure SnpRun where
  digestCur : Digest 48
  updates : List PageUpdate
  mr : Option (Digest 48)

def SnpRun.start : SnpRun := ⟨zeroDigest 48, [], none⟩

/-- The page information of an update. -/
def PageUpdate.info (sha384 : Md 48) (u : PageUpdate) : PageInfo where
  contents := match u.page with
    | none => zeroDigest 48
    | some page => hashBuf sha384 page
  pageType := u.pageType
  gpa := u.gpa

/-- The digest after a sequence of updates. -/
def launchDigest (sha384 : Md 48) (updates : List PageUpdate) : Digest 48 :=
  HashChain.value sha384 pageInfoBytes (zeroDigest 48) (updates.map (PageUpdate.info sha384))

def SnpRun.update (sha384 : Md 48) (s : SnpRun) (u : PageUpdate) : SnpRun :=
  { s with
    digestCur := hashBuf sha384 (pageInfoBytes s.digestCur (u.info sha384))
    updates := s.updates ++ [u] }

def pageInfoUpdate (sha384 : Md 48) (page : Option Bytes) (type : UInt8) (gpa : UInt64) :
    Proc SnpRun Unit :=
  Proc.update fun s => s.update sha384 ⟨page, type, gpa⟩

/-! ## `calculate_mr` -/

/-- The arguments of `calculate_mr`, and whether the copy of the command line can be
allocated. -/
structure SnpArgs where
  ovmf : File
  kernel : Option File
  initrd : Option File
  cmdline : Option File
  cmdlineAllocated : Bool
  vcpus : Nat
  vmmType : VmmType

/-- The command line with its trailing zero; `NULL` without a file. -/
def readCmdline (args : SnpArgs) : Proc SnpRun Bytes :=
  match args.cmdline with
  | none => return []
  | some f =>
      match readFile f with
      | none => exit 0
      | some tmp => if args.cmdlineAllocated then return tmp.bytes ++ [0] else fault

/-- One round of the loop over the firmware. -/
def updateFirmwarePage (sha384 : Md 48) (ovmf : Buffer) (round : Nat) : Proc SnpRun Unit := do
  let offset := UInt64.ofNat round * 4096
  let page ← lift (copyFrom ovmf.bytes offset.toNat 4096)
  pageInfoUpdate sha384 (some page) snpPageTypeNormal (0x100000000 - ovmf.size + offset)

/-- The loop `for (gpa = first; gpa < last; gpa += 4096)` over zero pages. -/
def updateZeroPages (sha384 : Md 48) (first last : Nat) : Proc SnpRun Unit :=
  forEach (fun round => pageInfoUpdate sha384 none snpPageTypeZero
    (UInt64.ofNat (first + 4096 * round))) (List.range ((last - first) / 4096))

/-- The pages around the hash table, with and without a kernel. -/
def updateKernelPages (sha384 : Md 48) : Option Bytes → Proc SnpRun Unit
  | some hashes => do
      pageInfoUpdate sha384 none snpPageTypeZero 0x80f000
      pageInfoUpdate sha384 (some hashes) snpPageTypeNormal 0x810000
      updateZeroPages sha384 0x811000 0x820000
  | none => updateZeroPages sha384 0x80f000 0x820000

def vmsaGpa : UInt64 := 0xfffffffff000

/-- All updates, in the order of the source. -/
def updatePages (sha384 : Md 48) (args : SnpArgs) (ovmf : Buffer) (hashes : Option Bytes) :
    Proc SnpRun Unit := do
  forEach (updateFirmwarePage sha384 ovmf) (List.range ((ovmf.bytes.length + 4095) / 4096))
  updateZeroPages sha384 0x800000 0x809000
  updateZeroPages sha384 0x80a000 0x80d000
  pageInfoUpdate sha384 none snpPageTypeSecrets 0x80d000
  when (args.vmmType = .qemu) (pageInfoUpdate sha384 none snpPageTypeCpuid 0x80e000)
  updateKernelPages sha384 hashes
  when (args.vmmType = .ec2) (pageInfoUpdate sha384 none snpPageTypeCpuid 0x80e000)
  pageInfoUpdate sha384 (some (vmcbSaveAreaInit 0xfffffff0 args.vmmType)) snpPageTypeVmsa vmsaGpa
  forEach (fun _ => pageInfoUpdate sha384 (some (vmcbSaveAreaInit 0x80b004 args.vmmType))
    snpPageTypeVmsa vmsaGpa) (List.range (args.vcpus - 1))

/-- Every path to `out` returns 0. -/
def calculateMr (sha256 : Md 32) (sha384 : Md 48) (args : SnpArgs) : Proc SnpRun Int := do
  match readFile args.ovmf with
  | none => exit 0
  | some ovmf =>
      let cmdline ← readCmdline args
      let hashes := args.kernel.map fun kernel => hashesInit sha256 cmdline kernel args.initrd
      updatePages sha384 args ovmf hashes
      Proc.update fun s => { s with mr := some s.digestCur }
      return 0

/-! ## The page sequence -/

/-- The firmware pages, the first at 4 GiB minus the size. -/
def firmwarePages (ovmf : Bytes) : List PageUpdate :=
  (List.range (ovmf.length / 4096)).map fun i =>
    ⟨some (slice ovmf (4096 * i) 4096), snpPageTypeNormal,
      0x100000000 - UInt64.ofNat ovmf.length + UInt64.ofNat (4096 * i)⟩

def zeroPages (first last : Nat) : List PageUpdate :=
  (List.range ((last - first) / 4096)).map fun i =>
    ⟨none, snpPageTypeZero, UInt64.ofNat (first + 4096 * i)⟩

def cpuidPage : PageUpdate := ⟨none, snpPageTypeCpuid, 0x80e000⟩

/-- The pages between the firmware and the CPUID page of EC2. -/
def kernelPages : Option Bytes → List PageUpdate
  | some page =>
      ⟨none, snpPageTypeZero, 0x80f000⟩ :: ⟨some page, snpPageTypeNormal, 0x810000⟩ ::
        zeroPages 0x811000 0x820000
  | none => zeroPages 0x80f000 0x820000

def vmsaPages (vcpus : Nat) (vmmType : VmmType) : List PageUpdate :=
  ⟨some (vmcbSaveAreaInit 0xfffffff0 vmmType), snpPageTypeVmsa, vmsaGpa⟩ ::
    List.replicate (vcpus - 1)
      ⟨some (vmcbSaveAreaInit 0x80b004 vmmType), snpPageTypeVmsa, vmsaGpa⟩

/-- The full page sequence of a configuration. -/
def launchPages (ovmf : Bytes) (hashes : Option Bytes) (vcpus : Nat) (vmmType : VmmType) :
    List PageUpdate :=
  firmwarePages ovmf ++ zeroPages 0x800000 0x809000 ++ zeroPages 0x80a000 0x80d000 ++
    [⟨none, snpPageTypeSecrets, 0x80d000⟩] ++
    (if vmmType = .qemu then [cpuidPage] else []) ++ kernelPages hashes ++
    (if vmmType = .ec2 then [cpuidPage] else []) ++ vmsaPages vcpus vmmType

/-! ## The updates are the page sequence -/

section Updates

variable {sha384 : Md 48}

def snpSink (sha384 : Md 48) : Sink SnpRun PageUpdate where
  emit updates s := updates.foldl (SnpRun.update sha384) s
  emit_nil _ := rfl
  emit_append _ _ _ := List.foldl_append

theorem pageInfoUpdate_emits (page : Option Bytes) (type : UInt8) (gpa : UInt64) :
    Emits (snpSink sha384) 0 (pageInfoUpdate sha384 page type gpa) True [⟨page, type, gpa⟩] :=
  Emits.append (k := snpSink sha384) [⟨page, type, gpa⟩]

theorem loop_emits {body : Nat → Proc SnpRun Unit} {out : Nat → PageUpdate} (n : Nat)
    (h : ∀ i < n, Emits (snpSink sha384) 0 (body i) True [out i]) :
    Emits (snpSink sha384) 0 (forEach body (List.range n)) True ((List.range n).map out) := by
  refine (Emits.forRange n fun i hi _ => h i hi).congr (by simp) ?_
  simp [List.map_eq_flatMap]

theorem updateZeroPages_emits (first last : Nat) :
    Emits (snpSink sha384) 0 (updateZeroPages sha384 first last) True (zeroPages first last) :=
  loop_emits _ fun _ _ => pageInfoUpdate_emits none snpPageTypeZero _

/-- The 64-bit offset of a round inside the image is exact. -/
theorem round_offset (ovmf : Buffer) (i : Nat) (h : 4096 * i ≤ ovmf.bytes.length) :
    (UInt64.ofNat i * 4096).toNat = 4096 * i := by
  have hsize := ovmf.size_lt
  have hi : (UInt64.ofNat i).toNat = i := by
    simp only [UInt64.toNat_ofNat']
    omega
  rw [UInt64.toNat_mul, hi]
  simp only [UInt64.reduceToNat]
  omega

theorem updateFirmwarePage_emits (sha384 : Md 48) (ovmf : Buffer) (i : Nat)
    (h : 4096 * i + 4096 ≤ ovmf.bytes.length) :
    Emits (snpSink sha384) 0 (updateFirmwarePage sha384 ovmf i) True
      [⟨some (slice ovmf.bytes (4096 * i) 4096), snpPageTypeNormal,
        0x100000000 - UInt64.ofNat ovmf.bytes.length + UInt64.ofNat (4096 * i)⟩] := by
  have hoff := round_offset ovmf i (by omega)
  have hgpa : UInt64.ofNat i * 4096 = UInt64.ofNat (4096 * i) := by
    simp [UInt64.ofNat_mul, UInt64.mul_comm]
  unfold updateFirmwarePage
  dsimp only
  rw [hoff, copyFrom_ok h, hgpa]
  exact pageInfoUpdate_emits _ _ _

theorem firmwareLoop_emits (sha384 : Md 48) {ovmf : Buffer} (h : 4096 ∣ ovmf.bytes.length) :
    Emits (snpSink sha384) 0 (forEach (updateFirmwarePage sha384 ovmf)
      (List.range ((ovmf.bytes.length + 4095) / 4096))) True (firmwarePages ovmf.bytes) := by
  have hrounds : (ovmf.bytes.length + 4095) / 4096 = ovmf.bytes.length / 4096 := by omega
  rw [hrounds]
  exact loop_emits _ fun i hi => updateFirmwarePage_emits sha384 ovmf i (by omega)

theorem updateKernelPages_emits (hashes : Option Bytes) :
    Emits (snpSink sha384) 0 (updateKernelPages sha384 hashes) True (kernelPages hashes) := by
  cases hashes with
  | none => exact updateZeroPages_emits _ _
  | some page =>
      exact ((pageInfoUpdate_emits _ _ _).seq fun _ => (pageInfoUpdate_emits _ _ _).seq fun _ =>
        updateZeroPages_emits _ _).congr (by simp) rfl

theorem updatePages_emits (sha384 : Md 48) (args : SnpArgs) (ovmf : Buffer) (hashes : Option Bytes)
    (h : 4096 ∣ ovmf.bytes.length) :
    Emits (snpSink sha384) 0 (updatePages sha384 args ovmf hashes) True
      (launchPages ovmf.bytes hashes args.vcpus args.vmmType) := by
  have hcpuid : ∀ vmm : VmmType, Emits (snpSink sha384) 0
      (when (args.vmmType = vmm) (pageInfoUpdate sha384 none snpPageTypeCpuid 0x80e000)) True
      (if args.vmmType = vmm then [cpuidPage] else []) := fun vmm =>
    (Emits.guarded fun _ => pageInfoUpdate_emits _ _ _).congr (by split <;> simp) rfl
  have hvmsa : Emits (snpSink sha384) 0 (do
      pageInfoUpdate sha384 (some (vmcbSaveAreaInit 0xfffffff0 args.vmmType)) snpPageTypeVmsa
        vmsaGpa
      forEach (fun _ => pageInfoUpdate sha384 (some (vmcbSaveAreaInit 0x80b004 args.vmmType))
        snpPageTypeVmsa vmsaGpa) (List.range (args.vcpus - 1))) True
      (vmsaPages args.vcpus args.vmmType) := by
    refine ((pageInfoUpdate_emits _ _ _).seq fun _ => loop_emits _ fun _ _ =>
      pageInfoUpdate_emits _ _ _).congr (by simp) ?_
    simp [vmsaPages, List.map_const']
  have hall := (firmwareLoop_emits sha384 h).seq fun _ =>
    (updateZeroPages_emits 0x800000 0x809000).seq fun _ =>
    (updateZeroPages_emits 0x80a000 0x80d000).seq fun _ =>
    (pageInfoUpdate_emits none snpPageTypeSecrets 0x80d000).seq fun _ =>
    (hcpuid .qemu).seq fun _ => (updateKernelPages_emits hashes).seq fun _ =>
    (hcpuid .ec2).seq fun _ => hvmsa
  refine hall.congr (by simp) ?_
  simp only [launchPages, List.append_assoc]

end Updates

/-! ## Whole runs -/

section Runs

variable {sha256 : Md 32} {sha384 : Md 48} {args : SnpArgs}

theorem updates_foldl (updates : List PageUpdate) (s : SnpRun) :
    updates.foldl (SnpRun.update sha384) s =
      ⟨HashChain.value sha384 pageInfoBytes s.digestCur (updates.map (PageUpdate.info sha384)),
        s.updates ++ updates, s.mr⟩ := by
  induction updates generalizing s with
  | nil => simp
  | cons u updates ih =>
      rw [List.foldl_cons, ih]
      simp [SnpRun.update, hashBuf, List.append_assoc]

/-- The bytes hashed for the command line. -/
def cmdlineBytes (args : SnpArgs) : Bytes :=
  match args.cmdline with
  | none => []
  | some f => f.content ++ [0]

/-- The hash-table page of a run, if there is a kernel. -/
def hashPage (sha256 : Md 32) (args : SnpArgs) : Option Bytes :=
  args.kernel.map fun kernel => hashesInit sha256 (cmdlineBytes args) kernel args.initrd

/-- The page sequence of a run. -/
def pagesOf (sha256 : Md 32) (args : SnpArgs) : List PageUpdate :=
  launchPages args.ovmf.content (hashPage sha256 args) args.vcpus args.vmmType

/-- Both files read whole into memory are delivered. -/
structure BuffersRead (args : SnpArgs) : Prop where
  ovmf : args.ovmf.Readable
  cmdline : ∀ f, args.cmdline = some f → f.Readable

/-- No access leaves its object: firmware of whole pages and a copied command line. -/
structure NoFault (args : SnpArgs) : Prop where
  wholePages : 4096 ∣ args.ovmf.content.length
  cmdline : args.cmdline.isSome → args.cmdlineAllocated = true

/-- The body once the firmware is read. -/
theorem calculateMr_of_ovmf (h : args.ovmf.Readable) :
    calculateMr sha256 sha384 args = (do
      let cmdline ← readCmdline args
      updatePages sha384 args ⟨args.ovmf.content, args.ovmf.size_lt⟩
        (args.kernel.map fun kernel => hashesInit sha256 cmdline kernel args.initrd)
      Proc.update fun s => { s with mr := some s.digestCur }
      return 0) := by
  unfold calculateMr
  rw [readFile_of_readable h]

theorem readCmdline_of_read (hread : BuffersRead args)
    (halloc : args.cmdline.isSome → args.cmdlineAllocated = true) :
    readCmdline args = pure (cmdlineBytes args) := by
  unfold readCmdline cmdlineBytes
  cases hcmdline : args.cmdline with
  | none => rfl
  | some f =>
      have hf := readFile_of_readable (hread.cmdline f hcmdline)
      simp only [hf, halloc (by simp [hcmdline]), if_true]

theorem calculateMr_of_read (hread : BuffersRead args)
    (halloc : args.cmdline.isSome → args.cmdlineAllocated = true) :
    calculateMr sha256 sha384 args = (do
      updatePages sha384 args ⟨args.ovmf.content, args.ovmf.size_lt⟩ (hashPage sha256 args)
      Proc.update fun s => { s with mr := some s.digestCur }
      return 0) := by
  rw [calculateMr_of_ovmf hread.ovmf, readCmdline_of_read hread halloc, pure_bind]
  rfl

/-- A run that gets through writes the digest of its page sequence. -/
theorem run_of_noFault (sha256 : Md 32) (sha384 : Md 48) (hread : BuffersRead args)
    (hfault : NoFault args) :
    run (calculateMr sha256 sha384 args) SnpRun.start =
      .ok (0, ⟨launchDigest sha384 (pagesOf sha256 args), pagesOf sha256 args,
        some (launchDigest sha384 (pagesOf sha256 args))⟩) := by
  have hpages := (updatePages_emits sha384 args ⟨args.ovmf.content, args.ovmf.size_lt⟩
    (hashPage sha256 args) hfault.wholePages).completes trivial SnpRun.start
  change _ = Outcome.next () (List.foldl (SnpRun.update sha384) SnpRun.start _) at hpages
  rw [updates_foldl] at hpages
  rw [calculateMr_of_read hread hfault.cmdline, run, bind_apply, hpages]
  rfl

/-- A read failure leaves the register unwritten and returns 0. -/
theorem run_of_readFailure (h : ¬BuffersRead args) :
    run (calculateMr sha256 sha384 args) SnpRun.start = .ok (0, SnpRun.start) := by
  by_cases hovmf : args.ovmf.Readable
  · rw [calculateMr_of_ovmf hovmf]
    unfold readCmdline
    cases hcmdline : args.cmdline with
    | none => exact absurd ⟨hovmf, by simp [hcmdline]⟩ h
    | some f =>
        have hf : readFile f = none := by
          refine readFile_eq_none.mpr fun hf => h ⟨hovmf, ?_⟩
          intro f' hf'
          rw [hcmdline] at hf'
          cases hf'
          exact hf
        simp only [hf]
        rfl
  · unfold calculateMr
    rw [readFile_eq_none.mpr hovmf]
    rfl

/-- A last firmware page that is not whole is read past the buffer. -/
theorem firmwareLoop_fault {ovmf : Buffer} (h : ¬4096 ∣ ovmf.bytes.length) (s : SnpRun) :
    forEach (updateFirmwarePage sha384 ovmf) (List.range ((ovmf.bytes.length + 4095) / 4096)) s =
      .stop .fault := by
  have hrounds : (ovmf.bytes.length + 4095) / 4096 = ovmf.bytes.length / 4096 + 1 := by omega
  have hpre := (loop_emits (ovmf.bytes.length / 4096) fun i hi =>
    updateFirmwarePage_emits sha384 ovmf i (by omega)).completes trivial s
  have hlast : ∀ t, updateFirmwarePage sha384 ovmf (ovmf.bytes.length / 4096) t = .stop .fault := by
    intro t
    have hoff := round_offset ovmf (ovmf.bytes.length / 4096) (by omega)
    unfold updateFirmwarePage
    rw [hoff, copyFrom_fault (by omega)]
    rfl
  rw [hrounds, List.range_succ, Proc.forEach_append, bind_apply, hpre]
  change Outcome.andThen (updateFirmwarePage sha384 ovmf _ _) _ = _
  rw [hlast]
  rfl

theorem run_of_fault (hread : BuffersRead args) (hfault : ¬NoFault args) :
    run (calculateMr sha256 sha384 args) SnpRun.start = .error .fault := by
  by_cases halloc : args.cmdline.isSome → args.cmdlineAllocated = true
  · have hpages : ¬4096 ∣ args.ovmf.content.length := fun h => hfault ⟨h, halloc⟩
    rw [calculateMr_of_read hread halloc, run, bind_apply, updatePages, bind_apply,
      firmwareLoop_fault hpages]
    rfl
  · rw [calculateMr_of_ovmf hread.ovmf]
    unfold readCmdline
    cases hcmdline : args.cmdline with
    | none => simp [hcmdline] at halloc
    | some f =>
        have hf := readFile_of_readable (hread.cmdline f hcmdline)
        have hnot : args.cmdlineAllocated = false := by simpa [hcmdline] using halloc
        simp only [hf, hnot]
        rfl

end Runs

/-! ## Status soundness -/

/-- Every named file was read completely. -/
structure AllRead (args : SnpArgs) : Prop where
  buffers : BuffersRead args
  kernel : ∀ f, args.kernel = some f → f.Streams
  initrd : ∀ f, args.initrd = some f → args.kernel.isSome ∧ f.Streams

/-- The hash-table page of the real file contents. -/
def realHashPage (sha256 : Md 32) (args : SnpArgs) : Option Bytes :=
  args.kernel.map fun kernel =>
    hashTablePage (sha256 (cmdlineBytes args))
      (sha256 (match args.initrd with
        | some f => f.content
        | none => []))
      (sha256 kernel.content)

/-- `calculate_mr` returns, and returns 0 only with every named file read and the
register set to the digest of the real contents. -/
def StatusSound (sha256 : Md 32) (sha384 : Md 48) (args : SnpArgs) : Prop :=
  ∃ ret out, run (calculateMr sha256 sha384 args) SnpRun.start = .ok (ret, out) ∧
    (ret = 0 → AllRead args ∧
      out.mr = some (launchDigest sha384
        (launchPages args.ovmf.content (realHashPage sha256 args) args.vcpus args.vmmType)))

theorem hashPage_of_allRead {sha256 : Md 32} {args : SnpArgs} (h : AllRead args) :
    hashPage sha256 args = realHashPage sha256 args := by
  unfold hashPage realHashPage hashesInit hashField
  cases hkernel : args.kernel with
  | none => simp only [Option.map_none]
  | some kernel =>
      cases hinitrd : args.initrd with
      | none =>
          simp only [Option.map_some, hashFile_of_streams (h.kernel kernel hkernel),
            Option.getD_some, hashBuf]
      | some initrd =>
          simp only [Option.map_some, hashFile_of_streams (h.kernel kernel hkernel),
            hashFile_of_streams (h.initrd initrd hinitrd).2, Option.getD_some, hashBuf]

theorem not_statusSound_of_readFailure {sha256 : Md 32} {sha384 : Md 48} {args : SnpArgs}
    (h : ¬BuffersRead args) : ¬StatusSound sha256 sha384 args := by
  rintro ⟨ret, out, hrun, hsound⟩
  rw [run_of_readFailure h] at hrun
  cases hrun
  exact h (hsound rfl).1.buffers

/-- The status is sound exactly when nothing fails: there is no failure it reports. -/
theorem statusSound_iff (sha256 : Md 32) (sha384 : Md 48) (args : SnpArgs) :
    StatusSound sha256 sha384 args ↔ AllRead args ∧ NoFault args := by
  constructor
  · intro hsound
    by_cases hread : BuffersRead args
    · obtain ⟨ret, out, hrun, hzero⟩ := hsound
      by_cases hfault : NoFault args
      · rw [run_of_noFault sha256 sha384 hread hfault] at hrun
        cases hrun
        exact ⟨(hzero rfl).1, hfault⟩
      · rw [run_of_fault hread hfault] at hrun
        cases hrun
    · exact absurd hsound (not_statusSound_of_readFailure hread)
  · rintro ⟨hread, hfault⟩
    refine ⟨0, _, run_of_noFault sha256 sha384 hread.buffers hfault, fun _ => ⟨hread, ?_⟩⟩
    rw [← hashPage_of_allRead hread]
    rfl

/-- A file name nothing answers to. -/
def missingFile : File where
  path := ascii "OVMF.fd"
  content := []
  accessible := false
  allocates := true
  opens := false
  reads := []
  size_lt := by decide
  reads_prefix := List.prefix_refl _

def missingOvmf : SnpArgs := ⟨missingFile, none, none, none, true, 1, .qemu⟩

theorem statusUnsound_missingOvmf :
    ¬∃ (sha256 : Md 32) (sha384 : Md 48), StatusSound sha256 sha384 missingOvmf := by
  rintro ⟨sha256, sha384, hsound⟩
  refine not_statusSound_of_readFailure (fun hread => ?_) hsound
  exact absurd hread.ovmf (by decide)

end MeasuredBoot.Snp
