import MeasuredBoot.Common.Sha2
import MeasuredBoot.SrtmPcrs.Pcrs

/-! # PCR values and their event logs

Every calculator but one keeps its register and its log in step. `calculate_pcr5`
logs the separator in front of the partition table and extends it behind, so with
a table the log does not replay to the register.
-/

namespace MeasuredBoot.SrtmPcrs

open Binary Imperative Imperative.Proc

/-! ## The calculators that keep in step -/

section InStep

variable {libs : PcrLibs} {before : List (LogEntry 32)}

theorem measureSeparator_inStep (index : Nat) :
    Preserves (InStep libs.sha256 index before) (measureSeparator libs.sha256 index) :=
  InStep.record _ _ _

/-- The separator at the end of a body. -/
theorem separatorEnd_inStep (env : PcrEnv) (index : Nat) (ret : Int) :
    Preserves (InStep libs.sha256 index before) (do
      exitIf (env.separatorAllocated = false) ret
      measureSeparator libs.sha256 index
      return (0 : Int)) :=
  .bind (.exitIf _ _) fun _ => .bind (measureSeparator_inStep index) fun _ => .pure 0

theorem outEarly_preserves {α : Type} (I : Measurement 32 → Prop) (env : PcrEnv) (ret : Int) :
    Preserves I (outEarly env ret : Proc (Measurement 32) α) :=
  .ite (fun _ => .exit ret) fun _ => .fault

theorem measureVolume_inStep (fvmain : Bytes) (off : UInt64) (dumpPath : Option DumpFile)
    (name desc : Bytes) :
    Preserves (InStep libs.sha256 0 before)
      (measureVolume libs.sha256 fvmain off dumpPath name desc) := by
  refine .bind (.lift _) fun size => .bind (.lift _) fun data => ?_
  cases hashAndDump libs.sha256 data dumpPath with
  | none => exact .exit (-1)
  | some hash => exact InStep.record _ _ _

theorem measureVolumes_inStep (env : PcrEnv) (args : Pcr0Args) (fvmain : Bytes) :
    Preserves (InStep libs.sha256 0 before) (measureVolumes libs.sha256 env args fvmain) := by
  refine .bind (measureVolume_inStep fvmain _ _ _ _) fun _ => .bind (.lift _) fun _ => ?_
  exact .bind (measureVolume_inStep fvmain _ _ _ _) fun _ => separatorEnd_inStep env 0 _

theorem measureDriver_inStep (driver : File) :
    Preserves (InStep libs.sha256 2 before) (measureDriver libs driver) := by
  unfold measureDriver
  cases loadPeImage driver with
  | none => exact .exit (-1)
  | some driverBuf =>
      dsimp only
      cases libs.measurePeImage driverBuf.bytes with
      | none => exact .exit (-1)
      | some hashDriver => exact InStep.record _ _ _

theorem measureBootloader_inStep (env : PcrEnv) (bootloader : Option File) :
    Preserves (InStep libs.sha256 4 before) (measureBootloader libs env bootloader) := by
  unfold measureBootloader
  cases bootloader with
  | none => exact .exit (-1)
  | some file =>
      dsimp only
      cases loadPeImage file with
      | none => exact .exit (-1)
      | some blBuf =>
          dsimp only
          cases libs.measurePeImage blBuf.bytes with
          | none => exact InStep.logged (.when fun _ => .fault)
          | some hashBl => exact InStep.record _ _ _

theorem prepareKernel_preserves (I : Measurement 32 → Prop) (configFile : Option File)
    (kernelBuf : Bytes) : Preserves I (prepareKernel configFile kernelBuf) := by
  unfold prepareKernel
  cases configFile with
  | none => exact .pure kernelBuf
  | some file =>
      refine .bind (.lift _) fun loaded => ?_
      cases loaded with
      | none => exact .exit (-1)
      | some config =>
          dsimp only
          cases configPrepareKernelPecoff kernelBuf config with
          | none => exact .exit (-1)
          | some image => exact .pure image

theorem measureKernel_inStep (configFile : Option File) (kernelFile : File) :
    Preserves (InStep libs.sha256 4 before) (measureKernel libs configFile kernelFile) := by
  unfold measureKernel
  cases loadPeImage kernelFile with
  | none => exact .exit (-1)
  | some kernelBuf =>
      refine .bind (prepareKernel_preserves _ _ _) fun image => ?_
      cases libs.measurePeImage image with
      | none => exact .exit (-1)
      | some hashKernel => exact InStep.record _ _ _

theorem measureSbatLevel_inStep (allocates : Bool) (sbatLevel : Bytes) :
    Preserves (InStep libs.sha256 7 before) (measureSbatLevel libs allocates sbatLevel) :=
  .bind (.call (measureVariable_inStep _)) fun _ => .exitIf _ _

theorem measureGrubCmds_inStep (behind : Bytes) (grubcmdsFile : File) :
    Preserves (InStep libs.sha256 8 before) (measureGrubCmds libs behind grubcmdsFile) := by
  unfold measureGrubCmds
  cases readFile grubcmdsFile with
  | none => exact .exit (-1)
  | some grubcmdsBuf => exact .forEach _ fun cmd _ => InStep.record _ _ _

theorem calculatePath_inStep (path : RealFile) :
    Preserves (InStep libs.sha256 9 before) (calculatePath libs.sha256 path) := by
  unfold calculatePath
  cases hashFile libs.sha256 path.file with
  | none => exact .exit (-1)
  | some hash => exact InStep.logged (.pure 0)

end InStep

section InStep

variable {libs : PcrLibs} {before : List (LogEntry 32)}

theorem measureCmdline_inStep (args : Pcr9Args) (cmdline : File) :
    Preserves (InStep libs.sha256 9 before) (measureCmdline libs args cmdline) := by
  unfold measureCmdline
  cases readFile cmdline with
  | none => exact .exit (-1)
  | some cmdlineBuf =>
      refine .bind (.lift _) fun text => .bind (.lift _) fun converted => ?_
      cases converted with
      | none => exact .exit (-1)
      | some wcmdline => exact InStep.record _ _ _

theorem measureInitrd_inStep (initrd : File) :
    Preserves (InStep libs.sha256 9 before) (measureInitrd libs initrd) := by
  unfold measureInitrd
  cases readFile initrd with
  | none => exact .exit (-1)
  | some initrdBuf => exact InStep.record _ _ _

end InStep

/-- A call of one of the calculators. -/
inductive PcrCall where
  | pcr0 (args : Pcr0Args)
  | pcr1 (args : Pcr1Args)
  | pcr2 (drivers : List File)
  | pcr3
  | pcr4 (args : Pcr4Args)
  | pcr5 (args : Pcr5Args)
  | pcr6
  | pcr7 (args : Pcr7Args)
  | pcr8 (args : Pcr8Args)
  | pcr9 (args : Pcr9Args)

namespace PcrCall

def index : PcrCall → Nat
  | .pcr0 _ => 0
  | .pcr1 _ => 1
  | .pcr2 _ => 2
  | .pcr3 => 3
  | .pcr4 _ => 4
  | .pcr5 _ => 5
  | .pcr6 => 6
  | .pcr7 _ => 7
  | .pcr8 _ => 8
  | .pcr9 _ => 9

def body (libs : PcrLibs) (env : PcrEnv) : PcrCall → Proc (Measurement 32) Int
  | .pcr0 args => calculatePcr0 libs env args
  | .pcr1 args => calculatePcr1 libs env args
  | .pcr2 drivers => calculatePcr2 libs env drivers
  | .pcr3 => calculatePcr3 libs env
  | .pcr4 args => calculatePcr4 libs env args
  | .pcr5 args => calculatePcr5 libs env args
  | .pcr6 => calculatePcr6 libs env
  | .pcr7 args => calculatePcr7 libs env args
  | .pcr8 args => calculatePcr8 libs args
  | .pcr9 args => calculatePcr9 libs args

/-- The partition table PCR 5 is calculated with. -/
def gptTable : PcrCall → Option File
  | .pcr5 args => args.efiPartitionTable
  | _ => none

end PcrCall

/-- At every return of a calculator other than that of PCR 5 the register replays its
log, and the other logs are as they were. -/
theorem pcrCall_inStep {libs : PcrLibs} {env : PcrEnv} {c : PcrCall} {s s' : Measurement 32}
    {ret : Int} (hc : c.index ≠ 5) (hempty : digestsOf c.index s.evlog = [])
    (hrun : run (c.body libs env) s = .ok (ret, s')) :
    InStep libs.sha256 c.index s.evlog s' := by
  cases c with
  | pcr0 args =>
      refine InStep.of_run (fun before => InStep.logged ?_) hempty hrun
      cases readFile args.ovmfFile with
      | none => exact .exit (-1)
      | some ovmfBuf =>
          refine .bind (.lift _) fun fvmainStart => .bind (.lift _) fun size => ?_
          refine .bind (.exitIf _ _) fun _ => .bind (.exitIf _ _) fun _ => ?_
          refine .bind (.lift _) fun compact => .bind (.lift _) fun extracted => ?_
          cases extracted with
          | none => exact .exit (-1)
          | some fvmain => exact measureVolumes_inStep env args fvmain
  | pcr1 args =>
      refine InStep.of_run (fun before => ?_) hempty hrun
      refine .bind (.call (calculateAcpiTables_inStep args.cfg)) fun _ => ?_
      refine .bind (.when fun _ => outEarly_preserves _ env _) fun _ => ?_
      refine .bind (.call (calculateEfiBootVars_inStep args.bootVars)) fun _ => ?_
      exact .bind (.when fun _ => outEarly_preserves _ env _) fun _ => separatorEnd_inStep env 1 _
  | pcr2 drivers =>
      refine InStep.of_run (fun before => ?_) hempty hrun
      exact .bind (.forEach _ fun driver _ => measureDriver_inStep driver) fun _ =>
        separatorEnd_inStep env 2 _
  | pcr3 => exact InStep.of_run (fun before => separatorEnd_inStep env 3 _) hempty hrun
  | pcr4 args =>
      refine InStep.of_run (fun before => ?_) hempty hrun
      refine .bind (.exitIf _ _) fun _ => ?_
      refine .bind (.forEach _ fun bootloader _ => measureBootloader_inStep env bootloader)
        fun _ => ?_
      refine .bind (.forEach _ fun kernel _ => measureKernel_inStep args.configFile kernel)
        fun _ => ?_
      exact InStep.logged (separatorEnd_inStep env 4 _)
  | pcr5 args => exact absurd rfl hc
  | pcr6 => exact InStep.of_run (fun before => separatorEnd_inStep env 6 _) hempty hrun
  | pcr7 args =>
      refine InStep.of_run (fun before => ?_) hempty hrun
      refine .bind (.call (measureSecureBootVariables_inStep args.secureBoot)) fun _ => ?_
      refine .bind (.exitIf _ _) fun _ => .bind (.exitIf _ _) fun _ => ?_
      refine .bind (measureSeparator_inStep 7) fun _ => ?_
      exact .bind (.forEach _ fun sbatLevel _ => measureSbatLevel_inStep _ sbatLevel)
        fun _ => .pure 0
  | pcr8 args =>
      refine InStep.of_run (fun before => ?_) hempty hrun
      exact .bind (.forEach _ fun file _ => measureGrubCmds_inStep args.behind file)
        fun _ => .pure 0
  | pcr9 args =>
      refine InStep.of_run (fun before => ?_) hempty hrun
      refine .bind (.forEach _ fun paths _ => ?_) fun _ => ?_
      · exact .bind (.call (walkPaths_preserves calculatePath_inStep paths.paths))
          fun _ => .exitIf _ _
      · refine .bind (.forEach _ fun file _ => measureCmdline_inStep args file) fun _ => ?_
        exact .bind (.forEach _ fun file _ => measureInitrd_inStep file) fun _ => .pure 0

/-! ## PCR 5 -/

/-- The digest of the partition table, if there is one. -/
def gptDigests (sha256 : Md 32) (table : Option File) : List (Digest 32) :=
  table.toList.map fun t => sha256 t.content

def exitDigests (sha256 : Md 32) : List (Digest 32) :=
  [sha256 exitBootServicesInvocation, sha256 exitBootServicesSucceeded]

/-- The order PCR 5 is extended in. -/
def pcr5Extended (sha256 : Md 32) (table : Option File) : List (Digest 32) :=
  gptDigests sha256 table ++ sha256 evSeparator :: exitDigests sha256

/-- The order its events are logged in. -/
def pcr5Logged (sha256 : Md 32) (table : Option File) : List (Digest 32) :=
  sha256 evSeparator :: gptDigests sha256 table ++ exitDigests sha256

section Pcr5

variable {libs : PcrLibs}

/-- The block of the partition table logs and extends its digest. -/
theorem measureGpt_spec (args : Pcr5Args) (table : File) (s : Measurement 32) :
    wlp (measureGpt libs args table)
      (fun _ t => t.mr = hashExtend libs.sha256 s.mr (libs.sha256 table.content) ∧
        digestsOf 5 t.evlog = digestsOf 5 s.evlog ++ [libs.sha256 table.content])
      (fun r _ => r ≠ 0) s := by
  unfold measureGpt
  cases hread : readFile table with
  | none => exact wlp_exit (by decide)
  | some gptBuf =>
      have hcontent : gptBuf.bytes = table.content := (readFile_eq_some.mp hread).2
      refine wlp_bind (wlp_exitIf (fun _ => by decide) fun _ => ?_)
      refine wlp_bind (wlp_lift fun described _ => ?_)
      cases described with
      | none => exact wlp_exit (by decide)
      | some description =>
          refine wlp_bind (wlp_update (wlp_update ?_))
          simp [hashBuf, hcontent]

theorem measureGpts_spec (args : Pcr5Args) (s : Measurement 32) :
    wlp (forEach (measureGpt libs args) args.efiPartitionTable.toList)
      (fun _ t => t.mr =
          replayFrom libs.sha256 s.mr (gptDigests libs.sha256 args.efiPartitionTable) ∧
        digestsOf 5 t.evlog =
          digestsOf 5 s.evlog ++ gptDigests libs.sha256 args.efiPartitionTable)
      (fun r _ => r ≠ 0) s := by
  cases args.efiPartitionTable with
  | none => exact wlp_pure ⟨rfl, by simp [gptDigests]⟩
  | some table =>
      refine wlp_bind (wlp_mono (measureGpt_spec args table s) ?_ fun _ _ hr => hr)
      exact fun _ t ht => wlp_pure ht

/-- What `calculate_pcr5` returns 0 with. -/
theorem calculatePcr5_zero {env : PcrEnv} {args : Pcr5Args} {s s' : Measurement 32}
    (hempty : digestsOf 5 s.evlog = [])
    (hrun : run (calculatePcr5 libs env args) s = .ok (0, s')) :
    s'.mr = replay libs.sha256 (pcr5Extended libs.sha256 args.efiPartitionTable) ∧
      digestsOf 5 s'.evlog = pcr5Logged libs.sha256 args.efiPartitionTable := by
  let Q : Int → Measurement 32 → Prop := fun r t => r = 0 →
    t.mr = replay libs.sha256 (pcr5Extended libs.sha256 args.efiPartitionTable) ∧
      digestsOf 5 t.evlog = pcr5Logged libs.sha256 args.efiPartitionTable
  have hbody : wlp (calculatePcr5 libs env args) Q Q s := by
    refine wlp_bind (wlp_update (wlp_bind (wlp_exitIf (fun _ => ?_) fun _ => ?_)))
    · exact fun hr => absurd hr (by decide)
    refine wlp_bind (wlp_update (wlp_bind (wlp_mono (measureGpts_spec args _) ?_ ?_)))
    · rintro _ t ⟨hmr, hlog⟩
      refine wlp_bind (wlp_update (wlp_bind (wlp_update ?_)))
      refine wlp_bind (wlp_update (wlp_bind (wlp_update (wlp_bind (wlp_update ?_)))))
      refine wlp_pure fun _ => ⟨?_, ?_⟩
      · simp only [Measurement.extend_mr, Measurement.log_mr, hmr]
        rw [pcr5Extended, replay, replayFrom_append]
        rfl
      · simp only [Measurement.extend_evlog, Measurement.log_evlog, digestsOf_concat_self, hlog,
          Measurement.clear_evlog, hempty]
        simp [pcr5Logged, exitDigests, hashBuf]
    · exact fun r _ hr hzero => absurd hzero hr
  exact run_of_wlp hbody hrun rfl

end Pcr5

/-- The partition table hashes to the separator's digest. -/
def HashesAsSeparator (sha256 : Md 32) (table : File) : Prop :=
  sha256 table.content = sha256 evSeparator

/-- The two orders are one without a table, or with one that hashes as the separator. -/
theorem pcr5_orders_eq_iff (sha256 : Md 32) (table : Option File) :
    pcr5Extended sha256 table = pcr5Logged sha256 table ↔
      ∀ t ∈ table, HashesAsSeparator sha256 t := by
  cases table with
  | none => simp [pcr5Extended, pcr5Logged, gptDigests]
  | some t =>
      simp only [pcr5Extended, pcr5Logged, gptDigests, HashesAsSeparator, Option.toList_some,
        List.map_cons, List.map_nil, List.cons_append, List.nil_append, List.cons.injEq, and_true,
        Option.mem_some_iff, forall_eq']
      exact ⟨fun h => h.1, fun h => ⟨h, h.symm⟩⟩

/-- A calculator that returns 0 with nothing logged before outputs the replay of its
log, unless it is that of PCR 5 with a partition table: then only where the table
hashes as the separator does, or the hash breaks. -/
theorem pcrCall_replays_iff {libs : PcrLibs} {env : PcrEnv} {c : PcrCall}
    {s s' : Measurement 32} (hempty : digestsOf c.index s.evlog = [])
    (hrun : run (c.body libs env) s = .ok (0, s')) :
    ((∀ t ∈ c.gptTable, HashesAsSeparator libs.sha256 t) →
        s'.mr = replay libs.sha256 (digestsOf c.index s'.evlog)) ∧
      (s'.mr = replay libs.sha256 (digestsOf c.index s'.evlog) →
        (∀ t ∈ c.gptTable, HashesAsSeparator libs.sha256 t) ∨
          HashBreaks libs.sha256 (pcr5Extended libs.sha256 c.gptTable)
            (pcr5Logged libs.sha256 c.gptTable)) := by
  by_cases hc : c.index = 5
  · cases c with
    | pcr5 args =>
        obtain ⟨hmr, hlog⟩ := calculatePcr5_zero hempty hrun
        have hlog' : digestsOf (PcrCall.pcr5 args).index s'.evlog =
            pcr5Logged libs.sha256 args.efiPartitionTable := hlog
        rw [hmr, hlog']
        refine ⟨fun h => congrArg _ ((pcr5_orders_eq_iff _ _).mpr h), fun h => ?_⟩
        rcases replay_binding h with heq | hbreaks
        · exact Or.inl ((pcr5_orders_eq_iff _ _).mp heq)
        · exact Or.inr hbreaks
    | _ => cases hc
  · have hstep := (pcrCall_inStep hc hempty hrun).replays
    have hnone : c.gptTable = none := by
      cases c with
      | pcr5 args => exact absurd rfl hc
      | _ => rfl
    refine ⟨fun _ => hstep, fun _ => Or.inl fun t ht => ?_⟩
    rw [hnone] at ht
    exact absurd ht (by simp)

theorem pcrCall_replays_iff_pcr3 :
    ∃ s' : Measurement 32,
      ((∀ t ∈ PcrCall.pcr3.gptTable, HashesAsSeparator Sha256.sha256 t) →
          s'.mr = replay Sha256.sha256 (digestsOf 3 s'.evlog)) ∧
        (s'.mr = replay Sha256.sha256 (digestsOf 3 s'.evlog) →
          (∀ t ∈ PcrCall.pcr3.gptTable, HashesAsSeparator Sha256.sha256 t) ∨
            HashBreaks Sha256.sha256 (pcr5Extended Sha256.sha256 PcrCall.pcr3.gptTable)
              (pcr5Logged Sha256.sha256 PcrCall.pcr3.gptTable)) :=
  ⟨_, @pcrCall_replays_iff ⟨Sha256.sha256, fun _ => none, fun _ => .ok none⟩
    ⟨true, true, true⟩ .pcr3 ⟨zeroDigest 32, []⟩ _ rfl rfl⟩

/-- A partition table with a header only. -/
def headerOnlyGpt : File :=
  .intact (ascii "gpt.bin") (ascii "EFI PART" ++ [0, 0, 1, 0, 92, 0, 0, 0] ++ zeros 76) (by decide)

/-- With the table, PCR 5 is not the replay of its log. -/
theorem pcr5_gpt_not_replayed :
    ¬∀ (libs : PcrLibs) (env : PcrEnv) (c : PcrCall) (s s' : Measurement 32),
      digestsOf c.index s.evlog = [] → run (c.body libs env) s = .ok (0, s') →
        s'.mr = replay libs.sha256 (digestsOf c.index s'.evlog) := by
  intro h
  let libs : PcrLibs := ⟨Sha256.sha256, fun _ => none, fun _ => .ok none⟩
  let env : PcrEnv := ⟨true, true, true⟩
  let args : Pcr5Args := ⟨some headerOnlyGpt, true⟩
  let s : Measurement 32 := ⟨zeroDigest 32, []⟩
  have hreturns : (run (calculatePcr5 libs env args) s).toOption.map (·.1) = some 0 := by
    decide +kernel
  obtain ⟨⟨ret, s'⟩, hrun, hret⟩ := exists_of_toOption_map hreturns
  obtain rfl : ret = 0 := hret
  have hreplay := h libs env (.pcr5 args) s s' rfl hrun
  obtain ⟨hmr, hlog⟩ := calculatePcr5_zero rfl hrun
  have hlog' : digestsOf (PcrCall.pcr5 args).index s'.evlog = _ := hlog
  rw [hmr, hlog'] at hreplay
  have hdiffer : replay Sha256.sha256 (pcr5Extended Sha256.sha256 (some headerOnlyGpt)) ≠
      replay Sha256.sha256 (pcr5Logged Sha256.sha256 (some headerOnlyGpt)) := by
    decide +kernel
  exact hdiffer hreplay

end MeasuredBoot.SrtmPcrs
