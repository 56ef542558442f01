import MeasuredBoot.Common.Sha2
import MeasuredBoot.SrtmPcrs.Pcrs
import MeasuredBoot.SrtmPcrs.SecMain

/-! # The firmware volumes of PCR 0

What `calculate_pcr0` checks of the volumes it hashes. The lengths of the variable
store and of FVMAIN_COMPACT are read before they are compared with the file, the
lengths of PEIFV and DXEFV are compared with nothing, and a failed decompression
looks like a volume.
-/

namespace MeasuredBoot.SrtmPcrs

open Binary Imperative Imperative.Proc

/-- The libraries with `extract_lzma_fvmain_new` of `SecMain.c`. -/
def PcrLibs.unpackWith (libs : PcrLibs) (lzma : LzmaDecoder) : PcrLibs :=
  { libs with extractLzmaFvmainNew := SrtmPcrs.extractLzmaFvmainNew lzma }

/-- The header fields that locate FVMAIN_COMPACT lie in the file. -/
structure HeadersInside (ovmf : Buffer) (start size : UInt64) : Prop where
  varStore : fvLength ovmf.bytes 0 = .ok start
  compact : fvLength ovmf.bytes start = .ok size

/-- FVMAIN_COMPACT lies in the file. -/
structure CompactInside (ovmf : Buffer) (start size : UInt64) : Prop where
  headers : HeadersInside ovmf start size
  inside : start.toNat + size.toNat ≤ ovmf.bytes.length

def compactVolume (ovmf : Buffer) (start size : UInt64) : Bytes :=
  slice ovmf.bytes start.toNat size.toNat

/-- A volume and its header lie in the unpacked one. -/
structure VolumeAt (fvmain : Bytes) (off size : UInt64) : Prop where
  header : fvLength fvmain off = .ok size
  inside : off.toNat + size.toNat ≤ fvmain.length

/-- PEIFV and DXEFV lie in the unpacked volume. -/
structure VolumesInside (fvmain : Bytes) (peiLength dxeLength : UInt64) : Prop where
  peiHeader : fvLength fvmain 0x80 = .ok peiLength
  pei : 0x80 + peiLength.toNat ≤ fvmain.length
  dxeHeader : fvLength fvmain (peiLength + 0x90) = .ok dxeLength
  dxe : 0x90 + peiLength.toNat + dxeLength.toNat ≤ fvmain.length

def DumpFails (dumpPath : Option DumpFile) : Prop := dumpPath.any (!·.written) = true

/-- `calculate_pcr0` accesses nothing outside the file and the volumes, unless the
unpacking does, and returns 0 only for a decompressed volume that holds both of the
ranges it hashed. -/
structure Pcr0Sound (libs : PcrLibs) (lzma : LzmaDecoder) (env : PcrEnv) (args : Pcr0Args) :
    Prop where
  accesses : ∀ s, run (calculatePcr0 (libs.unpackWith lzma) env args) s = .error .fault →
    ∃ ovmf start size, readFile args.ovmfFile = some ovmf ∧ CompactInside ovmf start size ∧
      extractLzmaFvmainNew lzma (compactVolume ovmf start size) = .error .fault
  success : ∀ s s', run (calculatePcr0 (libs.unpackWith lzma) env args) s = .ok (0, s') →
    ∃ ovmf start size fvmain peiLength dxeLength, readFile args.ovmfFile = some ovmf ∧
      CompactInside ovmf start size ∧
      Decompressed lzma (compactVolume ovmf start size) fvmain ∧
      VolumesInside fvmain peiLength dxeLength

/-- The inputs for which it does. -/
inductive Pcr0Handled (lzma : LzmaDecoder) (env : PcrEnv) (args : Pcr0Args) : Prop where
  | unreadable (h : readFile args.ovmfFile = none)
  | rejected (ovmf : Buffer) (start size : UInt64) (hfile : readFile args.ovmfFile = some ovmf)
      (hheaders : HeadersInside ovmf start size)
      (h : args.compactAllocated = false ∨ ¬start.toNat + size.toNat ≤ ovmf.bytes.length)
  | notUnpacked (ovmf : Buffer) (start size : UInt64)
      (hfile : readFile args.ovmfFile = some ovmf) (hcompact : CompactInside ovmf start size)
      (h : ∀ fvmain, extractLzmaFvmainNew lzma (compactVolume ovmf start size) ≠ .ok (some fvmain))
  | unpacked (ovmf : Buffer) (start size : UInt64) (fvmain : Bytes) (peiLength : UInt64)
      (hfile : readFile args.ovmfFile = some ovmf) (hcompact : CompactInside ovmf start size)
      (hextract : extractLzmaFvmainNew lzma (compactVolume ovmf start size) = .ok (some fvmain))
      (hpei : VolumeAt fvmain 0x80 peiLength)
      (h : DumpFails args.dumpPeiPath ∨ ∃ dxeLength, VolumeAt fvmain (peiLength + 0x90) dxeLength ∧
        (DumpFails args.dumpDxePath ∨ env.separatorAllocated = false ∨
          Decompressed lzma (compactVolume ovmf start size) fvmain))

/-! ## The phases of a run -/

/-- The body once the firmware is read. -/
def pcr0FromImage (libs : PcrLibs) (env : PcrEnv) (args : Pcr0Args) (ovmfBuf : Buffer) :
    Proc (Measurement 32) Int := do
  let fvmainStart ← lift (fvLength ovmfBuf.bytes 0)
  let size ← lift (fvLength ovmfBuf.bytes fvmainStart)
  exitIf (args.compactAllocated = false) (-1)
  exitIf (fvmainStart > ovmfBuf.size ∨ size > ovmfBuf.size - fvmainStart) (-1)
  let compact ← lift (copyFrom ovmfBuf.bytes fvmainStart.toNat size.toNat)
  match ← lift (libs.extractLzmaFvmainNew compact) with
  | none => exit (-1)
  | some fvmain => measureVolumes libs.sha256 env args fvmain

section Phases

variable {libs : PcrLibs} {lzma : LzmaDecoder} {env : PcrEnv} {args : Pcr0Args} {ovmf : Buffer}
  {start size : UInt64} {fvmain : Bytes}

theorem calculatePcr0_of_file (libs : PcrLibs) (env : PcrEnv)
    (hfile : readFile args.ovmfFile = some ovmf) (s : Measurement 32) :
    ∃ t, run (calculatePcr0 libs env args) s = run (pcr0FromImage libs env args ovmf) t := by
  unfold calculatePcr0
  rw [hfile]
  exact ⟨_, rfl⟩

theorem calculatePcr0_of_unreadable (hfile : readFile args.ovmfFile = none)
    (s : Measurement 32) : ∃ t, run (calculatePcr0 libs env args) s = .ok (-1, t) := by
  unfold calculatePcr0
  rw [hfile]
  exact ⟨_, rfl⟩

theorem fvLength_error {image : Bytes} {off : UInt64} {w : Stop}
    (h : fvLength image off = .error w) : w = .fault := by
  unfold fvLength copyFrom at h
  split at h
  · cases h
  · cases h
    rfl

theorem pcr0FromImage_outside (h : ¬∃ start size, HeadersInside ovmf start size)
    (t : Measurement 32) : run (pcr0FromImage libs env args ovmf) t = .error .fault := by
  unfold pcr0FromImage
  cases hstart : fvLength ovmf.bytes 0 with
  | error w =>
      obtain rfl := fvLength_error hstart
      rfl
  | ok start =>
      rw [lift_ok_bind]
      cases hsize : fvLength ovmf.bytes start with
      | error w =>
          obtain rfl := fvLength_error hsize
          rfl
      | ok size => exact absurd ⟨start, size, hstart, hsize⟩ h

theorem compactCheck_iff :
    (start > ovmf.size ∨ size > ovmf.size - start) ↔
      ¬start.toNat + size.toNat ≤ ovmf.bytes.length := by
  have hlt := ovmf.size_lt
  have hstart := start.toNat_lt
  simp only [gt_iff_lt, UInt64.lt_iff_toNat_lt, UInt64.toNat_sub, Buffer.size_toNat]
  omega

theorem pcr0FromImage_rejected (hheaders : HeadersInside ovmf start size)
    (h : args.compactAllocated = false ∨ ¬start.toNat + size.toNat ≤ ovmf.bytes.length)
    (t : Measurement 32) : run (pcr0FromImage libs env args ovmf) t = .ok (-1, t) := by
  unfold pcr0FromImage
  rw [hheaders.varStore, lift_ok_bind, hheaders.compact, lift_ok_bind]
  by_cases halloc : args.compactAllocated = false
  · rw [exitIf_pos halloc]
    rfl
  · rw [exitIf_neg halloc, exitIf_pos (compactCheck_iff.mpr (h.resolve_left halloc))]
    rfl

/-- What is left of the body behind the checks. -/
theorem pcr0FromImage_of_compact (hcompact : CompactInside ovmf start size)
    (halloc : args.compactAllocated = true) :
    pcr0FromImage libs env args ovmf = (do
      match ← lift (libs.extractLzmaFvmainNew (compactVolume ovmf start size)) with
      | none => exit (-1)
      | some fvmain => measureVolumes libs.sha256 env args fvmain) := by
  have hcheck := not_not.mpr hcompact.inside
  rw [← compactCheck_iff] at hcheck
  unfold pcr0FromImage
  rw [hcompact.headers.varStore, lift_ok_bind, hcompact.headers.compact, lift_ok_bind,
    exitIf_neg (by simp [halloc]), exitIf_neg hcheck, copyFrom_ok hcompact.inside]
  rfl

theorem pcr0FromImage_stops {w : Stop} (hcompact : CompactInside ovmf start size)
    (halloc : args.compactAllocated = true)
    (hextract : libs.extractLzmaFvmainNew (compactVolume ovmf start size) = .error w)
    (t : Measurement 32) : run (pcr0FromImage libs env args ovmf) t = .error w := by
  rw [pcr0FromImage_of_compact hcompact halloc, hextract]
  rfl

theorem pcr0FromImage_none (hcompact : CompactInside ovmf start size)
    (halloc : args.compactAllocated = true)
    (hextract : libs.extractLzmaFvmainNew (compactVolume ovmf start size) = .ok none)
    (t : Measurement 32) : run (pcr0FromImage libs env args ovmf) t = .ok (-1, t) := by
  rw [pcr0FromImage_of_compact hcompact halloc, hextract]
  rfl

theorem pcr0FromImage_some (env : PcrEnv) (hcompact : CompactInside ovmf start size)
    (halloc : args.compactAllocated = true)
    (hextract : libs.extractLzmaFvmainNew (compactVolume ovmf start size) = .ok (some fvmain))
    (t : Measurement 32) :
    run (pcr0FromImage libs env args ovmf) t =
      run (measureVolumes libs.sha256 env args fvmain) t := by
  rw [pcr0FromImage_of_compact hcompact halloc, hextract]
  rfl

/-! ### One volume -/

variable {sha256 : Md 32} {off : UInt64} {dumpPath : Option DumpFile} {name desc : Bytes}

theorem measureVolume_outside (h : ¬∃ size, VolumeAt fvmain off size) (t : Measurement 32) :
    measureVolume sha256 fvmain off dumpPath name desc t = .stop .fault := by
  unfold measureVolume
  cases hsize : fvLength fvmain off with
  | error w =>
      obtain rfl := fvLength_error hsize
      rfl
  | ok size =>
      have hout : ¬off.toNat + size.toNat ≤ fvmain.length := fun hin => h ⟨size, hsize, hin⟩
      rw [lift_ok_bind, copyFrom_fault hout]
      rfl

theorem hashAndDump_fails (h : DumpFails dumpPath) (data : Bytes) :
    hashAndDump sha256 data dumpPath = none := if_pos h

theorem hashAndDump_writes (h : ¬DumpFails dumpPath) (data : Bytes) :
    hashAndDump sha256 data dumpPath = some (hashBuf sha256 data) := if_neg h

theorem measureVolume_dumpFails (hvolume : VolumeAt fvmain off size) (h : DumpFails dumpPath)
    (t : Measurement 32) :
    measureVolume sha256 fvmain off dumpPath name desc t = .exit (-1) t := by
  unfold measureVolume
  rw [hvolume.header, lift_ok_bind, copyFrom_ok hvolume.inside, lift_ok_bind,
    hashAndDump_fails h]
  rfl

theorem measureVolume_inside (sha256 : Md 32) (hvolume : VolumeAt fvmain off size)
    (h : ¬DumpFails dumpPath) (name desc : Bytes) (t : Measurement 32) :
    ∃ u, measureVolume sha256 fvmain off dumpPath name desc t = .next () u := by
  unfold measureVolume
  rw [hvolume.header, lift_ok_bind, copyFrom_ok hvolume.inside, lift_ok_bind,
    hashAndDump_writes h]
  exact ⟨_, rfl⟩

/-! ### Both volumes -/

theorem measureVolumes_outside (h : ¬∃ peiLength, VolumeAt fvmain 0x80 peiLength)
    (t : Measurement 32) : run (measureVolumes sha256 env args fvmain) t = .error .fault := by
  unfold measureVolumes
  rw [run, bind_apply, measureVolume_outside h]
  rfl

variable {peiLength dxeLength : UInt64}

theorem measureVolumes_peiDump (hpei : VolumeAt fvmain 0x80 peiLength)
    (h : DumpFails args.dumpPeiPath) (t : Measurement 32) :
    run (measureVolumes sha256 env args fvmain) t = .ok (-1, t) := by
  unfold measureVolumes
  rw [run, bind_apply, measureVolume_dumpFails hpei h]
  rfl

/-- The body from DXEFV on. -/
theorem measureVolumes_of_pei (sha256 : Md 32) (env : PcrEnv)
    (hpei : VolumeAt fvmain 0x80 peiLength) (h : ¬DumpFails args.dumpPeiPath)
    (t : Measurement 32) :
    ∃ u, run (measureVolumes sha256 env args fvmain) t = run (do
      measureVolume sha256 fvmain (peiLength + 0x90) args.dumpDxePath (ascii "DXEFV")
        (ascii "OVMF UEFI DXE Firmware Volume")
      exitIf (env.separatorAllocated = false) (-1)
      measureSeparator sha256 0
      return 0) u := by
  obtain ⟨u, hu⟩ := measureVolume_inside sha256 hpei h (ascii "PEIFV")
    (ascii "OVMF UEFI PEI Firmware Volume") t
  refine ⟨u, ?_⟩
  unfold measureVolumes
  rw [hpei.header, run, bind_apply, hu]
  rfl

theorem measureVolumes_dxeOutside (hpei : VolumeAt fvmain 0x80 peiLength)
    (hdump : ¬DumpFails args.dumpPeiPath)
    (h : ¬∃ dxeLength, VolumeAt fvmain (peiLength + 0x90) dxeLength) (t : Measurement 32) :
    run (measureVolumes sha256 env args fvmain) t = .error .fault := by
  obtain ⟨u, hu⟩ := measureVolumes_of_pei sha256 env hpei hdump t
  rw [hu, run, bind_apply, measureVolume_outside h]
  rfl

theorem measureVolumes_dxeStops (sha256 : Md 32) (hpei : VolumeAt fvmain 0x80 peiLength)
    (hdump : ¬DumpFails args.dumpPeiPath) (hdxe : VolumeAt fvmain (peiLength + 0x90) dxeLength)
    (h : DumpFails args.dumpDxePath ∨ env.separatorAllocated = false) (t : Measurement 32) :
    ∃ u, run (measureVolumes sha256 env args fvmain) t = .ok (-1, u) := by
  obtain ⟨u, hu⟩ := measureVolumes_of_pei sha256 env hpei hdump t
  rw [hu]
  by_cases hfails : DumpFails args.dumpDxePath
  · refine ⟨u, ?_⟩
    rw [run, bind_apply, measureVolume_dumpFails hdxe hfails]
    rfl
  · obtain ⟨v, hv⟩ := measureVolume_inside sha256 hdxe hfails (ascii "DXEFV")
      (ascii "OVMF UEFI DXE Firmware Volume") u
    refine ⟨v, ?_⟩
    rw [exitIf_pos (h.resolve_left hfails), run, bind_apply, hv]
    rfl

theorem measureVolumes_completes (sha256 : Md 32) (hpei : VolumeAt fvmain 0x80 peiLength)
    (hdump : ¬DumpFails args.dumpPeiPath) (hdxe : VolumeAt fvmain (peiLength + 0x90) dxeLength)
    (hdump' : ¬DumpFails args.dumpDxePath) (hseparator : env.separatorAllocated = true)
    (t : Measurement 32) :
    ∃ u, run (measureVolumes sha256 env args fvmain) t = .ok (0, u) := by
  obtain ⟨u, hu⟩ := measureVolumes_of_pei sha256 env hpei hdump t
  obtain ⟨v, hv⟩ := measureVolume_inside sha256 hdxe hdump' (ascii "DXEFV")
    (ascii "OVMF UEFI DXE Firmware Volume") u
  rw [hu, exitIf_neg (by simp [hseparator]), run, bind_apply, hv]
  exact ⟨_, rfl⟩

end Phases

/-! ## Soundness -/

theorem VolumeAt.insideBoth {fvmain : Bytes} {peiLength dxeLength : UInt64}
    (hpei : VolumeAt fvmain 0x80 peiLength)
    (hdxe : VolumeAt fvmain (peiLength + 0x90) dxeLength) (hlen : fvmain.length ≤ maxUint32) :
    VolumesInside fvmain peiLength dxeLength := by
  have hin := hpei.inside
  have hin' := hdxe.inside
  simp only [UInt64.toNat_add, UInt64.reduceToNat, maxUint32] at hin hin' hlen
  exact ⟨hpei.header, hin, hdxe.header, by omega⟩

theorem HeadersInside.unique {ovmf : Buffer} {start size start' size' : UInt64}
    (h : HeadersInside ovmf start size) (h' : HeadersInside ovmf start' size') :
    start' = start ∧ size' = size := by
  obtain rfl : start' = start := by
    have hsame := h'.varStore.symm.trans h.varStore
    simpa using hsame
  have hsame := h'.compact.symm.trans h.compact
  exact ⟨rfl, by simpa using hsame⟩

section Soundness

variable {libs : PcrLibs} {lzma : LzmaDecoder} {env : PcrEnv} {args : Pcr0Args}

/-- A run that returns -1 meets both halves. -/
theorem pcr0Sound_of_fails
    (h : ∀ s, ∃ t, run (calculatePcr0 (libs.unpackWith lzma) env args) s = .ok (-1, t)) :
    Pcr0Sound libs lzma env args := by
  constructor
  · intro s hrun
    obtain ⟨t, ht⟩ := h s
    rw [ht] at hrun
    cases hrun
  · intro s s' hrun
    obtain ⟨t, ht⟩ := h s
    rw [ht] at hrun
    cases hrun

variable {ovmf : Buffer} {start size : UInt64} {fvmain : Bytes}

theorem pcr0Sound_of_rejected (hfile : readFile args.ovmfFile = some ovmf)
    (hheaders : HeadersInside ovmf start size)
    (h : args.compactAllocated = false ∨ ¬start.toNat + size.toNat ≤ ovmf.bytes.length) :
    Pcr0Sound libs lzma env args := by
  apply pcr0Sound_of_fails
  intro s
  obtain ⟨t, ht⟩ := calculatePcr0_of_file (libs.unpackWith lzma) env hfile s
  exact ⟨t, by rw [ht, pcr0FromImage_rejected hheaders h]⟩

theorem pcr0Sound_of_notUnpacked (hfile : readFile args.ovmfFile = some ovmf)
    (hcompact : CompactInside ovmf start size) (halloc : args.compactAllocated = true)
    (h : ∀ fvmain, extractLzmaFvmainNew lzma (compactVolume ovmf start size) ≠
      .ok (some fvmain)) : Pcr0Sound libs lzma env args := by
  have hrun := fun s => calculatePcr0_of_file (libs.unpackWith lzma) env hfile s
  cases hextract : extractLzmaFvmainNew lzma (compactVolume ovmf start size) with
  | error w =>
      have herror : ∀ s, run (calculatePcr0 (libs.unpackWith lzma) env args) s = .error w := by
        intro s
        obtain ⟨t, ht⟩ := hrun s
        exact ht.trans (pcr0FromImage_stops hcompact halloc hextract t)
      constructor
      · intro s hfault
        rw [herror s] at hfault
        cases hfault
        exact ⟨ovmf, start, size, hfile, hcompact, hextract⟩
      · intro s s' hok
        rw [herror s] at hok
        cases hok
  | ok found =>
      cases found with
      | some fvmain => exact absurd hextract (h fvmain)
      | none =>
          apply pcr0Sound_of_fails
          intro s
          obtain ⟨t, ht⟩ := hrun s
          exact ⟨t, ht.trans (pcr0FromImage_none hcompact halloc hextract t)⟩

/-- The run over the volumes ends with -1, or with both of them hashed. -/
theorem pcr0Sound_of_volumes {peiLength : UInt64} (hfile : readFile args.ovmfFile = some ovmf)
    (hcompact : CompactInside ovmf start size) (halloc : args.compactAllocated = true)
    (hextract : extractLzmaFvmainNew lzma (compactVolume ovmf start size) = .ok (some fvmain))
    (hpei : VolumeAt fvmain 0x80 peiLength)
    (h : DumpFails args.dumpPeiPath ∨ ∃ dxeLength, VolumeAt fvmain (peiLength + 0x90) dxeLength ∧
      (DumpFails args.dumpDxePath ∨ env.separatorAllocated = false ∨
        Decompressed lzma (compactVolume ovmf start size) fvmain)) :
    Pcr0Sound libs lzma env args := by
  have hrun : ∀ s, ∃ t, run (calculatePcr0 (libs.unpackWith lzma) env args) s =
      run (measureVolumes libs.sha256 env args fvmain) t := by
    intro s
    obtain ⟨t, ht⟩ := calculatePcr0_of_file (libs.unpackWith lzma) env hfile s
    exact ⟨t, ht.trans (pcr0FromImage_some env hcompact halloc hextract t)⟩
  by_cases hdump : DumpFails args.dumpPeiPath
  · apply pcr0Sound_of_fails
    intro s
    obtain ⟨t, ht⟩ := hrun s
    exact ⟨t, by rw [ht, measureVolumes_peiDump hpei hdump]⟩
  · obtain ⟨dxeLength, hdxe, hend⟩ := h.resolve_left hdump
    by_cases hstops : DumpFails args.dumpDxePath ∨ env.separatorAllocated = false
    · apply pcr0Sound_of_fails
      intro s
      obtain ⟨t, ht⟩ := hrun s
      obtain ⟨u, hu⟩ := measureVolumes_dxeStops libs.sha256 hpei hdump hdxe hstops t
      exact ⟨u, by rw [ht, hu]⟩
    · rw [not_or] at hstops
      have hout := (hend.resolve_left hstops.1).resolve_left hstops.2
      have hseparator : env.separatorAllocated = true := by simpa using hstops.2
      constructor
      · intro s hfault
        obtain ⟨t, ht⟩ := hrun s
        obtain ⟨u, hu⟩ := measureVolumes_completes libs.sha256 hpei hdump hdxe hstops.1
          hseparator t
        rw [ht, hu] at hfault
        cases hfault
      · intro s s' _
        exact ⟨ovmf, start, size, fvmain, peiLength, dxeLength, hfile, hcompact, hout,
          hpei.insideBoth hdxe (extractLzmaFvmainNew_length hextract)⟩

/-- Every run over inputs of the condition ends with -1, in the unpacking, or with both
volumes of a decompressed one hashed. -/
theorem Pcr0Handled.sound (h : Pcr0Handled lzma env args) : Pcr0Sound libs lzma env args := by
  cases h with
  | unreadable hfile => exact pcr0Sound_of_fails fun s => calculatePcr0_of_unreadable hfile s
  | rejected ovmf start size hfile hheaders h => exact pcr0Sound_of_rejected hfile hheaders h
  | notUnpacked ovmf start size hfile hcompact h =>
      by_cases halloc : args.compactAllocated = true
      · exact pcr0Sound_of_notUnpacked hfile hcompact halloc h
      · exact pcr0Sound_of_rejected hfile hcompact.headers (Or.inl (by simpa using halloc))
  | unpacked ovmf start size fvmain peiLength hfile hcompact hextract hpei h =>
      by_cases halloc : args.compactAllocated = true
      · exact pcr0Sound_of_volumes hfile hcompact halloc hextract hpei h
      · exact pcr0Sound_of_rejected hfile hcompact.headers (Or.inl (by simpa using halloc))

/-- A run over the volumes that accesses nothing outside finds PEIFV, and DXEFV behind it
unless it ended before. -/
theorem volumes_of_no_fault {sha256 : Md 32} {t : Measurement 32} {Hashed : Prop}
    (hinside : run (measureVolumes sha256 env args fvmain) t ≠ .error .fault)
    (hdone : ∀ u, run (measureVolumes sha256 env args fvmain) t = .ok (0, u) → Hashed) :
    ∃ peiLength, VolumeAt fvmain 0x80 peiLength ∧
      (DumpFails args.dumpPeiPath ∨ ∃ dxeLength, VolumeAt fvmain (peiLength + 0x90) dxeLength ∧
        (DumpFails args.dumpDxePath ∨ env.separatorAllocated = false ∨ Hashed)) := by
  obtain ⟨peiLength, hpei⟩ : ∃ peiLength, VolumeAt fvmain 0x80 peiLength := by
    by_contra hnone
    exact hinside (measureVolumes_outside hnone t)
  refine ⟨peiLength, hpei, ?_⟩
  by_cases hdump : DumpFails args.dumpPeiPath
  · exact Or.inl hdump
  · right
    obtain ⟨dxeLength, hdxe⟩ : ∃ dxeLength, VolumeAt fvmain (peiLength + 0x90) dxeLength := by
      by_contra hnone
      exact hinside (measureVolumes_dxeOutside hpei hdump hnone t)
    refine ⟨dxeLength, hdxe, ?_⟩
    by_cases hdump' : DumpFails args.dumpDxePath
    · exact Or.inl hdump'
    · by_cases hseparator : env.separatorAllocated = true
      · obtain ⟨u, hu⟩ := measureVolumes_completes sha256 hpei hdump hdxe hdump' hseparator t
        exact Or.inr (Or.inr (hdone u hu))
      · exact Or.inr (Or.inl (by simpa using hseparator))

/-- A fault outside the unpacking, or a 0 without decompression, is all that the condition
leaves out. -/
theorem Pcr0Sound.handled (s : Measurement 32) (h : Pcr0Sound libs lzma env args) :
    Pcr0Handled lzma env args := by
  cases hfile : readFile args.ovmfFile with
  | none => exact .unreadable hfile
  | some ovmf =>
      obtain ⟨t, ht⟩ := calculatePcr0_of_file (libs.unpackWith lzma) env hfile s
      -- a fault in this file is one of its unpacking
      have hfault : run (pcr0FromImage (libs.unpackWith lzma) env args ovmf) t = .error .fault →
          ∃ start size, CompactInside ovmf start size ∧
            extractLzmaFvmainNew lzma (compactVolume ovmf start size) = .error .fault := by
        intro hrun
        obtain ⟨ovmf', start, size, hfile', hcompact, hextract⟩ := h.accesses s (ht.trans hrun)
        rw [hfile] at hfile'
        cases hfile'
        exact ⟨start, size, hcompact, hextract⟩
      by_cases hheaders : ∃ start size, HeadersInside ovmf start size
      · obtain ⟨start, size, hheaders⟩ := hheaders
        by_cases hreject : args.compactAllocated = false ∨
            ¬start.toNat + size.toNat ≤ ovmf.bytes.length
        · exact .rejected ovmf start size hfile hheaders hreject
        · rw [not_or, not_not] at hreject
          have hcompact : CompactInside ovmf start size := ⟨hheaders, hreject.2⟩
          have halloc : args.compactAllocated = true := by simpa using hreject.1
          by_cases hsome : ∃ fvmain,
              extractLzmaFvmainNew lzma (compactVolume ovmf start size) = .ok (some fvmain)
          · obtain ⟨fvmain, hextract⟩ := hsome
            have hrun : run (pcr0FromImage (libs.unpackWith lzma) env args ovmf) t =
                run (measureVolumes libs.sha256 env args fvmain) t :=
              pcr0FromImage_some env hcompact halloc hextract t
            have hinside : run (measureVolumes libs.sha256 env args fvmain) t ≠
                .error .fault := by
              intro hvolumes
              obtain ⟨start', size', hcompact', hextract'⟩ := hfault (hrun.trans hvolumes)
              obtain ⟨rfl, rfl⟩ := hheaders.unique hcompact'.headers
              rw [hextract] at hextract'
              cases hextract'
            have hdone : ∀ u, run (measureVolumes libs.sha256 env args fvmain) t = .ok (0, u) →
                Decompressed lzma (compactVolume ovmf start size) fvmain := by
              intro u hu
              obtain ⟨ovmf', start', size', fvmain', -, -, hfile', hcompact', hout, -⟩ :=
                h.success s u (ht.trans (hrun.trans hu))
              rw [hfile] at hfile'
              cases hfile'
              obtain ⟨rfl, rfl⟩ := hheaders.unique hcompact'.headers
              obtain rfl := hout.eq_of_extract hextract
              exact hout
            obtain ⟨peiLength, hpei, hends⟩ := volumes_of_no_fault hinside hdone
            exact .unpacked ovmf start size fvmain peiLength hfile hcompact hextract hpei hends
          · exact .notUnpacked ovmf start size hfile hcompact fun fvmain hextract =>
              hsome ⟨fvmain, hextract⟩
      · exfalso
        obtain ⟨start, size, hcompact, -⟩ := hfault (pcr0FromImage_outside hheaders t)
        exact hheaders ⟨start, size, hcompact.headers⟩

end Soundness

/-- PCR 0 is measured soundly exactly for the inputs of `Pcr0Handled`. -/
theorem pcr0Sound_iff (libs : PcrLibs) (lzma : LzmaDecoder) (env : PcrEnv) (args : Pcr0Args) :
    Pcr0Sound libs lzma env args ↔ Pcr0Handled lzma env args :=
  ⟨fun h => h.handled ⟨zeroDigest 32, []⟩, fun h => h.sound⟩

/-! ## A volume that does not decompress -/

/-- A firmware volume of one file with one LZMA section that announces 184 bytes. -/
def tinyCompact : Bytes :=
  zeros 32 ++ toLE 8 117 ++ toLE 4 efiFvhSignature ++ zeros 4 ++ toLE 2 56 ++ zeros 6 ++
    (zeros 18 ++ [0x0b, 0] ++ toLE 3 61 ++ [0]) ++
    (toLE 3 37 ++ [0x02] ++ lzmaDecompressGuid.bytes ++ toLE 2 24 ++ zeros 2) ++
    (zeros 5 ++ toLE 8 184)

/-- The volume behind a variable store of 56 bytes. -/
def tinyOvmf : Buffer where
  bytes := zeros 32 ++ toLE 8 56 ++ zeros 16 ++ tinyCompact
  size_lt := by decide +kernel

/-- A decoder that turns everything down and leaves the fresh buffer zero. -/
def failingDecoder : LzmaDecoder where
  decompress _ := none
  leftover input := ⟨zeros input.decodedSize, zeros_length input.decodedSize⟩
  allocated := true

def tinyPcr0 : Pcr0Args where
  ovmfFile := File.intact (ascii "OVMF.fd") tinyOvmf.bytes tinyOvmf.size_lt
  dumpPeiPath := none
  dumpDxePath := none
  compactAllocated := true

def tinyLibs : PcrLibs := ⟨Sha256.sha256, fun _ => none, fun _ => .ok none⟩

theorem tinyOvmf_compact : CompactInside tinyOvmf 56 117 :=
  ⟨⟨by decide +kernel, by decide +kernel⟩, by decide +kernel⟩

theorem tinyOvmf_extracted :
    extractLzmaFvmainNew failingDecoder (compactVolume tinyOvmf 56 117) =
      .ok (some (zeros 184)) := by decide +kernel

/-- The empty volumes at the start of a zero buffer. -/
theorem zeros_volumes : VolumeAt (zeros 184) 0x80 0 ∧ VolumeAt (zeros 184) (0 + 0x90) 0 :=
  ⟨⟨by decide +kernel, by decide +kernel⟩, by decide +kernel, by decide +kernel⟩

theorem not_dumpFails_none : ¬DumpFails none := by simp [DumpFails]

theorem not_pcr0Sound_tiny :
    ¬∀ (libs : PcrLibs) (lzma : LzmaDecoder) (env : PcrEnv) (args : Pcr0Args),
      Pcr0Sound libs lzma env args := by
  intro hall
  have hsound := hall tinyLibs failingDecoder ⟨true, true, true⟩ tinyPcr0
  have hfile : readFile tinyPcr0.ovmfFile = some tinyOvmf :=
    readFile_of_readable (File.intact_readable _ _ _)
  obtain ⟨t, ht⟩ := calculatePcr0_of_file (tinyLibs.unpackWith failingDecoder) ⟨true, true, true⟩
    hfile ⟨zeroDigest 32, []⟩
  have hsome := @pcr0FromImage_some (tinyLibs.unpackWith failingDecoder) tinyPcr0 _ _ _ _
    ⟨true, true, true⟩ tinyOvmf_compact rfl tinyOvmf_extracted t
  obtain ⟨u, hu⟩ := @measureVolumes_completes ⟨true, true, true⟩ tinyPcr0 _ _ _ tinyLibs.sha256
    zeros_volumes.1 not_dumpFails_none
    zeros_volumes.2 not_dumpFails_none rfl t
  obtain ⟨_, _, _, _, _, _, -, -, ⟨input, out, -, hout, -⟩, -⟩ :=
    hsound.success _ u (ht.trans (hsome.trans hu))
  cases hout

end MeasuredBoot.SrtmPcrs
