import MeasuredBoot.SrtmPcrs.FfsSearch
import MeasuredBoot.SrtmPcrs.FirmwareVolumes
import MeasuredBoot.SrtmPcrs.Images

/-! # The layout of the firmware

The firmware as the build writes it: a variable store, FVMAIN_COMPACT with its LZMA
section, and in the unpacked volume PEIFV and DXEFV. PCR 0 of such a file is the replay
of the two volumes, and binds them.
-/

namespace MeasuredBoot.SrtmPcrs

open Binary Imperative Imperative.Proc

/-! ## The compressed section -/

/-- A GUID defined section of the LZMA decoder: the properties of the stream, the
size it decodes to, and the rest. -/
structure LzmaSection where
  attributes : Bytes
  properties : Bytes
  decodedSize : Nat
  data : Bytes
  attributes_length : attributes.length = 2
  properties_length : properties.length = 5
  decodedSize_le : decodedSize ≤ maxUint32
  size_lt : 37 + data.length < 2 ^ 24

namespace LzmaSection

/-- What the decoder is given. -/
def stream (l : LzmaSection) : Bytes := l.properties ++ toLE 8 l.decodedSize ++ l.data

def body (l : LzmaSection) : Bytes :=
  lzmaDecompressGuid.bytes ++ toLE 2 24 ++ l.attributes ++ l.stream

theorem stream_length (l : LzmaSection) : l.stream.length = 13 + l.data.length := by
  simp only [stream, List.length_append, toLE_length, l.properties_length]

theorem body_length (l : LzmaSection) : l.body.length = 33 + l.data.length := by
  have hguid : lzmaDecompressGuid.bytes.length = 16 := rfl
  simp only [body, List.length_append, toLE_length, l.attributes_length, l.stream_length, hguid]
  omega

theorem section_lt (l : LzmaSection) : sizeofSectionHeader + l.body.length < 2 ^ 24 := by
  have hlt := l.size_lt
  rw [l.body_length]
  simp only [sizeofSectionHeader]
  omega

def toSection (l : LzmaSection) : FfsSection := ⟨0x02, l.body, l.section_lt⟩

theorem toSection_size (l : LzmaSection) : l.toSection.size = 37 + l.data.length := by
  rw [FfsSection.size, toSection, l.body_length]
  simp only [sizeofSectionHeader]
  omega

end LzmaSection

/-- What the decoder is called with. -/
def LzmaSection.input (l : LzmaSection) : LzmaInput :=
  ⟨l.stream, UInt32.ofNat l.stream.length, l.decodedSize⟩

/-- The size the decoder is told, as the code computes it. -/
theorem LzmaSection.sourceSize (l : LzmaSection) :
    UInt32.ofNat l.toSection.size - UInt32.ofNat 24 = UInt32.ofNat l.stream.length := by
  have hlt := l.size_lt
  rw [← UInt32.toNat_inj, l.toSection_size, l.stream_length, UInt32.toNat_sub,
    UInt32.toNat_ofNat', UInt32.toNat_ofNat', UInt32.toNat_ofNat']
  omega

theorem LzmaSection.toNat_streamLength (l : LzmaSection) :
    (UInt32.ofNat l.stream.length).toNat = l.stream.length := by
  have hlt := l.size_lt
  rw [l.stream_length, UInt32.toNat_ofNat']
  omega

/-- The stream of the section that is found is what the decoder is given. -/
theorem lzmaSource_encoded {v : FfsVolume} {l : LzmaSection} {start : Nat}
    (hsections : Sectioned 0x0b v.front)
    (hfound : findFile 0x0b 0x02 v.headerLength v.front = some (start, l.toSection)) :
    lzmaSource v.bytes = .ok (some l.input) := by
  have hsearch := v.search_found hsections hfound
  obtain ⟨-, before, after, hbefore, hbytes⟩ :=
    FfsVolume.findFile_slice (FfsVolume.findFile_front hfound)
  have hguidLength : lzmaDecompressGuid.bytes.length = 16 := rfl
  have hsize : readLE v.bytes start 3 = .ok l.toSection.size := by
    have hobject : v.bytes = before ++ toLE 3 l.toSection.size ++ ([0x02] ++ l.body ++ after) := by
      simp [hbytes, FfsSection.bytes, LzmaSection.toSection]
    exact readLE_toLE hobject hbefore.symm l.toSection.size_lt
  have hoffset : readLE v.bytes (start + 20) 2 = .ok 24 := by
    have hobject : v.bytes = (before ++ toLE 3 l.toSection.size ++ [0x02] ++
        lzmaDecompressGuid.bytes) ++ toLE 2 24 ++ (l.attributes ++ l.stream ++ after) := by
      simp [hbytes, FfsSection.bytes, LzmaSection.toSection, LzmaSection.body]
    exact readLE_toLE hobject (by simp [hbefore, hguidLength]) (by decide)
  have hguid : copyFrom v.bytes (start + 4) 16 = .ok lzmaDecompressGuid.bytes := by
    have hobject : v.bytes = (before ++ toLE 3 l.toSection.size ++ [0x02]) ++
        lzmaDecompressGuid.bytes ++ (toLE 2 24 ++ l.attributes ++ l.stream ++ after) := by
      simp [hbytes, FfsSection.bytes, LzmaSection.toSection, LzmaSection.body]
    exact copyFrom_middle hobject (by simp [hbefore]) rfl
  have hdecoded : readLE v.bytes (start + 24 + 5) 8 = .ok l.decodedSize := by
    have hobject : v.bytes = (before ++ toLE 3 l.toSection.size ++ [0x02] ++
        lzmaDecompressGuid.bytes ++ toLE 2 24 ++ l.attributes ++ l.properties) ++
        toLE 8 l.decodedSize ++ (l.data ++ after) := by
      simp [hbytes, FfsSection.bytes, LzmaSection.toSection, LzmaSection.body, LzmaSection.stream]
    exact readLE_toLE hobject
      (by simp [hbefore, hguidLength, l.attributes_length, l.properties_length])
      (Nat.lt_of_le_of_lt l.decodedSize_le (by decide))
  have hstream : slice v.bytes (start + 24) l.stream.length = l.stream := by
    have hobject : v.bytes = (before ++ toLE 3 l.toSection.size ++ [0x02] ++
        lzmaDecompressGuid.bytes ++ toLE 2 24 ++ l.attributes) ++ l.stream ++ after := by
      simp [hbytes, FfsSection.bytes, LzmaSection.toSection, LzmaSection.body]
    rw [hobject]
    exact slice_middle (by simp [hbefore, hguidLength, l.attributes_length]) rfl
  have hlarge : ¬UInt32.ofNat l.toSection.size - UInt32.ofNat 24 < lzmaHeaderSize := by
    rw [UInt32.lt_iff_toNat_lt, l.sourceSize, l.toNat_streamLength, l.stream_length]
    exact Nat.not_lt.mpr (Nat.le_add_right 13 _)
  have hfind : findFfsFileAndSection v.bytes efiFvFiletypeFirmwareVolumeImage
      efiSectionGuidDefined = .ok (some start) := hsearch
  unfold lzmaSource
  rw [hfind]
  dsimp only [bind, Except.bind]
  rw [hsize, hoffset]
  dsimp only
  rw [hguid]
  dsimp only
  rw [if_neg (not_not.mpr rfl), if_neg hlarge, hdecoded]
  dsimp only
  rw [if_neg (Nat.not_lt.mpr l.decodedSize_le), l.sourceSize, l.toNat_streamLength, hstream]
  rfl

/-! ## Volumes in a file -/

/-- A volume by its header: what stands in front of its length, and the rest. -/
structure Fv where
  head : Bytes
  body : Bytes
  head_length : head.length = 32

namespace Fv

def size (fv : Fv) : Nat := 40 + fv.body.length

def bytes (fv : Fv) : Bytes := fv.head ++ toLE 8 fv.size ++ fv.body

theorem bytes_length (fv : Fv) : fv.bytes.length = fv.size := by
  simp only [bytes, List.length_append, toLE_length, fv.head_length, size]

/-- The length of a volume in an object, as the code reads it. -/
theorem fvLength_eq (fv : Fv) {object pre post : Bytes} {off : UInt64}
    (hobject : object = pre ++ fv.bytes ++ post) (hoff : off.toNat = pre.length)
    (hlt : object.length < 2 ^ 63) : fvLength object off = .ok (UInt64.ofNat fv.size) := by
  have hsplit : object = (pre ++ fv.head) ++ toLE 8 fv.size ++ (fv.body ++ post) := by
    simp [hobject, bytes]
  have hsize : pre.length + fv.size ≤ object.length := by
    rw [hobject]
    simp only [List.length_append, fv.bytes_length]
    omega
  have hfield : (off + 32).toNat = (pre ++ fv.head).length := by
    simp only [size] at hsize
    simp only [UInt64.toNat_add, List.length_append, fv.head_length, hoff, UInt64.reduceToNat]
    omega
  unfold fvLength
  rw [copyFrom_middle hsplit hfield (toLE_length 8 fv.size).symm]
  dsimp only [bind, Except.bind]
  rw [ofLE_toLE_of_lt (by omega)]
  rfl

theorem toNat_size (fv : Fv) (h : fv.size < 2 ^ 63) : (UInt64.ofNat fv.size).toNat = fv.size := by
  rw [UInt64.toNat_ofNat']
  omega

theorem volumeAt (fv : Fv) {object pre post : Bytes} {off : UInt64}
    (hobject : object = pre ++ fv.bytes ++ post) (hoff : off.toNat = pre.length)
    (hlt : object.length < 2 ^ 63) :
    VolumeAt object off (UInt64.ofNat fv.size) ∧
      slice object off.toNat (UInt64.ofNat fv.size).toNat = fv.bytes := by
  have hsize : pre.length + fv.size ≤ object.length := by
    rw [hobject]
    simp only [List.length_append, fv.bytes_length]
    omega
  have hnat := fv.toNat_size (by omega)
  refine ⟨⟨fv.fvLength_eq hobject hoff hlt, ?_⟩, ?_⟩
  · rw [hoff, hnat]
    exact hsize
  · rw [hnat, hobject, slice_middle hoff fv.bytes_length.symm]

end Fv

/-- A file system as a volume. -/
def FfsVolume.toFv (v : FfsVolume) : Fv where
  head := v.head
  body := toLE 4 efiFvhSignature ++ v.attributes ++ toLE 2 v.headerLength ++ v.tail ++
    encodeFiles v.headerLength v.files ++ List.replicate v.free 0xff
  head_length := v.head_length

theorem FfsVolume.toFv_size (v : FfsVolume) : v.toFv.size = v.size := by
  simp only [Fv.size, toFv, List.length_append, toLE_length, v.attributes_length,
    List.length_replicate, size, endOfFiles]
  simp only [headerLength]
  omega

theorem FfsVolume.toFv_bytes (v : FfsVolume) : v.toFv.bytes = v.bytes := by
  rw [Fv.bytes, v.toFv_size]
  simp [toFv, bytes, header]

/-- The firmware file. -/
structure Firmware where
  varStore : Fv
  compact : FfsVolume
  secFv : Bytes
  size_lt : (varStore.bytes ++ compact.bytes ++ secFv).length < 2 ^ 63

def Firmware.buffer (fw : Firmware) : Buffer where
  bytes := fw.varStore.bytes ++ fw.compact.bytes ++ fw.secFv
  size_lt := fw.size_lt

/-- FVMAIN_COMPACT stands behind the variable store. -/
theorem Firmware.compact_inside (fw : Firmware) :
    CompactInside fw.buffer (UInt64.ofNat fw.varStore.size) (UInt64.ofNat fw.compact.size) ∧
      compactVolume fw.buffer (UInt64.ofNat fw.varStore.size) (UInt64.ofNat fw.compact.size) =
        fw.compact.bytes := by
  have hstore : fw.buffer.bytes =
      [] ++ fw.varStore.bytes ++ (fw.compact.toFv.bytes ++ fw.secFv) := by
    rw [fw.compact.toFv_bytes, List.nil_append, ← List.append_assoc]
    rfl
  have hcompact : fw.buffer.bytes =
      fw.varStore.bytes ++ fw.compact.toFv.bytes ++ fw.secFv := by
    rw [fw.compact.toFv_bytes]
    rfl
  have hlt := fw.buffer.size_lt
  have hstart : (UInt64.ofNat fw.varStore.size).toNat = fw.varStore.bytes.length := by
    rw [fw.varStore.bytes_length]
    apply fw.varStore.toNat_size
    rw [hcompact] at hlt
    simp only [List.length_append, fw.varStore.bytes_length] at hlt
    omega
  obtain ⟨hvolume, hslice⟩ := fw.compact.toFv.volumeAt hcompact hstart hlt
  rw [fw.compact.toFv_size] at hvolume hslice
  rw [fw.compact.toFv_bytes] at hslice
  exact ⟨⟨⟨fw.varStore.fvLength_eq hstore rfl hlt, hvolume.header⟩, hvolume.inside⟩, hslice⟩

/-- The unpacked volume, with section headers in front of both of its volumes. -/
structure FvMain where
  lead : Bytes
  peiFv : Fv
  gap : Bytes
  dxeFv : Fv
  rest : Bytes
  lead_length : lead.length = 0x80
  gap_length : gap.length = 0x10

def FvMain.bytes (m : FvMain) : Bytes :=
  m.lead ++ m.peiFv.bytes ++ m.gap ++ m.dxeFv.bytes ++ m.rest

/-- Both volumes stand where the code looks for them. -/
theorem FvMain.volumes (m : FvMain) (hlt : m.bytes.length < 2 ^ 63) :
    (VolumeAt m.bytes 0x80 (UInt64.ofNat m.peiFv.size) ∧
      slice m.bytes (0x80 : UInt64).toNat (UInt64.ofNat m.peiFv.size).toNat = m.peiFv.bytes) ∧
    (VolumeAt m.bytes (UInt64.ofNat m.peiFv.size + 0x90) (UInt64.ofNat m.dxeFv.size) ∧
      slice m.bytes (UInt64.ofNat m.peiFv.size + 0x90).toNat (UInt64.ofNat m.dxeFv.size).toNat =
        m.dxeFv.bytes) := by
  have hpei : m.bytes = m.lead ++ m.peiFv.bytes ++ (m.gap ++ m.dxeFv.bytes ++ m.rest) := by
    simp only [bytes, List.append_assoc]
  have hlen := congrArg List.length hpei
  simp only [List.length_append, m.peiFv.bytes_length, m.gap_length, m.lead_length] at hlen
  have hoff : (UInt64.ofNat m.peiFv.size + 0x90).toNat =
      (m.lead ++ m.peiFv.bytes ++ m.gap).length := by
    have hnat := m.peiFv.toNat_size (by omega)
    simp only [UInt64.toNat_add, hnat, List.length_append, m.lead_length, m.peiFv.bytes_length,
      m.gap_length, UInt64.reduceToNat]
    omega
  exact ⟨m.peiFv.volumeAt hpei m.lead_length.symm hlt, m.dxeFv.volumeAt rfl hoff hlt⟩

/-! ## The register -/

section Register

variable {libs : PcrLibs} {env : PcrEnv} {args : Pcr0Args} {fvmain : Bytes}

/-- The digests that `calculate_pcr0` extends. -/
def pcr0Digests (sha256 : Md 32) (pei dxe : Bytes) : List (Digest 32) :=
  [sha256 (zeros 2), sha256 pei, sha256 dxe, sha256 evSeparator]

theorem measureVolume_recorded (libs : PcrLibs) {off size : UInt64} {dumpPath : Option DumpFile}
    (hvolume : VolumeAt fvmain off size) (h : ¬DumpFails dumpPath) (name desc : Bytes)
    (s : Measurement 32) :
    ∃ t, measureVolume libs.sha256 fvmain off dumpPath name desc s =
        (pure () : Proc (Measurement 32) Unit) t ∧
      Recorded libs 0 [libs.sha256 (slice fvmain off.toNat size.toNat)] s t := by
  refine ⟨_, ?_, .record s name _ desc⟩
  unfold measureVolume
  rw [hvolume.header, lift_ok_bind, copyFrom_ok hvolume.inside, lift_ok_bind,
    hashAndDump_writes h]
  rfl

theorem measureVolumes_recorded (libs : PcrLibs) {peiLength dxeLength : UInt64}
    (hpei : VolumeAt fvmain 0x80 peiLength) (hdump : ¬DumpFails args.dumpPeiPath)
    (hdxe : VolumeAt fvmain (peiLength + 0x90) dxeLength) (hdump' : ¬DumpFails args.dumpDxePath)
    (hseparator : env.separatorAllocated = true) (s : Measurement 32) :
    ∃ t, run (measureVolumes libs.sha256 env args fvmain) s = .ok (0, t) ∧
      Recorded libs 0 [libs.sha256 (slice fvmain (0x80 : UInt64).toNat peiLength.toNat),
        libs.sha256 (slice fvmain (peiLength + 0x90).toNat dxeLength.toNat),
        libs.sha256 evSeparator] s t := by
  obtain ⟨t, ht, hrecorded⟩ := measureVolume_recorded libs hpei hdump (ascii "PEIFV")
    (ascii "OVMF UEFI PEI Firmware Volume") s
  obtain ⟨u, hu, hrecorded'⟩ := measureVolume_recorded libs hdxe hdump' (ascii "DXEFV")
    (ascii "OVMF UEFI DXE Firmware Volume") t
  obtain ⟨v, hv⟩ : ∃ v, run (do
      exitIf (env.separatorAllocated = false) (-1)
      measureSeparator libs.sha256 0
      return (0 : Int)) u = .ok (0, v) := by
    rw [exitIf_neg (by simp [hseparator])]
    exact ⟨_, rfl⟩
  refine ⟨v, ?_, (hrecorded.trans hrecorded').trans (separatorEnd_recorded 0 hv)⟩
  unfold measureVolumes
  rw [hpei.header, run_bind_of_eq ht, pure_bind, lift_ok_bind, run_bind_of_eq hu, pure_bind]
  exact hv

/-- The body starts with the version of the firmware. -/
theorem calculatePcr0_of_buffer (libs : PcrLibs) (env : PcrEnv) {ovmf : Buffer}
    (hfile : readFile args.ovmfFile = some ovmf)
    (s : Measurement 32) :
    ∃ t, run (calculatePcr0 libs env args) s = run (pcr0FromImage libs env args ovmf) t ∧
      Recorded libs 0 [libs.sha256 (zeros 2)] s.clear t := by
  refine ⟨_, ?_, .record s.clear (ascii "EV_S_CRTM_VERSION") _ (ascii "CRTM Version String")⟩
  unfold calculatePcr0
  rw [hfile]
  rfl

end Register

/-- The ranges of the unpacked volume that are hashed. -/
structure HashedVolumes (lzma : LzmaDecoder) (args : Pcr0Args) (pei dxe : Bytes) : Prop where
  found : ∃ ovmf start size fvmain peiLength dxeLength, readFile args.ovmfFile = some ovmf ∧
    CompactInside ovmf start size ∧
    extractLzmaFvmainNew lzma (compactVolume ovmf start size) = .ok (some fvmain) ∧
    VolumeAt fvmain 0x80 peiLength ∧
    pei = slice fvmain (0x80 : UInt64).toNat peiLength.toNat ∧
    VolumeAt fvmain (peiLength + 0x90) dxeLength ∧
    dxe = slice fvmain (peiLength + 0x90).toNat dxeLength.toNat

/-- A run over volumes that are found, where nothing fails. -/
theorem calculatePcr0_of_hashed (libs : PcrLibs) {lzma : LzmaDecoder} {env : PcrEnv}
    {args : Pcr0Args} {pei dxe : Bytes} (h : HashedVolumes lzma args pei dxe)
    (halloc : args.compactAllocated = true) (hseparator : env.separatorAllocated = true)
    (hdump : ¬DumpFails args.dumpPeiPath) (hdump' : ¬DumpFails args.dumpDxePath)
    (s : Measurement 32) :
    ∃ t, run (calculatePcr0 (libs.unpackWith lzma) env args) s = .ok (0, t) ∧
      Recorded (libs.unpackWith lzma) 0 (pcr0Digests libs.sha256 pei dxe) s.clear t := by
  obtain ⟨ovmf, start, size, fvmain, peiLength, dxeLength, hfile, hinside, hextract, hpei, rfl,
    hdxe, rfl⟩ := h.found
  obtain ⟨t, ht, hversion⟩ := calculatePcr0_of_buffer (libs.unpackWith lzma) env hfile s
  obtain ⟨u, hu, hrecorded⟩ := measureVolumes_recorded (libs.unpackWith lzma) hpei hdump hdxe
    hdump' hseparator t
  refine ⟨u, ?_, hversion.trans hrecorded⟩
  rw [ht, pcr0FromImage_some env hinside halloc hextract]
  exact hu

/-- The file is firmware with the unpacked volume inside, in a section that no file without
room for one stands in front of, and nothing fails. -/
structure BuiltFrom (lzma : LzmaDecoder) (env : PcrEnv) (args : Pcr0Args) (fw : Firmware)
    (m : FvMain) : Prop where
  file : readFile args.ovmfFile = some fw.buffer
  sections : Sectioned 0x0b fw.compact.front
  packed : ∃ start l out, findFile 0x0b 0x02 fw.compact.headerLength fw.compact.front =
      some (start, LzmaSection.toSection l) ∧
    lzma.decompress l.input = some out ∧ out.val = m.bytes
  allocated : lzma.allocated = true ∧ args.compactAllocated = true ∧ env.separatorAllocated = true
  dumped : ¬DumpFails args.dumpPeiPath ∧ ¬DumpFails args.dumpDxePath

theorem BuiltFrom.extract {lzma : LzmaDecoder} {env : PcrEnv} {args : Pcr0Args} {fw : Firmware}
    {m : FvMain} (h : BuiltFrom lzma env args fw m) :
    extractLzmaFvmainNew lzma fw.compact.bytes = .ok (some m.bytes) := by
  obtain ⟨start, l, out, hfound, hdecoded, hout⟩ := h.packed
  have halloc : ¬lzma.allocated = false := by simp [h.allocated.1]
  unfold extractLzmaFvmainNew
  rw [lzmaSource_encoded h.sections hfound]
  dsimp only [bind, Except.bind]
  rw [if_neg halloc, LzmaDecoder.buffer, hdecoded, ← hout]
  rfl

/-- The volumes that were packed are the ones that are hashed. -/
theorem BuiltFrom.hashed {lzma : LzmaDecoder} {env : PcrEnv} {args : Pcr0Args} {fw : Firmware}
    {m : FvMain} (h : BuiltFrom lzma env args fw m) :
    HashedVolumes lzma args m.peiFv.bytes m.dxeFv.bytes := by
  obtain ⟨hinside, hcompact⟩ := fw.compact_inside
  have hextract := h.extract
  have hlt : m.bytes.length < 2 ^ 63 :=
    Nat.lt_of_le_of_lt (extractLzmaFvmainNew_length hextract) (by decide)
  obtain ⟨⟨hpei, hpeiSlice⟩, hdxe, hdxeSlice⟩ := m.volumes hlt
  rw [← hcompact] at hextract
  exact ⟨_, _, _, _, _, _, h.file, hinside, hextract, hpei, hpeiSlice.symm, hdxe,
    hdxeSlice.symm⟩

/-- The file is firmware in which a file without room for a section stands in front of any
section of the type. -/
structure HiddenBy (args : Pcr0Args) (fw : Firmware) : Prop where
  file : readFile args.ovmfFile = some fw.buffer
  sections : Sectioned 0x0b fw.compact.front
  short : ∃ f ∈ fw.compact.files, f.HeaderOnly
  hidden : findFile 0x0b 0x02 fw.compact.headerLength fw.compact.front = none

theorem HiddenBy.extract (lzma : LzmaDecoder) {args : Pcr0Args} {fw : Firmware}
    (h : HiddenBy args fw) : extractLzmaFvmainNew lzma fw.compact.bytes = .ok none := by
  have hsearch := fw.compact.search_headerOnly 0x02 h.sections h.short
  rw [h.hidden] at hsearch
  have hfind : findFfsFileAndSection fw.compact.bytes efiFvFiletypeFirmwareVolumeImage
      efiSectionGuidDefined = .ok none := hsearch
  unfold extractLzmaFvmainNew lzmaSource
  rw [hfind]
  rfl

theorem calculatePcr0_of_hidden (libs : PcrLibs) (lzma : LzmaDecoder) (env : PcrEnv)
    {args : Pcr0Args} {fw : Firmware} (h : HiddenBy args fw) (s : Measurement 32) :
    ∃ t, run (calculatePcr0 (libs.unpackWith lzma) env args) s = .ok (-1, t) := by
  obtain ⟨hinside, hcompact⟩ := fw.compact_inside
  have hextract := h.extract lzma
  rw [← hcompact] at hextract
  obtain ⟨t, ht⟩ := calculatePcr0_of_file (libs.unpackWith lzma) env h.file s
  rw [ht]
  cases halloc : args.compactAllocated with
  | false => exact ⟨t, pcr0FromImage_rejected hinside.headers (Or.inl halloc) t⟩
  | true => exact ⟨t, pcr0FromImage_none hinside halloc hextract t⟩

/-- PCR 0 of a firmware file is calculated from the two volumes that were packed. Where a
file without room for a section stands in front of the packed ones, it is not calculated. -/
theorem calculatePcr0_builtFrom (libs : PcrLibs) (lzma : LzmaDecoder) (env : PcrEnv)
    (args : Pcr0Args) (fw : Firmware) (s : Measurement 32) :
    (∀ m, BuiltFrom lzma env args fw m →
      ∃ t, run (calculatePcr0 (libs.unpackWith lzma) env args) s = .ok (0, t) ∧
        Recorded (libs.unpackWith lzma) 0
          (pcr0Digests libs.sha256 m.peiFv.bytes m.dxeFv.bytes) s.clear t) ∧
    (HiddenBy args fw →
      ∃ t, run (calculatePcr0 (libs.unpackWith lzma) env args) s = .ok (-1, t)) := by
  constructor
  · intro m h
    exact calculatePcr0_of_hashed libs h.hashed h.allocated.2.1 h.allocated.2.2 h.dumped.1
      h.dumped.2 s
  · exact fun h => calculatePcr0_of_hidden libs lzma env h s

/-! ### A small firmware -/

theorem findFile_first {fileType sectionType : UInt8} {pos : Nat} {f : FfsFile}
    {files : List FfsFile} {s : FfsSection} {sections : List FfsSection} (hfile : f.type = fileType)
    (hcontent : f.content = .sections (s :: sections)) (hsection : s.type = sectionType) :
    findFile fileType sectionType pos (f :: files) =
      some (alignUp pos 8 + sizeofFileHeader + alignUp 0 4, s) := by
  simp [findFile, FfsFile.lookup, hcontent, hfile, findSection, hsection]

theorem zeros_4 : (zeros 4).length = 4 := zeros_length 4

theorem zeros_16 : (zeros 16).length = 16 := zeros_length 16

theorem zeros_32 : (zeros 32).length = 32 := zeros_length 32

theorem zeros_128 : (zeros 128).length = 128 := zeros_length 128

/-- Two empty volumes. -/
def smallFvMain : FvMain where
  lead := zeros 0x80
  peiFv := ⟨zeros 32, [], zeros_32⟩
  gap := zeros 0x10
  dxeFv := ⟨zeros 32, [], zeros_32⟩
  rest := []
  lead_length := zeros_128
  gap_length := zeros_16

/-- The section they are compressed to. -/
def smallLzma : LzmaSection where
  attributes := [1, 0]
  properties := [0, 0, 16, 0, 0]
  decodedSize := 224
  data := [0, 0, 111, 159, 150, 223, 72, 249, 134, 165, 141, 98, 15, 255, 248, 71, 208, 0]
  attributes_length := rfl
  properties_length := rfl
  decodedSize_le := by decide
  size_lt := by decide

def smallFile : FfsFile where
  name := zeros 18
  type := 0x0b
  attributes := 0
  state := 0xf8
  content := .sections [smallLzma.toSection]
  name_length := zeros_length 18
  size_lt := by decide +kernel

def smallCompact : FfsVolume where
  head := zeros 32
  attributes := zeros 4
  tail := zeros 6
  files := [smallFile]
  free := 41
  head_length := zeros_32
  attributes_length := zeros_4
  headerLength_lt := by decide
  size_lt := by decide +kernel

def smallFirmware : Firmware where
  varStore := ⟨zeros 32, zeros 16, zeros_32⟩
  compact := smallCompact
  secFv := []
  size_lt := by decide +kernel

/-- The same volumes behind another variable store. -/
def otherFirmware : Firmware where
  varStore := ⟨zeros 32, List.replicate 24 0xff, zeros_32⟩
  compact := smallCompact
  secFv := ascii "SEC"
  size_lt := by decide +kernel

theorem smallFvMain_length : smallFvMain.bytes.length = smallLzma.input.decodedSize := by
  decide +kernel

/-- A decoder that knows one stream. -/
def smallDecoder : LzmaDecoder :=
  { failingDecoder with
    decompress := fun input =>
      if h : input = smallLzma.input then
        some ⟨smallFvMain.bytes, smallFvMain_length.trans (congrArg LzmaInput.decodedSize h.symm)⟩
      else none }

theorem smallDecoder_decompress :
    smallDecoder.decompress smallLzma.input = some ⟨smallFvMain.bytes, smallFvMain_length⟩ := by
  simp only [smallDecoder, dite_true]

def smallPcr0 : Pcr0Args where
  ovmfFile := .intact (ascii "OVMF.fd") smallFirmware.buffer.bytes smallFirmware.size_lt
  dumpPeiPath := none
  dumpDxePath := none
  compactAllocated := true

theorem smallCompact_front : smallCompact.front = [smallFile] := by
  refine smallCompact.front_eq fun f hf => ?_
  rw [List.mem_singleton.mp hf]
  decide +kernel

theorem smallCompact_sectioned : Sectioned 0x0b smallCompact.front := by
  intro f hf _
  rw [smallCompact_front] at hf
  rw [List.mem_singleton.mp hf]
  exact ⟨_, rfl⟩

theorem smallCompact_packed : ∃ start l out, findFile 0x0b 0x02 smallCompact.headerLength
      smallCompact.front = some (start, LzmaSection.toSection l) ∧
    smallDecoder.decompress l.input = some out ∧ out.val = smallFvMain.bytes := by
  have hfound : findFile 0x0b 0x02 smallCompact.headerLength [smallFile] = _ :=
    findFile_first rfl rfl rfl
  rw [← smallCompact_front] at hfound
  exact ⟨_, smallLzma, _, hfound, smallDecoder_decompress, rfl⟩

theorem smallPcr0_builtFrom :
    BuiltFrom smallDecoder ⟨true, true, false⟩ smallPcr0 smallFirmware smallFvMain where
  file := readFile_of_readable (File.intact_readable _ _ _)
  sections := smallCompact_sectioned
  packed := smallCompact_packed
  allocated := ⟨rfl, rfl, rfl⟩
  dumped := ⟨not_dumpFails_none, not_dumpFails_none⟩

def otherPcr0 : Pcr0Args where
  ovmfFile := .intact (ascii "OVMF.fd") otherFirmware.buffer.bytes otherFirmware.size_lt
  dumpPeiPath := none
  dumpDxePath := none
  compactAllocated := true

theorem otherPcr0_builtFrom :
    BuiltFrom smallDecoder ⟨true, true, false⟩ otherPcr0 otherFirmware smallFvMain where
  file := readFile_of_readable (File.intact_readable _ _ _)
  sections := smallCompact_sectioned
  packed := smallCompact_packed
  allocated := ⟨rfl, rfl, rfl⟩
  dumped := ⟨not_dumpFails_none, not_dumpFails_none⟩

def sha256Libs : PcrLibs := ⟨Sha256.sha256, fun _ => none, fun _ => .ok none⟩

/-- The same firmware with a pad file of nothing but its header in front. -/
def paddedFirmware : Firmware where
  varStore := ⟨zeros 32, zeros 16, zeros_32⟩
  compact := {
    head := zeros 32
    attributes := zeros 4
    tail := zeros 6
    files := [padFile, smallFile]
    free := 41
    head_length := zeros_32
    attributes_length := zeros_4
    headerLength_lt := by decide
    size_lt := by decide +kernel }
  secFv := []
  size_lt := by decide +kernel

def paddedPcr0 : Pcr0Args where
  ovmfFile := .intact (ascii "OVMF.fd") paddedFirmware.buffer.bytes paddedFirmware.size_lt
  dumpPeiPath := none
  dumpDxePath := none
  compactAllocated := true

theorem padFile_headerOnly : padFile.HeaderOnly := by decide

theorem paddedPcr0_hidden : HiddenBy paddedPcr0 paddedFirmware where
  file := readFile_of_readable (File.intact_readable _ _ _)
  sections := fun _ hf => absurd hf List.not_mem_nil
  short := ⟨padFile, List.mem_cons_self, padFile_headerOnly⟩
  hidden := rfl

/-- PCR 0 of the small firmware is calculated, and not that of the padded one. -/
theorem calculatePcr0_builtFrom_smallFirmware :
    (∃ t, run (calculatePcr0 (sha256Libs.unpackWith smallDecoder) ⟨true, true, false⟩ smallPcr0)
        ⟨zeroDigest 32, []⟩ = .ok (0, t) ∧
      Recorded (sha256Libs.unpackWith smallDecoder) 0
        (pcr0Digests Sha256.sha256 smallFvMain.peiFv.bytes smallFvMain.dxeFv.bytes)
        (Measurement.clear ⟨zeroDigest 32, []⟩) t) ∧
    ∃ t, run (calculatePcr0 (sha256Libs.unpackWith smallDecoder) ⟨true, true, false⟩ paddedPcr0)
      ⟨zeroDigest 32, []⟩ = .ok (-1, t) :=
  ⟨(calculatePcr0_builtFrom sha256Libs smallDecoder ⟨true, true, false⟩ smallPcr0 smallFirmware
      ⟨zeroDigest 32, []⟩).1 smallFvMain smallPcr0_builtFrom,
    (calculatePcr0_builtFrom sha256Libs smallDecoder ⟨true, true, false⟩ paddedPcr0 paddedFirmware
      ⟨zeroDigest 32, []⟩).2 paddedPcr0_hidden⟩

/-! ## The register binds the volumes -/

section Binding

variable {libs : PcrLibs} {lzma : LzmaDecoder} {env : PcrEnv} {args : Pcr0Args}

/-- A run over the volumes that returns 0 hashed both. -/
theorem measureVolumes_hashed {fvmain : Bytes} {s t : Measurement 32}
    (hrun : run (measureVolumes libs.sha256 env args fvmain) s = .ok (0, t)) :
    ∃ peiLength dxeLength, VolumeAt fvmain 0x80 peiLength ∧
      VolumeAt fvmain (peiLength + 0x90) dxeLength ∧
      Recorded libs 0 [libs.sha256 (slice fvmain (0x80 : UInt64).toNat peiLength.toNat),
        libs.sha256 (slice fvmain (peiLength + 0x90).toNat dxeLength.toNat),
        libs.sha256 evSeparator] s t := by
  have hinside : run (measureVolumes libs.sha256 env args fvmain) s ≠ .error .fault := by
    intro hfault
    rw [hrun] at hfault
    cases hfault
  have hdone : ∀ u, run (measureVolumes libs.sha256 env args fvmain) s = .ok (0, u) → True :=
    fun _ _ => trivial
  obtain ⟨peiLength, hpei, h⟩ := volumes_of_no_fault hinside hdone
  have hdump : ¬DumpFails args.dumpPeiPath := by
    intro hfails
    rw [measureVolumes_peiDump hpei hfails] at hrun
    cases hrun
  obtain ⟨dxeLength, hdxe, -⟩ := h.resolve_left hdump
  have hstops : ¬(DumpFails args.dumpDxePath ∨ env.separatorAllocated = false) := by
    intro hstops
    obtain ⟨u, hu⟩ := measureVolumes_dxeStops libs.sha256 hpei hdump hdxe hstops s
    rw [hrun] at hu
    cases hu
  rw [not_or] at hstops
  obtain ⟨u, hu, hrecorded⟩ := measureVolumes_recorded libs hpei hdump hdxe hstops.1
    (by simpa using hstops.2) s
  rw [hrun] at hu
  cases hu
  exact ⟨peiLength, dxeLength, hpei, hdxe, hrecorded⟩

/-- A run that returns 0 recorded the two volumes. -/
theorem calculatePcr0_hashed {s t : Measurement 32}
    (hrun : run (calculatePcr0 (libs.unpackWith lzma) env args) s = .ok (0, t)) :
    ∃ pei dxe, HashedVolumes lzma args pei dxe ∧
      Recorded (libs.unpackWith lzma) 0 (pcr0Digests libs.sha256 pei dxe) s.clear t := by
  cases hfile : readFile args.ovmfFile with
  | none =>
      obtain ⟨u, hu⟩ : ∃ u, run (calculatePcr0 (libs.unpackWith lzma) env args) s = .ok (-1, u) :=
        calculatePcr0_of_unreadable hfile s
      rw [hrun] at hu
      cases hu
  | some ovmf =>
      obtain ⟨u, hu, hversion⟩ := calculatePcr0_of_buffer (libs.unpackWith lzma) env hfile s
      rw [hu] at hrun
      by_cases hheaders : ∃ start size, HeadersInside ovmf start size
      · obtain ⟨start, size, hheaders⟩ := hheaders
        by_cases hreject : args.compactAllocated = false ∨
            ¬start.toNat + size.toNat ≤ ovmf.bytes.length
        · rw [pcr0FromImage_rejected hheaders hreject] at hrun
          cases hrun
        · rw [not_or, not_not] at hreject
          have hcompact : CompactInside ovmf start size := ⟨hheaders, hreject.2⟩
          have halloc : args.compactAllocated = true := by simpa using hreject.1
          cases hextract : extractLzmaFvmainNew lzma (compactVolume ovmf start size) with
          | error w =>
              rw [pcr0FromImage_stops hcompact halloc hextract] at hrun
              cases hrun
          | ok found =>
              cases found with
              | none =>
                  rw [pcr0FromImage_none hcompact halloc hextract] at hrun
                  cases hrun
              | some fvmain =>
                  rw [pcr0FromImage_some env hcompact halloc hextract] at hrun
                  obtain ⟨peiLength, dxeLength, hpei, hdxe, hrecorded⟩ :=
                    measureVolumes_hashed hrun
                  exact ⟨_, _, ⟨ovmf, start, size, fvmain, peiLength, dxeLength, hfile, hcompact,
                    hextract, hpei, rfl, hdxe, rfl⟩, hversion.trans hrecorded⟩
      · rw [pcr0FromImage_outside hheaders] at hrun
        cases hrun

/-- Two calculations of PCR 0 that end with the same value hashed the same volumes, or the
hash breaks; the decoder may leave other bytes behind in each of them. -/
theorem calculatePcr0_binds_volumes {lzma' : LzmaDecoder} {env' : PcrEnv} {args' : Pcr0Args}
    {s s' t t' : Measurement 32}
    (hrun : run (calculatePcr0 (libs.unpackWith lzma) env args) s = .ok (0, t))
    (hrun' : run (calculatePcr0 (libs.unpackWith lzma') env' args') s' = .ok (0, t'))
    (heq : t.mr = t'.mr) :
    ∃ pei dxe pei' dxe', HashedVolumes lzma args pei dxe ∧ HashedVolumes lzma' args' pei' dxe' ∧
      (pei = pei' ∧ dxe = dxe' ∨
        HashChain.Collides libs.sha256 [pei, dxe] [pei', dxe'] ∨
        HashBreaks libs.sha256 (pcr0Digests libs.sha256 pei dxe)
          (pcr0Digests libs.sha256 pei' dxe')) := by
  obtain ⟨pei, dxe, hhashed, hrecorded⟩ := calculatePcr0_hashed hrun
  obtain ⟨pei', dxe', hhashed', hrecorded'⟩ := calculatePcr0_hashed hrun'
  refine ⟨pei, dxe, pei', dxe', hhashed, hhashed', ?_⟩
  have hreplay : replay libs.sha256 (pcr0Digests libs.sha256 pei dxe) =
      replay libs.sha256 (pcr0Digests libs.sha256 pei' dxe') :=
    hrecorded.extended.symm.trans (heq.trans hrecorded'.extended)
  rcases replay_binding hreplay with hdigests | hbreaks
  · simp only [pcr0Digests, List.cons.injEq, and_true, true_and] at hdigests
    obtain ⟨hpei, hdxe⟩ := hdigests
    by_cases hsame : pei = pei' ∧ dxe = dxe'
    · exact Or.inl hsame
    · right
      left
      rw [not_and_or] at hsame
      rcases hsame with hne | hne
      · exact ⟨pei, by simp, pei', by simp, hne, hpei⟩
      · exact ⟨dxe, by simp, dxe', by simp, hne, hdxe⟩
  · exact Or.inr (Or.inr hbreaks)

end Binding

/-- The decoder with another heap. -/
def laterDecoder : LzmaDecoder :=
  { smallDecoder with
    leftover := fun input => ⟨List.replicate input.decodedSize 0xff, List.length_replicate⟩ }

theorem laterDecoder_hashed :
    HashedVolumes laterDecoder otherPcr0 smallFvMain.peiFv.bytes smallFvMain.dxeFv.bytes :=
  @BuiltFrom.hashed _ ⟨true, true, false⟩ _ otherFirmware _
    ⟨otherPcr0_builtFrom.file, otherPcr0_builtFrom.sections, otherPcr0_builtFrom.packed,
      ⟨rfl, rfl, rfl⟩, otherPcr0_builtFrom.dumped⟩

/-- Two files with the same volumes end with one value. -/
theorem calculatePcr0_binds_volumes_otherFirmware :
    ∃ t t', run (calculatePcr0 (sha256Libs.unpackWith smallDecoder) ⟨true, true, false⟩ smallPcr0)
        ⟨zeroDigest 32, []⟩ = .ok (0, t) ∧
      run (calculatePcr0 (sha256Libs.unpackWith laterDecoder) ⟨true, true, false⟩ otherPcr0)
        ⟨zeroDigest 32, []⟩ = .ok (0, t') ∧ t.mr = t'.mr ∧
      ∃ pei dxe pei' dxe', HashedVolumes smallDecoder smallPcr0 pei dxe ∧
        HashedVolumes laterDecoder otherPcr0 pei' dxe' ∧
        (pei = pei' ∧ dxe = dxe' ∨
          HashChain.Collides Sha256.sha256 [pei, dxe] [pei', dxe'] ∨
          HashBreaks Sha256.sha256 (pcr0Digests Sha256.sha256 pei dxe)
            (pcr0Digests Sha256.sha256 pei' dxe')) := by
  obtain ⟨t, ht, hrecorded⟩ := calculatePcr0_of_hashed sha256Libs smallPcr0_builtFrom.hashed rfl
    (rfl : (⟨true, true, false⟩ : PcrEnv).separatorAllocated = true) not_dumpFails_none
    not_dumpFails_none ⟨zeroDigest 32, []⟩
  obtain ⟨t', ht', hrecorded'⟩ := calculatePcr0_of_hashed sha256Libs laterDecoder_hashed rfl
    (rfl : (⟨true, true, false⟩ : PcrEnv).separatorAllocated = true) not_dumpFails_none
    not_dumpFails_none ⟨zeroDigest 32, []⟩
  have hsame : t.mr = t'.mr := hrecorded.extended.trans hrecorded'.extended.symm
  exact ⟨t, t', ht, ht', hsame, calculatePcr0_binds_volumes ht ht' hsame⟩

end MeasuredBoot.SrtmPcrs
