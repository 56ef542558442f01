import MeasuredBoot.Common.File

/-! # Pages of an SNP guest

The structures of `snp.c`: the page information a launch update hashes, the save
area of a virtual CPU and the table of kernel hashes.
-/

namespace MeasuredBoot.Snp

open Binary

inductive VmmType where
  | qemu
  | ec2
  | unknown
  deriving DecidableEq, Repr

/-! ## Page information -/

def snpPageTypeNormal : UInt8 := 0x1
def snpPageTypeVmsa : UInt8 := 0x2
def snpPageTypeZero : UInt8 := 0x3
def snpPageTypeSecrets : UInt8 := 0x5
def snpPageTypeCpuid : UInt8 := 0x6

/-- The fields of `snp_launch_update_page_info` that a launch update sets. -/
@[ext] structure PageInfo where
  contents : Digest 48
  pageType : UInt8
  gpa : UInt64

/-- The packed structure with the digest so far. -/
def pageInfoBytes (digestCur : Digest 48) (info : PageInfo) : Bytes :=
  digestCur.val ++ info.contents.val ++ toLE 2 0x70 ++ [info.pageType] ++
    [0, 0, 0, 0, 0] ++ toLE 8 info.gpa.toNat

/-- The structure determines the digest and the fields. -/
theorem pageInfoBytes_inj {d d' : Digest 48} {info info' : PageInfo}
    (h : pageInfoBytes d info = pageInfoBytes d' info') : d = d' ∧ info = info' := by
  have hdigest := d.property.trans d'.property.symm
  unfold pageInfoBytes at h
  have hgpa := List.append_inj_right' h (by simp)
  have hreserved := List.append_inj_left' h (by simp)
  have htypes := List.append_inj_left' hreserved rfl
  have htype := List.append_inj_right' htypes rfl
  have hlengths := List.append_inj_left' htypes rfl
  have hdigests := List.append_inj_left' hlengths rfl
  refine ⟨Subtype.ext (List.append_inj_left hdigests hdigest), PageInfo.ext ?_ ?_ ?_⟩
  · exact Subtype.ext (List.append_inj_right hdigests hdigest)
  · exact List.singleton_inj.mp htype
  · exact toLE_uint64_inj hgpa

/-! ## The save area -/

/-- A field of a packed structure: offset, width and value. -/
structure Field where
  off : Nat
  width : Nat
  value : Nat

def Field.store (page : Bytes) (f : Field) : Bytes := overwrite page f.off (toLE f.width f.value)

def vmcbSegSelector : Nat := 0
def vmcbSegAttrib : Nat := 2
def vmcbSegLimit : Nat := 4
def vmcbSegBase : Nat := 8

/-- The assignments that do not depend on the VMM. -/
def vmcbCommonFields (eip : Nat) : List Field :=
  [ ⟨0x00 + vmcbSegAttrib, 2, 0x93⟩, ⟨0x00 + vmcbSegLimit, 4, 0xffff⟩,
    ⟨0x10 + vmcbSegSelector, 2, 0xf000⟩, ⟨0x10 + vmcbSegAttrib, 2, 0x9b⟩,
    ⟨0x10 + vmcbSegLimit, 4, 0xffff⟩, ⟨0x10 + vmcbSegBase, 8, eip &&& 0xffff0000⟩,
    ⟨0x20 + vmcbSegLimit, 4, 0xffff⟩,
    ⟨0x30 + vmcbSegAttrib, 2, 0x93⟩, ⟨0x30 + vmcbSegLimit, 4, 0xffff⟩,
    ⟨0x40 + vmcbSegAttrib, 2, 0x93⟩, ⟨0x40 + vmcbSegLimit, 4, 0xffff⟩,
    ⟨0x50 + vmcbSegAttrib, 2, 0x93⟩, ⟨0x50 + vmcbSegLimit, 4, 0xffff⟩,
    ⟨0x60 + vmcbSegLimit, 4, 0xffff⟩,
    ⟨0x70 + vmcbSegAttrib, 2, 0x82⟩, ⟨0x70 + vmcbSegLimit, 4, 0xffff⟩,
    ⟨0x80 + vmcbSegLimit, 4, 0xffff⟩,
    ⟨0x90 + vmcbSegLimit, 4, 0xffff⟩,
    -- efer, cr4, cr0, dr7, dr6, rflags, rip, g_pat, sev_features, xcr0
    ⟨0xd0, 8, 0x1000⟩, ⟨0x148, 8, 0x40⟩, ⟨0x158, 8, 0x10⟩, ⟨0x160, 8, 0x400⟩,
    ⟨0x168, 8, 0xffff0ff0⟩, ⟨0x170, 8, 0x2⟩, ⟨0x178, 8, eip &&& 0xffff⟩,
    ⟨0x268, 8, 0x7040600070406⟩, ⟨0x3b0, 8, 0x1⟩, ⟨0x3e8, 8, 0x1⟩ ]

/-- The assignments of the two branches on the VMM: ss and tr attributes, rdx, mxcsr
and x87_fcw. -/
def vmcbVmmFields (eip : Nat) : VmmType → List Field
  | .qemu =>
      [ ⟨0x20 + vmcbSegAttrib, 2, 0x93⟩, ⟨0x90 + vmcbSegAttrib, 2, 0x8b⟩,
        ⟨0x310, 8, 0x800f12⟩, ⟨0x408, 4, 0x1f80⟩, ⟨0x410, 2, 0x37f⟩ ]
  | .ec2 =>
      (if eip = 0xfffffff0 then [⟨0x10 + vmcbSegAttrib, 2, 0x9a⟩] else []) ++
      [ ⟨0x20 + vmcbSegAttrib, 2, 0x92⟩, ⟨0x90 + vmcbSegAttrib, 2, 0x83⟩,
        ⟨0x310, 8, 0x0⟩, ⟨0x408, 4, 0x0⟩, ⟨0x410, 2, 0x0⟩ ]
  | .unknown => []

def vmcbSaveAreaInit (eip : Nat) (vmmType : VmmType) : Bytes :=
  (vmcbCommonFields eip ++ vmcbVmmFields eip vmmType).foldl Field.store (zeros 4096)

/-! ## The hash table -/

def guidHeader : Bytes :=
  [0x06, 0xd6, 0x38, 0x94, 0x22, 0x4f, 0xc9, 0x4c, 0xb4, 0x79, 0xa7, 0x93, 0xd4, 0x11, 0xfd, 0x21]

def guidKernel : Bytes :=
  [0x37, 0x94, 0xe7, 0x4d, 0xd2, 0xab, 0x7f, 0x42, 0xb8, 0x35, 0xd5, 0xb1, 0x72, 0xd2, 0x04, 0x5b]

def guidInitrd : Bytes :=
  [0x31, 0xf7, 0xba, 0x44, 0x2f, 0x3a, 0xd7, 0x4b, 0x9a, 0xf1, 0x41, 0xe2, 0x91, 0x69, 0x78, 0x1d]

def guidCmdline : Bytes :=
  [0xd8, 0x2d, 0xd0, 0x97, 0x20, 0xbd, 0x94, 0x4c, 0xaa, 0x78, 0xe7, 0x71, 0x4d, 0x36, 0xab, 0x2a]

/-- `struct sev_hash_table_entry`. -/
def hashTableEntry (guid : Bytes) (hash : Digest 32) : Bytes := guid ++ toLE 2 50 ++ hash.val

/-- The page with `struct sev_hash_table` at 3072. -/
def hashTablePage (cmdlineHash initrdHash kernelHash : Digest 32) : Bytes :=
  overwrite (zeros 4096) 3072
    (guidHeader ++ toLE 2 168 ++ hashTableEntry guidCmdline cmdlineHash ++
      hashTableEntry guidInitrd initrdHash ++ hashTableEntry guidKernel kernelHash)

/-- The field a `hash_file` call fills, whose result is not looked at: a file that
does not open leaves the zeros of the `memset`. -/
def hashField (sha256 : Md 32) (f : File) : Digest 32 := (hashFile sha256 f).getD (zeroDigest 32)

def hashesInit (sha256 : Md 32) (cmdline : Bytes) (kernel : File) (initrd : Option File) : Bytes :=
  hashTablePage (hashBuf sha256 cmdline)
    (match initrd with
      | some f => hashField sha256 f
      | none => hashBuf sha256 [])
    (hashField sha256 kernel)

end MeasuredBoot.Snp
