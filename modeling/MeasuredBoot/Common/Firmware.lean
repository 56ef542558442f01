import MeasuredBoot.Common.EventLog
import MeasuredBoot.Common.File
import MeasuredBoot.Common.Guid
import MeasuredBoot.Lib.CText

/-! # What the firmware measures

`common/acpi.c`, `common/secureboot.c` and `common/efi_boot.c`, shared by the
calculators of both tools and therefore over any digest and register index.
-/

namespace MeasuredBoot

open Binary Imperative Imperative.Proc

variable {n : Nat}

/-- The UTF-16 code units of an ASCII text. -/
def utf16 (text : String) : List UInt16 := text.toList.map fun c => UInt16.ofNat c.toNat

/-- `CHAR16` units in memory. -/
def char16Bytes (units : List UInt16) : Bytes := units.flatMap fun u => toLE 2 u.toNat

@[simp] theorem char16Bytes_length (units : List UInt16) :
    (char16Bytes units).length = 2 * units.length := by
  induction units with
  | nil => rfl
  | cons u units ih =>
      simp only [char16Bytes, List.flatMap_cons, List.length_append, toLE_length,
        List.length_cons] at *
      omega

/-! ## ACPI tables -/

/-- `acpi_files_t`; a missing table is `NULL`. -/
structure AcpiFiles where
  acpiTables : Option Bytes
  acpiRsdp : Option Bytes
  tableLoader : Option Bytes
  tpmLog : Option Bytes

/-- `if (table && size > 0)` with the measurement of the table. -/
def measureAcpiTable (md : Md n) (mrIndex : Nat) (name : Bytes) (table : Option Bytes) :
    Proc (Measurement n) Unit :=
  let data := table.getD []
  when (data ≠ []) do
    evlogAdd mrIndex (ascii "EV_PLATFORM_CONFIG_FLAGS") (hashBuf md data) name
    extendMr md (hashBuf md data)

def calculateAcpiTables (md : Md n) (mrIndex : Nat) (cfg : AcpiFiles) :
    Proc (Measurement n) Int := do
  measureAcpiTable md mrIndex (ascii "etc/table-loader") cfg.tableLoader
  measureAcpiTable md mrIndex (ascii "etc/acpi/rsdp") cfg.acpiRsdp
  measureAcpiTable md mrIndex (ascii "etc/tpm/log") cfg.tpmLog
  measureAcpiTable md mrIndex (ascii "etc/acpi/tables") cfg.acpiTables
  return 0

/-! ## UEFI variables -/

/-- `variable_type_t`, and whether the UEFI variable can be allocated. -/
structure VariableType where
  eventType : Bytes
  variableName : List UInt16
  vendorGuid : EfiGuid
  path : Option File
  data : Option Bytes
  allocates : Bool

/-- The variable data and its size: the file from offset 4 on, the given data, or
none. -/
def variableData (var : VariableType) : Option (Except Stop Bytes) :=
  match var.path with
  | some file =>
      match readFile file with
      | none => none
      | some tmpbuf => some (copyFrom tmpbuf.bytes 4 (tmpbuf.size - 4).toNat)
  | none => some (.ok (var.data.getD []))

/-- `UEFI_VARIABLE_DATA` in memory. -/
def uefiVariableData (var : VariableType) (varData : Bytes) : Bytes :=
  var.vendorGuid.bytes ++ toLE 8 var.variableName.length ++ toLE 8 varData.length
    ++ char16Bytes var.variableName ++ varData

/-- The variable, or none where the function returns `NULL`. -/
def createUefiVariable (var : VariableType) : Except Stop (Option Bytes) :=
  match variableData var with
  | none => .ok none
  | some varData =>
      if !var.allocates then .ok none
      else varData.map fun data => some (uefiVariableData var data)

/-- The name with the low byte of each character. -/
def nameNarrow (name : List UInt16) : Bytes := name.map fun u => u.toUInt8

def measureVariable (md : Md n) (mrIndex : Nat) (varType : VariableType) :
    Proc (Measurement n) Int := do
  match ← lift (createUefiVariable varType) with
  | none => exit (-1)
  | some data =>
      evlogAdd mrIndex varType.eventType (hashBuf md data) (nameNarrow varType.variableName)
      extendMr md (hashBuf md data)
      return 0

def efiGlobalVariable : EfiGuid where
  data1 := 0x8be4df61
  data2 := 0x93ca
  data3 := 0x11d2
  data4 := [0xaa, 0x0d, 0x00, 0xe0, 0x98, 0x03, 0x2b, 0x8c]

def efiImageSecurityDatabaseGuid : EfiGuid where
  data1 := 0xd719b2cb
  data2 := 0x3d3a
  data3 := 0x4596
  data4 := [0xa3, 0xbc, 0xda, 0xd0, 0x0e, 0x67, 0x65, 0x6f]

/-- The file given for a variable, if any, and whether the variable can be allocated. -/
structure VariableArg where
  path : Option File
  allocates : Bool

/-- The secure boot variables as `measure_secure_boot_variables` is given them. -/
structure SecureBootArgs where
  secureBoot : VariableArg
  pk : VariableArg
  kek : VariableArg
  db : VariableArg
  dbx : VariableArg

/-- An element of the array `vars`. -/
def driverConfigVariable (name : String) (guid : EfiGuid) (arg : VariableArg) : VariableType where
  eventType := ascii "EV_EFI_VARIABLE_DRIVER_CONFIG"
  variableName := utf16 name
  vendorGuid := guid
  path := arg.path
  data := none
  allocates := arg.allocates

def secureBootVariables (args : SecureBootArgs) : List VariableType :=
  [driverConfigVariable "SecureBoot" efiGlobalVariable args.secureBoot,
   driverConfigVariable "PK" efiGlobalVariable args.pk,
   driverConfigVariable "KEK" efiGlobalVariable args.kek,
   driverConfigVariable "db" efiImageSecurityDatabaseGuid args.db,
   driverConfigVariable "dbx" efiImageSecurityDatabaseGuid args.dbx]

def measureSecureBootVariables (md : Md n) (mrIndex : Nat) (args : SecureBootArgs) :
    Proc (Measurement n) Int := do
  forEach (fun var => do
    let ret ← call (measureVariable md mrIndex var)
    exitIf (ret ≠ 0) (-1)) (secureBootVariables args)
  return 0

/-! ## Boot variables -/

def fvNameGuid : EfiGuid where
  data1 := 0x7cb8bdc9
  data2 := 0xf8eb
  data3 := 0x4f34
  data4 := [0xaa, 0xea, 0x3e, 0xe4, 0xaf, 0x65, 0x16, 0xa1]

def fileGuid : EfiGuid where
  data1 := 0x462caa21
  data2 := 0x7614
  data3 := 0x4503
  data4 := [0x83, 0x6e, 0x8a, 0xb6, 0xf4, 0x66, 0x23, 0x31]

/-- `create_node` into a zeroed buffer of `destlen` bytes. -/
def createNode (destlen : Nat) (type subtype : UInt8) (data : Bytes) : Option Bytes :=
  let len := (data.length + 4) % 2 ^ 16
  if destlen < len then none
  else some (overwrite (zeros destlen) 0 ([type, subtype] ++ toLE 2 len ++ data))

def createFilePathList (destlen : Nat) : Option Bytes := do
  if destlen < 44 then none
  let piwgFv ← createNode 20 4 7 fvNameGuid.bytes
  let piwgFwFile ← createNode 20 4 6 fileGuid.bytes
  let endOfPath ← createNode 4 0x7f 0xff []
  return piwgFv ++ piwgFwFile ++ endOfPath

/-- `LOAD_OPTION_ACTIVE | LOAD_OPTION_HIDDEN | LOAD_OPTION_CATEGORY_APP`. -/
def loadOptionAttributes : Nat := 1 ||| 8 ||| 256

/-- The default load option, or none where the function returns `NULL`. -/
def calculateEfiLoadOption (allocates : Bool) : Option Bytes := do
  let filePathList ← createFilePathList 44
  if !allocates then none
  return toLE 4 loadOptionAttributes ++ toLE 2 44 ++ char16Bytes (utf16 "UiApp" ++ [0])
    ++ filePathList

/-- The boot variables as `calculate_efi_boot_vars` is given them; `bootxxxx` is
`NULL` if no file is named. -/
structure BootVarArgs where
  bootOrder : List UInt16
  bootxxxx : Option (List File)
  loadOptionAllocates : Bool

def bootVariableName (name : String) : Bytes :=
  ascii ("VariableName - " ++ name ++ ", VendorGuid - 8BE4DF61-93CA-11D2-AA0D-00E098032B8C")

/-- One round of the loop over the `Boot####` files. -/
def measureBootxxxx (md : Md n) (mrIndex : Nat) (file : File) : Proc (Measurement n) Unit :=
  match readFile file with
  | none => exit (-1)
  | some fileBuf => do
      let data ← lift (copyFrom fileBuf.bytes 4 (fileBuf.size - 4).toNat)
      evlogAdd mrIndex (ascii "EV_EFI_VARIABLE_BOOT") (hashBuf md data)
        (bootVariableName "Boot####")
      extendMr md (hashBuf md data)

/-- `Boot0000`, where no files are given. -/
def measureBoot0000 (md : Md n) (mrIndex : Nat) (allocates : Bool) : Proc (Measurement n) Unit :=
  match calculateEfiLoadOption allocates with
  | none => exit (-1)
  | some data => do
      evlogAdd mrIndex (ascii "EV_EFI_VARIABLE_BOOT") (hashBuf md data)
        (bootVariableName "Boot0000")
      extendMr md (hashBuf md data)

def calculateEfiBootVars (md : Md n) (mrIndex : Nat) (args : BootVarArgs) :
    Proc (Measurement n) Int := do
  let order := hashBuf md (char16Bytes args.bootOrder)
  evlogAdd mrIndex (ascii "EV_EFI_VARIABLE_BOOT") order (bootVariableName "BootOrder")
  extendMr md order
  match args.bootxxxx with
  | none => measureBoot0000 md mrIndex args.loadOptionAllocates
  | some files => forEach (measureBootxxxx md mrIndex) files
  return 0

/-! ## Register and log -/

section InStep

variable {md : Md n} {mrIndex : Nat} {before : List (LogEntry n)}

theorem measureAcpiTable_inStep (name : Bytes) (table : Option Bytes) :
    Preserves (InStep md mrIndex before) (measureAcpiTable md mrIndex name table) :=
  .when fun _ => InStep.record _ _ _

theorem calculateAcpiTables_inStep (cfg : AcpiFiles) :
    Preserves (InStep md mrIndex before) (calculateAcpiTables md mrIndex cfg) := by
  refine .bind (measureAcpiTable_inStep _ _) fun _ => ?_
  refine .bind (measureAcpiTable_inStep _ _) fun _ => ?_
  refine .bind (measureAcpiTable_inStep _ _) fun _ => ?_
  exact .bind (measureAcpiTable_inStep _ _) fun _ => .pure 0

theorem measureVariable_inStep (varType : VariableType) :
    Preserves (InStep md mrIndex before) (measureVariable md mrIndex varType) := by
  refine .bind (.lift _) fun created => ?_
  cases created with
  | none => exact .exit (-1)
  | some data => exact InStep.logged (.pure 0)

theorem measureSecureBootVariables_inStep (args : SecureBootArgs) :
    Preserves (InStep md mrIndex before) (measureSecureBootVariables md mrIndex args) := by
  refine .bind (.forEach _ fun var _ => ?_) fun _ => .pure 0
  exact .bind (.call (measureVariable_inStep var)) fun _ => .exitIf _ _

theorem measureBootxxxx_inStep (file : File) :
    Preserves (InStep md mrIndex before) (measureBootxxxx md mrIndex file) := by
  unfold measureBootxxxx
  cases readFile file with
  | none => exact .exit (-1)
  | some fileBuf => exact .bind (.lift _) fun _ => InStep.record _ _ _

theorem measureBoot0000_inStep (allocates : Bool) :
    Preserves (InStep md mrIndex before) (measureBoot0000 md mrIndex allocates) := by
  unfold measureBoot0000
  cases calculateEfiLoadOption allocates with
  | none => exact .exit (-1)
  | some data => exact InStep.record _ _ _

theorem calculateEfiBootVars_inStep (args : BootVarArgs) :
    Preserves (InStep md mrIndex before) (calculateEfiBootVars md mrIndex args) := by
  unfold calculateEfiBootVars
  refine InStep.logged ?_
  cases args.bootxxxx with
  | none => exact .bind (measureBoot0000_inStep _) fun _ => .pure 0
  | some files =>
      exact .bind (.forEach _ fun file _ => measureBootxxxx_inStep file) fun _ => .pure 0

end InStep

/-! ## When a variable can be measured -/

/-- The data file, if one is given, is read and longer than its attributes, and the
variable can be allocated. -/
structure VariableType.Passes (var : VariableType) : Prop where
  file : ∀ f, var.path = some f → f.Readable ∧ 4 ≤ f.content.length
  allocates : var.allocates = true

/-- The read of the data file or the allocation fails. -/
inductive VariableType.Fails (var : VariableType) : Prop where
  | file (f : File) (h : var.path = some f) (hread : ¬f.Readable)
  | allocation (h : var.allocates = false)

/-- The data of a variable whose file is read. -/
def VariableType.content (var : VariableType) : Bytes :=
  match var.path with
  | some f => f.content.drop 4
  | none => var.data.getD []

/-- What follows the four attribute bytes; a shorter file is read past its end. -/
theorem copyFrom_attributes (buf : Buffer) :
    copyFrom buf.bytes 4 (buf.size - 4).toNat =
      if 4 ≤ buf.bytes.length then .ok (buf.bytes.drop 4) else .error .fault := by
  have hsize := buf.size_lt
  have hlen := buf.size_toNat
  have hcount : (buf.size - 4).toNat = (2 ^ 64 - 4 + buf.bytes.length) % 2 ^ 64 := by
    rw [UInt64.toNat_sub, hlen]
    rfl
  split
  · rw [copyFrom_ok (by omega), slice, List.take_of_length_le]
    rw [List.length_drop]
    omega
  · rw [copyFrom_fault (by omega)]

theorem File.copyFrom_attributes (f : File) :
    copyFrom f.content 4 ((Buffer.mk f.content f.size_lt).size - 4).toNat =
      if 4 ≤ f.content.length then .ok (f.content.drop 4) else .error .fault :=
  MeasuredBoot.copyFrom_attributes ⟨f.content, f.size_lt⟩

theorem createUefiVariable_of_passes {var : VariableType} (h : var.Passes) :
    createUefiVariable var = .ok (some (uefiVariableData var var.content)) := by
  have hdata : variableData var = some (.ok var.content) := by
    unfold variableData VariableType.content
    cases hpath : var.path with
    | none => rfl
    | some f =>
        obtain ⟨hread, hlen⟩ := h.file f hpath
        simp only [readFile_of_readable hread, f.copyFrom_attributes, if_pos hlen]
  simp only [createUefiVariable, hdata, h.allocates]
  rfl

theorem createUefiVariable_of_fails {var : VariableType} (h : var.Fails) :
    createUefiVariable var = .ok none := by
  cases h with
  | file f hpath hread =>
      simp only [createUefiVariable, variableData, hpath, readFile_eq_none.mpr hread]
  | allocation h =>
      unfold createUefiVariable
      cases variableData var with
      | none => rfl
      | some data => simp [h]

/-- Otherwise the data is read past the end of its file. -/
theorem createUefiVariable_ok {var : VariableType} {created : Option Bytes}
    (h : createUefiVariable var = .ok created) :
    created = none ∧ var.Fails ∨ created.isSome ∧ var.Passes := by
  by_cases halloc : var.allocates = false
  · have hnone := createUefiVariable_of_fails (.allocation halloc)
    rw [hnone] at h
    cases h
    exact Or.inl ⟨rfl, .allocation halloc⟩
  · have halloc' : var.allocates = true := by simpa using halloc
    cases hpath : var.path with
    | none =>
        have hpass : var.Passes := ⟨by simp [hpath], halloc'⟩
        rw [createUefiVariable_of_passes hpass] at h
        cases h
        exact Or.inr ⟨rfl, hpass⟩
    | some f =>
        by_cases hread : f.Readable
        · by_cases hlen : 4 ≤ f.content.length
          · have hpass : var.Passes := by
              refine ⟨fun f' hf' => ?_, halloc'⟩
              rw [hpath] at hf'
              cases hf'
              exact ⟨hread, hlen⟩
            rw [createUefiVariable_of_passes hpass] at h
            cases h
            exact Or.inr ⟨rfl, hpass⟩
          · simp [createUefiVariable, variableData, hpath, readFile_of_readable hread,
              f.copyFrom_attributes, hlen, halloc', Except.map] at h
        · have hfail := VariableType.Fails.file f hpath hread
          rw [createUefiVariable_of_fails hfail] at h
          cases h
          exact Or.inl ⟨rfl, hfail⟩

section Status

variable {md : Md n} {mrIndex : Nat} {E : Int → Prop}

theorem measureAcpiTable_extends (name : Bytes) (table : Option Bytes) :
    Extends md (measureAcpiTable md mrIndex name table) ()
      (if table.getD [] ≠ [] then [md (table.getD [])] else []) :=
  .when fun _ => (Extends.evlogAdd _ _ _ _).bind (Extends.extendMr _)

/-- The digests of the tables that are there, in the order of the firmware. -/
def acpiDigests (md : Md n) (cfg : AcpiFiles) : List (Digest n) :=
  [cfg.tableLoader, cfg.acpiRsdp, cfg.tpmLog, cfg.acpiTables].flatMap fun table =>
    if table.getD [] ≠ [] then [md (table.getD [])] else []

theorem calculateAcpiTables_extends (cfg : AcpiFiles) :
    Extends md (calculateAcpiTables md mrIndex cfg) 0 (acpiDigests md cfg) :=
  (measureAcpiTable_extends _ _).bind <| (measureAcpiTable_extends _ _).bind <|
    (measureAcpiTable_extends _ _).bind <| (measureAcpiTable_extends _ _).bind (.skip 0)

/-- The digest of a variable whose data can be had. -/
def variableDigest (md : Md n) (var : VariableType) : Digest n :=
  md (uefiVariableData var var.content)

theorem measureVariable_extends {var : VariableType} (h : var.Passes) :
    Extends md (measureVariable md mrIndex var) 0 [variableDigest md var] := by
  unfold measureVariable
  rw [createUefiVariable_of_passes h]
  exact Extends.logged (.skip 0)

theorem measureVariable_aborts {var : VariableType} (h : var.Fails) :
    Aborts (measureVariable md mrIndex var) (-1) := by
  unfold measureVariable
  rw [createUefiVariable_of_fails h]
  exact .exit (-1)

theorem measureVariable_yields (var : VariableType) :
    Yields (fun r => r = 0 ∧ var.Passes ∨ r ≠ 0 ∧ var.Fails)
      (fun r => r = 0 ∧ var.Passes ∨ r ≠ 0 ∧ var.Fails) (measureVariable md mrIndex var) := by
  refine .bind (.lift fun created h => createUefiVariable_ok h) fun created h => ?_
  cases created with
  | none => exact .exit (Or.inr ⟨by decide, (h.resolve_right (by simp)).2⟩)
  | some data =>
      have hpass := (h.resolve_left (by simp)).2
      exact .bind (.update _) fun _ _ => .bind (.update _) fun _ _ => .pure (Or.inl ⟨rfl, hpass⟩)

theorem measureSecureBootVariables_extends {args : SecureBootArgs}
    (h : ∀ var ∈ secureBootVariables args, var.Passes) :
    Extends md (measureSecureBootVariables md mrIndex args) 0
      ((secureBootVariables args).map (variableDigest md)) := by
  have hround : ∀ var ∈ secureBootVariables args, Extends md (do
      let ret ← call (measureVariable md mrIndex var)
      exitIf (ret ≠ 0) (-1)) () [variableDigest md var] := fun var hvar =>
    (measureVariable_extends (h var hvar)).call.bind (.skip ())
  have hloop := Extends.forEach _ hround
  have hall := hloop.bind (f := fun _ => (pure 0 : Proc (Measurement n) Int)) (.skip 0)
  rwa [List.append_nil] at hall

theorem measureSecureBootVariables_aborts {args : SecureBootArgs}
    (h : FirstFails VariableType.Passes VariableType.Fails (secureBootVariables args)) :
    Aborts (measureSecureBootVariables md mrIndex args) (-1) := by
  obtain ⟨pre, var, post, hvars, hpre, hfail⟩ := h
  unfold measureSecureBootVariables
  rw [hvars]
  refine (Aborts.forEach (fun y hy => ?_) ?_).bind
  · have hround : Extends md (measureVariable md mrIndex y) 0 _ :=
      measureVariable_extends (hpre y hy)
    exact (hround.call.bind (f := fun ret => exitIf (ret ≠ 0) (-1)) (.skip ())).completes
  · have hcall : Aborts (measureVariable md mrIndex var) (-1) := measureVariable_aborts hfail
    exact hcall.call.aborts_bind (.exit (-1))

theorem measureSecureBootVariables_yields (args : SecureBootArgs) :
    Yields
      (fun r => r = 0 ∧ (∀ var ∈ secureBootVariables args, var.Passes) ∨
        r ≠ 0 ∧ FirstFails VariableType.Passes VariableType.Fails (secureBootVariables args))
      (fun r => r = 0 ∧ (∀ var ∈ secureBootVariables args, var.Passes) ∨
        r ≠ 0 ∧ FirstFails VariableType.Passes VariableType.Fails (secureBootVariables args))
      (measureSecureBootVariables md mrIndex args) := by
  refine .bind (.forEach _ fun pre var post hvars hpre => ?_)
    fun _ hall => .pure (Or.inl ⟨rfl, hall⟩)
  refine .bind (.call (measureVariable_yields var))
    fun r hr => .exitIf (fun hne => ?_) fun heq => ?_
  · rcases hr with ⟨hzero, -⟩ | ⟨-, hfail⟩
    · exact absurd hzero hne
    · exact Or.inr ⟨by decide, pre, var, post, hvars, hpre, hfail⟩
  · rcases hr with ⟨-, hpass⟩ | ⟨hne, -⟩
    · exact hpass
    · exact absurd hne heq

end Status

/-! ## When the boot variables can be measured -/

/-- The file is read and longer than its attributes. -/
def File.HoldsVariable (f : File) : Prop := f.Readable ∧ 4 ≤ f.content.length

/-- Every `Boot####` file is read, or the default load option can be allocated. -/
def BootVarArgs.Pass (args : BootVarArgs) : Prop :=
  match args.bootxxxx with
  | none => args.loadOptionAllocates = true
  | some files => ∀ f ∈ files, f.HoldsVariable

/-- A file cannot be read, behind files that are, or the default load option cannot be
allocated. -/
def BootVarArgs.Fail (args : BootVarArgs) : Prop :=
  match args.bootxxxx with
  | none => args.loadOptionAllocates = false
  | some files => FirstFails File.HoldsVariable (¬·.Readable) files

/-- The default load option in memory. -/
def efiLoadOption : Bytes := (calculateEfiLoadOption true).getD []

theorem calculateEfiLoadOption_eq (allocates : Bool) :
    calculateEfiLoadOption allocates = if allocates then some efiLoadOption else none := by
  cases allocates <;> rfl

def bootDigests (md : Md n) (args : BootVarArgs) : List (Digest n) :=
  md (char16Bytes args.bootOrder) ::
    match args.bootxxxx with
    | none => [md efiLoadOption]
    | some files => files.map fun f => md (f.content.drop 4)

section Status

variable {md : Md n} {mrIndex : Nat} {E : Int → Prop}

theorem measureBootxxxx_extends {f : File} (h : f.HoldsVariable) :
    Extends md (measureBootxxxx md mrIndex f) () [md (f.content.drop 4)] := by
  unfold measureBootxxxx
  rw [readFile_of_readable h.1]
  simp only [f.copyFrom_attributes, if_pos h.2]
  change Extends md (do
    evlogAdd mrIndex (ascii "EV_EFI_VARIABLE_BOOT") (hashBuf md (f.content.drop 4))
      (bootVariableName "Boot####")
    extendMr md (hashBuf md (f.content.drop 4))) () [md (f.content.drop 4)]
  exact (Extends.evlogAdd _ _ _ _).bind (Extends.extendMr _)

theorem measureBootxxxx_aborts {f : File} (h : ¬f.Readable) :
    Aborts (measureBootxxxx md mrIndex f) (-1) := by
  unfold measureBootxxxx
  rw [readFile_eq_none.mpr h]
  exact .exit (-1)

theorem measureBootxxxx_yields (f : File) (hE : ¬f.Readable → E (-1)) :
    Yields (fun _ => f.HoldsVariable) E (measureBootxxxx md mrIndex f) := by
  unfold measureBootxxxx
  by_cases hread : f.Readable
  · rw [readFile_of_readable hread]
    refine .bind (.lift (Q := fun _ => f.HoldsVariable) fun data h => ?_) fun data hdata => ?_
    · rw [f.copyFrom_attributes] at h
      split at h
      · exact ⟨hread, ‹_›⟩
      · cases h
    · refine .bind (.update _) fun _ _ => ?_
      exact fun _ => hdata
  · rw [readFile_eq_none.mpr hread]
    exact .exit (hE hread)

theorem measureBoot0000_extends {args : BootVarArgs} (h : args.loadOptionAllocates = true) :
    Extends md (measureBoot0000 md mrIndex args.loadOptionAllocates) () [md efiLoadOption] := by
  unfold measureBoot0000
  rw [calculateEfiLoadOption_eq, h]
  exact (Extends.evlogAdd _ _ _ _).bind (Extends.extendMr _)

theorem calculateEfiBootVars_extends {args : BootVarArgs} (h : args.Pass) :
    Extends md (calculateEfiBootVars md mrIndex args) 0 (bootDigests md args) := by
  unfold calculateEfiBootVars bootDigests
  unfold BootVarArgs.Pass at h
  refine Extends.logged ?_
  cases hfiles : args.bootxxxx with
  | none =>
      rw [hfiles] at h
      exact (measureBoot0000_extends h).bind (.skip 0)
  | some files =>
      rw [hfiles] at h
      have hround : ∀ f ∈ files, Extends md (measureBootxxxx md mrIndex f) () _ :=
        fun f hf => measureBootxxxx_extends (h f hf)
      have hloop := Extends.forEach files hround
      have hall := hloop.bind (f := fun _ => (pure 0 : Proc (Measurement n) Int)) (.skip 0)
      rwa [List.append_nil] at hall

theorem calculateEfiBootVars_aborts {args : BootVarArgs} (h : args.Fail) :
    Aborts (calculateEfiBootVars md mrIndex args) (-1) := by
  unfold calculateEfiBootVars
  unfold BootVarArgs.Fail at h
  refine (Completes.update _).aborts_bind ?_
  refine (Completes.update _).aborts_bind ?_
  cases hfiles : args.bootxxxx with
  | none =>
      rw [hfiles] at h
      refine Aborts.bind ?_
      unfold measureBoot0000
      rw [calculateEfiLoadOption_eq, h]
      exact .exit (-1)
  | some files =>
      rw [hfiles] at h
      obtain ⟨pre, f, post, rfl, hpre, hf⟩ := h
      refine (Aborts.forEach (fun y hy => ?_) (measureBootxxxx_aborts hf)).bind
      exact (measureBootxxxx_extends (hpre y hy)).completes

theorem calculateEfiBootVars_yields (args : BootVarArgs) :
    Yields (fun r => r = 0 ∧ args.Pass ∨ r ≠ 0 ∧ args.Fail)
      (fun r => r = 0 ∧ args.Pass ∨ r ≠ 0 ∧ args.Fail)
      (calculateEfiBootVars md mrIndex args) := by
  unfold calculateEfiBootVars BootVarArgs.Pass BootVarArgs.Fail
  refine .bind (.update _) fun _ _ => .bind (.update _) fun _ _ => ?_
  cases args.bootxxxx with
  | none =>
      refine .bind (P := fun _ => args.loadOptionAllocates = true) ?_
        fun _ h => .pure (Or.inl ⟨rfl, h⟩)
      unfold measureBoot0000
      rw [calculateEfiLoadOption_eq]
      cases halloc : args.loadOptionAllocates with
      | false => exact .exit (Or.inr ⟨by decide, rfl⟩)
      | true => exact .bind (.update _) fun _ _ => fun _ => rfl
  | some files =>
      refine .bind (.forEach files fun pre f post hfiles hpre => ?_)
        fun _ hall => .pure (Or.inl ⟨rfl, hall⟩)
      exact measureBootxxxx_yields f fun hread =>
        Or.inr ⟨by decide, pre, f, post, hfiles, hpre, hread⟩

end Status

end MeasuredBoot
