import MeasuredBoot.Common.File
import MeasuredBoot.Lib.CText

/-! # The IMA log parser

`ima_measure.c`: reading one record after the other, checking its hash and finding
the file name in its template data. Failed reads leave their destination as it
was, as the callers that ignore the result of `buf_read` rely on.
-/

namespace MeasuredBoot.Ima

open Binary Imperative Imperative.Proc

/-- The arguments of the `printf` of one record. -/
structure ImaEntry where
  subtype : Bytes
  sha256 : Bytes
  description : Bytes
  deriving DecidableEq

/-- The part of the buffer not read yet, the fields that outlive a record, and what has
been printed. -/
structure ImaRun where
  rest : Bytes
  templateDataLen : UInt32
  fmtIsName : Bool
  printed : List ImaEntry

/-- What the process starts with: no template data yet, and the table of the source. -/
def ImaRun.start (templateDataLen : UInt32) : ImaRun := ⟨[], templateDataLen, false, []⟩

/-- `buf_read`: the bytes, or none where it returns `-1`. -/
def bufRead (size : Nat) : Proc ImaRun (Option Bytes) := fun s =>
  if size ≤ s.rest.length then
    .next (some (s.rest.take size)) { s with rest := s.rest.drop size }
  else .next none s

/-! ## Template descriptors -/

def knownTemplates : List (Bytes × Bytes) :=
  [ (ascii "ima", ascii "d|n"), (ascii "ima-ng", ascii "d-ng|n-ng"),
    (ascii "ima-sig", ascii "d-ng|n-ng|sig"),
    (ascii "ima-modsig", ascii "d-ng|n-ng|sig|d-modsig|modsig") ]

/-- The format of a template name. An unknown name makes the last descriptor point to
the name buffer for good. -/
def templateFmt (name : Bytes) : Proc ImaRun Bytes := fun s =>
  match knownTemplates.find? (fun entry => entry.1 = name) with
  | some entry =>
      if s.fmtIsName ∧ name = ascii "ima-modsig" then .next name s else .next entry.2 s
  | none => .next name { s with fmtIsName := true }

/-! ## Template data -/

/-- `int len` passed to `size_t`. -/
def intToSize (len : UInt32) : Nat :=
  if len.toNat < 2 ^ 31 then len.toNat else len.toNat + (2 ^ 64 - 2 ^ 32)

def digestLength : Nat := 20
def eventNameLenMax : Nat := 255

/-- The template data of the original `ima` template. -/
def readImaData : Proc ImaRun Bytes := do
  update fun s => { s with templateDataLen := 276 }
  let digest ← bufRead digestLength
  let data := overwrite (zeros 276) 0 (digest.getD [])
  let raw ← bufRead 4
  let fieldLen := ofLE (raw.getD [])
  let field ← bufRead fieldLen
  match field with
  | none => return data
  | some field =>
      if digestLength + field.length ≤ 276 then return overwrite data digestLength field
      else fault

def readSizedData : Proc ImaRun Bytes := do
  let raw ← bufRead 4
  update fun s => match raw with
    | some raw => { s with templateDataLen := UInt32.ofNat (ofLE raw) }
    | none => s
  let s ← getState
  let data ← bufRead (intToSize s.templateDataLen)
  return data.getD (zeros s.templateDataLen.toNat)

def readTemplateData (name : Bytes) : Proc ImaRun Bytes :=
  if name = ascii "ima" then readImaData else readSizedData

/-! ## Fields -/

/-- Reads `count` bytes at an `int` offset of the template data. -/
def readAt (data : Bytes) (offset : UInt32) (count : Nat) : Except Stop Bytes :=
  if count = 0 then .ok []
  else if offset.toNat < 2 ^ 31 then copyFrom data offset.toNat count
  else .error .fault

/-- `strlen` at an offset of the template data. -/
def strlenAt (data : Bytes) (offset : UInt32) : Except Stop UInt32 :=
  if offset.toNat < 2 ^ 31 then
    let text := cString (data.drop offset.toNat)
    if offset.toNat + text.length < data.length then .ok (UInt32.ofNat text.length)
    else .error .fault
  else .error .fault

/-- `get_module_name`, read as a string. -/
def getModuleName (data : Bytes) (offset len : UInt32) : Except Stop Bytes := do
  let raw ← readAt data offset len.toNat
  return cString raw

/-- The `digest` and `digest_len` a digest field leaves behind. -/
structure DigestField where
  offset : UInt32
  len : UInt32

def digestField (data : Bytes) (offset fieldLen : UInt32) : Except Stop DigestField := do
  let algoLen ← strlenAt data offset
  return ⟨offset + (algoLen + 1), fieldLen - (algoLen + 1)⟩

/-- What one field does: it gives the file name, or the walk goes on at an offset. -/
inductive FieldStep where
  | name (text : Bytes)
  | next (offset : UInt32) (digest : Option DigestField)

/-- `print_data_no_lf` of the digest so far. -/
def printDigest (data : Bytes) : Option DigestField → Except Stop Unit
  | none => .ok ()
  | some d => do
      let _ ← readAt data d.offset d.len.toNat
      return ()

/-- The signature field: read where it looks present, and skipped without advancing
where it does not. -/
def signatureStep (data : Bytes) (offset fieldLen : UInt32) (digest : Option DigestField) :
    Except Stop FieldStep := do
  printDigest data digest
  if data.length ≤ offset.toNat then return .next offset digest
  let kind ← readAt data offset 1
  if kind ≠ [3] then return .next offset digest
  let size := if 9 ≤ fieldLen.toNat then fieldLen.toNat - 9 else fieldLen.toNat + (2 ^ 64 - 9)
  let _ ← readAt data (offset + 9) size
  return .next (offset + fieldLen) digest

/-- The bytes `modsig_parse_new` hands to `BIO_new_mem_buf`, whose length is an `int`: a
negative one stands for the length of a C string. -/
def modsigBytes (data : Bytes) (offset fieldLen : UInt32) : Except Stop Bytes :=
  if fieldLen.toNat < 2 ^ 31 then readAt data offset fieldLen.toNat
  else do
    let len ← strlenAt data offset
    readAt data offset len.toNat

/-- The field the format names `f`, once its length is known. `modsig` is what
`modsig_parse_new` makes of a module signature. -/
def fieldStep (modsig : Bytes → Bool) (name data f : Bytes) (offset fieldLen : UInt32)
    (digest : Option DigestField) : Except Stop FieldStep :=
  let skip := FieldStep.next (offset + fieldLen) digest
  let digestStep := do
    let d ← digestField data offset fieldLen
    return .next (offset + fieldLen) (some d)
  let nameStep := do
    let text ← getModuleName data offset fieldLen
    return .name text
  if startsWith name (ascii "ima-sig") then
    if startsWith f (ascii "d-ng") then digestStep
    else if startsWith f (ascii "sig") then signatureStep data offset fieldLen digest
    else if startsWith f (ascii "n-ng") then nameStep
    else .ok skip
  else if startsWith name (ascii "ima-modsig") then
    if startsWith f (ascii "d-ng") then .ok skip
    else if startsWith f (ascii "d-modsig") then digestStep
    else if f = ascii "modsig" then do
      let raw ← modsigBytes data offset fieldLen
      return if modsig raw then skip else .next offset digest
    else if startsWith f (ascii "n-ng") then nameStep
    else .ok skip
  else if startsWith name (ascii "ima-ng") then
    if startsWith f (ascii "d-ng") then digestStep
    else if startsWith f (ascii "n-ng") then nameStep
    else .ok skip
  else .ok skip

/-- The length in front of a field, and where the field starts. -/
def fieldLength (name data f : Bytes) (offset : UInt32) : Except Stop (UInt32 × UInt32) :=
  if name = ascii "ima" ∧ f = ascii "d" then .ok (20, offset)
  else if name = ascii "ima" ∧ f = ascii "n" then do
    let len ← strlenAt data offset
    return (len, offset)
  else do
    let raw ← readAt data offset 4
    return (UInt32.ofNat (ofLE raw), offset + 4)

/-- The loop over the fields of the format: the file name, or none at its end. -/
def fieldLoop (modsig : Bytes → Bool) (name data : Bytes) :
    List Bytes → UInt32 → Option DigestField → Except Stop (Option Bytes)
  | [], _, _ => .ok none
  | f :: fs, offset, digest => do
      let (fieldLen, offset) ← fieldLength name data f offset
      match ← fieldStep modsig name data f offset fieldLen digest with
      | .name text => return some text
      | .next offset digest => fieldLoop modsig name data fs offset digest

def getTemplateData (modsig : Bytes → Bool) (name data : Bytes) : Proc ImaRun (Option Bytes) := do
  let fmt ← templateFmt name
  lift (fieldLoop modsig name data (strsepAll 124 fmt) 0 none)

/-! ## Records -/

/-- The hash functions and the module-signature parser. -/
structure ImaLibs where
  sha1 : Md 20
  sha256 : Md 32
  modsig : Bytes → Bool

def printEntry (libs : ImaLibs) (moduleName data : Bytes) (s : ImaRun) : ImaRun :=
  { s with printed := s.printed ++
      [⟨basename moduleName, hexText (hashBuf libs.sha256 data).val, moduleName⟩] }

/-- From the template data on: the hash check, the name and the output. -/
def finishRecord (libs : ImaLibs) (header name data : Bytes) : Proc ImaRun Unit := do
  exitIf ((hashBuf libs.sha1 data).val ≠ slice header 4 20) (-1)
  let moduleName ← getTemplateData libs.modsig name data
  match moduleName with
  | none => exit (-1)
  | some moduleName => update (printEntry libs moduleName data)

/-- One round of the loop. An oversized name frees template data that is not allocated,
or not any more. -/
def parseRecord (libs : ImaLibs) (header : Bytes) : Proc ImaRun Unit := do
  let nameLen := ofLE (slice header 24 4)
  when (eventNameLenMax < nameLen) fault
  let nameBuf ← bufRead nameLen
  let name := cString (nameBuf.getD [])
  let data ← readTemplateData name
  finishRecord libs header name data

/-- `while (!buf_read(&template.header, ...))`. -/
def parseLoop (libs : ImaLibs) : Nat → Proc ImaRun Int
  | 0 => lift (.error .diverge)
  | fuel + 1 => do
      match ← bufRead 28 with
      | none => return 0
      | some header => do
          parseRecord libs header
          parseLoop libs fuel

/-- Every round but the last reads a header, so this many rounds always suffice. -/
def imaParseBinaryRuntimeMeasurements (libs : ImaLibs) (buf : Bytes) : Proc ImaRun Int := do
  update fun s => { s with rest := buf }
  parseLoop libs (buf.length + 1)

/-! ## The rounds are enough -/

/-- A statement never puts back what was read. -/
def Consumes {α : Type} (m : Proc ImaRun α) : Prop :=
  ∀ s, wlp m (fun _ s' => s'.rest.length ≤ s.rest.length) (fun _ _ => True) s

theorem Consumes.bind {α β : Type} {m : Proc ImaRun α} {f : α → Proc ImaRun β}
    (hm : Consumes m) (hf : ∀ a, Consumes (f a)) : Consumes (m >>= f) := by
  intro s
  apply wlp_bind
  apply wlp_mono (hm s)
  · intro a t ht
    apply wlp_mono (hf a t)
    · intro b u hu
      exact Nat.le_trans hu ht
    · intro _ _ _
      trivial
  · intro _ _ _
    trivial

theorem consumes_pure {α : Type} (a : α) : Consumes (pure a : Proc ImaRun α) := by
  intro s
  exact Nat.le_refl _

theorem consumes_update {f : ImaRun → ImaRun} (h : ∀ s, (f s).rest = s.rest) :
    Consumes (update f) := by
  intro s
  show (f s).rest.length ≤ s.rest.length
  rw [h s]

theorem consumes_bufRead (size : Nat) : Consumes (bufRead size) := by
  intro s
  unfold bufRead wlp
  by_cases h : size ≤ s.rest.length
  · simp [h]
  · simp [h]

theorem consumes_fault {α : Type} : Consumes (fault : Proc ImaRun α) := by
  intro s
  trivial

theorem consumes_exit {α : Type} (r : Int) : Consumes (exit r : Proc ImaRun α) := by
  intro s
  trivial

theorem consumes_lift {α : Type} (x : Except Stop α) : Consumes (lift x) := by
  intro s
  cases x with
  | ok a => exact Nat.le_refl _
  | error w => trivial

theorem consumes_readImaData : Consumes readImaData := by
  apply Consumes.bind
  · apply consumes_update
    intro s
    rfl
  intro _
  apply Consumes.bind (consumes_bufRead _)
  intro digest
  apply Consumes.bind (consumes_bufRead _)
  intro raw
  apply Consumes.bind (consumes_bufRead _)
  intro field
  cases field with
  | none => exact consumes_pure _
  | some field =>
      show Consumes (if _ then _ else _)
      split
      · exact consumes_pure _
      · exact consumes_fault

theorem consumes_readSizedData : Consumes readSizedData := by
  apply Consumes.bind (consumes_bufRead _)
  intro raw
  apply Consumes.bind
  · apply consumes_update
    intro s
    cases raw <;> rfl
  intro _
  apply Consumes.bind
  · intro s
    exact Nat.le_refl _
  intro s
  apply Consumes.bind (consumes_bufRead _)
  intro data
  exact consumes_pure _

theorem consumes_getTemplateData (modsig : Bytes → Bool) (name data : Bytes) :
    Consumes (getTemplateData modsig name data) := by
  apply Consumes.bind
  · intro s
    unfold templateFmt wlp
    cases knownTemplates.find? (fun entry => entry.1 = name) with
    | none => exact Nat.le_refl _
    | some entry =>
        by_cases h : s.fmtIsName ∧ name = ascii "ima-modsig"
        · simp [h]
        · simp [h]
  intro fmt
  exact consumes_lift _

theorem consumes_parseRecord (libs : ImaLibs) (header : Bytes) :
    Consumes (parseRecord libs header) := by
  apply Consumes.bind
  · intro s
    apply wlp_when
    · intro _
      trivial
    · intro _
      exact Nat.le_refl _
  intro _
  apply Consumes.bind (consumes_bufRead _)
  intro nameBuf
  apply Consumes.bind
  · show Consumes (if _ then _ else _)
    split
    · exact consumes_readImaData
    · exact consumes_readSizedData
  intro data
  apply Consumes.bind
  · intro s
    apply wlp_exitIf
    · intro _
      trivial
    · intro _
      exact Nat.le_refl _
  intro _
  apply Consumes.bind (consumes_getTemplateData _ _ _)
  intro moduleName
  cases moduleName with
  | none => exact consumes_exit _
  | some moduleName =>
      apply consumes_update
      intro s
      rfl

end MeasuredBoot.Ima
