import MeasuredBoot.Common.EvlogAdd
import MeasuredBoot.Common.File
import MeasuredBoot.Lib.JsonScalars

/-! # IMA template entries

`calculate_ima_entry` of `calculate-ima-pcr`: the template bytes of a file, the entry
passed to `evlog_add` for it, and what that leaves of the log.
-/

namespace MeasuredBoot.Ima

open Binary Imperative Imperative.Proc

def sizeofU32 : UInt32 := 4
def imaDigestLen : UInt32 := 7 + 1 + 32

/-- `evlog->template` and the arguments of `evlog_add`, in order. -/
structure EventLog where
  template : Bytes
  entries : List (Bytes × Digest 32 × Bool)

/-- The length of the template array; none for a template that is not supported. -/
def templateLen (template : Bytes) (pathLen : UInt32) : Option UInt32 :=
  if template = ascii "ima-sig" then
    some (sizeofU32 + imaDigestLen + sizeofU32 + pathLen + sizeofU32)
  else if template = ascii "ima-ng" then
    some (sizeofU32 + imaDigestLen + sizeofU32 + pathLen)
  else none

/-- What is copied into the template array, in order. -/
def templatePieces (template : Bytes) (hash : Digest 32) (path : Bytes) (pathLen : UInt32) :
    List Bytes :=
  [toLE 4 imaDigestLen.toNat, ascii "sha256:" ++ [0], hash.val, toLE 4 pathLen.toNat,
    path ++ [0]] ++
    if template = ascii "ima-sig" then [toLE 4 0] else []

/-- The template array of a file; copying past its end is a fault. -/
def imaTemplate (template : Bytes) (hash : Digest 32) (path : Bytes) :
    Except Stop (Option Bytes) :=
  let pathLen := UInt32.ofNat (path.length + 1)
  match templateLen template pathLen with
  | none => .ok none
  | some len =>
      let pieces := templatePieces template hash path pathLen
      if pieces.flatten.length ≤ len.toNat then
        .ok (some (pieces.foldl copyPiece (zeros len.toNat, 0)).1)
      else .error .fault

/-- The status of `evlog_add` is dropped. -/
def calculateImaEntry (sha256 : Md 32) (hash : Digest 32) (path : Bytes) (optional : Bool) :
    Proc EventLog Int := do
  let evlog ← getState
  match ← lift (imaTemplate evlog.template hash path) with
  | none => exit (-1)
  | some template =>
      let templateHash := hashBuf sha256 template
      update fun s => { s with entries := s.entries ++ [(path, templateHash, optional)] }
      return 0

/-! ## The two supported templates -/

inductive Template where
  | imaNg
  | imaSig
  deriving DecidableEq, Repr

def Template.name : Template → Bytes
  | .imaNg => ascii "ima-ng"
  | .imaSig => ascii "ima-sig"

/-- A path the program is given: a C string, and short enough for the `int` lengths of
the log it ends up in (the paths come from `realpath`). -/
structure PathName where
  bytes : Bytes
  nul_free : (0 : UInt8) ∉ bytes
  length_lt : bytes.length + 53 < 2 ^ 31

/-- What follows the path in the template. -/
def Template.trailer : Template → Bytes
  | .imaNg => []
  | .imaSig => toLE 4 0

/-- The template bytes of a file, field by field. -/
def templateBytes (t : Template) (hash : Digest 32) (path : PathName) : Bytes :=
  toLE 4 40 ++ (ascii "sha256:" ++ [0] ++ hash.val) ++ toLE 4 (path.bytes.length + 1) ++
    (path.bytes ++ [0]) ++ t.trailer

theorem templateBytes_length (t : Template) (hash : Digest 32) (path : PathName) :
    (templateBytes t hash path).length = path.bytes.length + 49 + t.trailer.length := by
  have hname : (ascii "sha256:").length = 7 := by decide
  simp only [templateBytes, List.length_append, toLE_length, hname, hash.property,
    List.length_singleton]
  omega

theorem templateBytes_length_lt (t : Template) (hash : Digest 32) (path : PathName) :
    (templateBytes t hash path).length < 2 ^ 31 := by
  have hlt := path.length_lt
  have htrailer : t.trailer.length ≤ 4 := by cases t <;> decide
  rw [templateBytes_length]
  omega

/-- The cursor leaves no gap: the array is the fields one after the other. -/
theorem imaTemplate_eq (t : Template) (hash : Digest 32) (path : PathName) :
    imaTemplate t.name hash path.bytes = .ok (some (templateBytes t hash path)) := by
  have hlt := path.length_lt
  have hpathLen : (UInt32.ofNat (path.bytes.length + 1)).toNat = path.bytes.length + 1 := by
    simp only [UInt32.toNat_ofNat']
    omega
  have hpieces : (templatePieces t.name hash path.bytes
      (UInt32.ofNat (path.bytes.length + 1))).flatten = templateBytes t hash path := by
    have hsig : ascii "ima-ng" ≠ ascii "ima-sig" := by decide
    have hdigest : imaDigestLen.toNat = 40 := by decide
    rw [templatePieces, hpathLen, hdigest]
    cases t <;> simp [templateBytes, Template.name, Template.trailer, hsig]
  obtain ⟨len, hlen, hfull⟩ : ∃ len, templateLen t.name
      (UInt32.ofNat (path.bytes.length + 1)) = some len ∧
      len.toNat = (templateBytes t hash path).length := by
    rw [templateBytes_length]
    cases t with
    | imaNg =>
        refine ⟨_, (if_neg (by decide)).trans (if_pos rfl), ?_⟩
        simp only [UInt32.toNat_add, hpathLen, Template.trailer, sizeofU32, imaDigestLen,
          List.length_nil]
        simp only [UInt32.reduceToNat]
        omega
    | imaSig =>
        refine ⟨_, if_pos rfl, ?_⟩
        simp only [UInt32.toNat_add, hpathLen, Template.trailer, sizeofU32, imaDigestLen,
          toLE_length]
        simp only [UInt32.reduceToNat]
        omega
  have hbuild := foldl_copyPiece (templatePieces t.name hash path.bytes
    (UInt32.ofNat (path.bytes.length + 1))) [] (zeros len.toNat) (by
      rw [zeros_length, hfull, hpieces])
  unfold imaTemplate
  dsimp only
  rw [hlen]
  dsimp only
  rw [hpieces, if_pos (by omega)]
  rw [hpieces] at hbuild
  exact congrArg (fun bytes => Except.ok (some bytes)) hbuild

/-- One file adds one entry. -/
theorem calculateImaEntry_run (sha256 : Md 32) (t : Template) (hash : Digest 32)
    (path : PathName) (optional : Bool) (entries : List (Bytes × Digest 32 × Bool)) :
    run (calculateImaEntry sha256 hash path.bytes optional) ⟨t.name, entries⟩ =
      .ok (0, ⟨t.name, entries ++
        [(path.bytes, sha256 (templateBytes t hash path), optional)]⟩) := by
  unfold calculateImaEntry
  simp only [run, bind_apply, getState_apply, andThen_next, imaTemplate_eq, lift_ok_apply,
    hashBuf, update_apply, pure_apply]

/-! ## The log -/

/-- The path behind the call of `basename`, which ends it in front of trailing slashes. -/
def basenamePath (path : Bytes) : Bytes :=
  let stripped := path.reverse.dropWhile (· = 47)
  if stripped = [] then path else stripped.reverse

inductive ImaFormat where
  | json
  | text
  deriving DecidableEq

/-- The text `evlog_add` of calculate-ima-pcr formats. -/
def imaFormatRecord (pcr : Int) (hash path : Bytes) (optional : Bool) : ImaFormat → Bytes
  | .json =>
      ascii "\x7b\n\t\"type\":\"TPM Reference Value\",\n\t\"subtype\":\"" ++ basename path ++
        ascii "\",\n\t\"index\":" ++ Json.integer pcr ++ ascii ",\n\t\"sha256\":\"" ++
        hexText hash ++ ascii "\",\n\t\"description\":\"" ++ basenamePath path ++
        ascii "\",\n\t\"optional\":" ++ (if optional then ascii "true" else ascii "false") ++
        ascii "\n\x7d,\n"
  | .text =>
      ascii "name: " ++ basename path ++ ascii "\n\tpcr: " ++ Json.integer pcr ++
        ascii "\n\tsha256: " ++ hexText hash ++ ascii "\n\tdescription: " ++ basenamePath path ++
        ascii "\n"

/-- What fits the buffer of 1024 bytes. -/
def imaRecordText (format : ImaFormat) (pcr : Int) (entry : Bytes × Digest 32 × Bool) : Bytes :=
  (imaFormatRecord pcr entry.2.1.val entry.1 entry.2.2 format).take 1023

/-- `evlog_add` of calculate-ima-pcr, with its only log. It always returns 0. -/
def imaEvlogAdd (format : ImaFormat) (alloc : Allocations) (log : Unit → Option Bytes)
    (pcr : Int) (path hash : Bytes) (optional : Bool) :
    Except Stop (Int × (Unit → Option Bytes)) :=
  if !alloc.hex then .error .fault
  else .ok (0, (appendText 1024 (imaFormatRecord pcr hash path optional format) alloc log ()).2)


/-- The call for an entry. -/
def addEntry (format : ImaFormat) (pcr : Int) (alloc : Allocations) (log : Unit → Option Bytes)
    (entry : Bytes × Digest 32 × Bool) : Except Stop (Int × (Unit → Option Bytes)) :=
  imaEvlogAdd format alloc log pcr entry.1 entry.2.1.val entry.2.2

theorem imaFormatRecord_ne_nil (format : ImaFormat) (pcr : Int) (hash path : Bytes)
    (optional : Bool) : imaFormatRecord pcr hash path optional format ≠ [] := by
  cases format <;> simp [imaFormatRecord, ascii]

theorem addEntry_appends (format : ImaFormat) (pcr : Int) (entry : Bytes × Digest 32 × Bool) :
    Appends (addEntry format pcr) (fun _ => ()) (imaRecordText format pcr) entry where
  nonempty := by
    have hpos := List.length_pos_iff.mpr
      (imaFormatRecord_ne_nil format pcr entry.2.1.val entry.1 entry.2.2)
    apply List.ne_nil_of_length_pos
    rw [imaRecordText, List.length_take]
    omega
  faults alloc log hhex := by
    rw [addEntry, imaEvlogAdd, hhex]
    rfl
  appends alloc log hhex := by
    obtain ⟨ret, -, happend⟩ := appendText_eq (by decide : 1024 ≤ 2 ^ 31)
      (imaFormatRecord_ne_nil format pcr entry.2.1.val entry.1 entry.2.2) alloc log ()
    rw [addEntry, imaEvlogAdd, hhex, Bool.not_true, if_neg Bool.false_ne_true, happend]
    cases alloc.log <;> exact ⟨0, rfl⟩

end MeasuredBoot.Ima
