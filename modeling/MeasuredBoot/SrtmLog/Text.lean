import MeasuredBoot.SrtmLog.Format
import MeasuredBoot.Common.File

/-! # The text of an event

What `eventcb.c` prints about an event, as one byte string for each `snprintf`. A
text that `snprintf` cannot count in an `int` fails the assertion behind it; a
precision that does not fit an `int` makes `%.*s` read on to the next NUL.
-/

namespace MeasuredBoot.SrtmLog

open Binary Imperative

inductive Format where
  | json
  | text
  deriving DecidableEq

/-- `snprintf` into `char s[4096]`. -/
def snprintf (text : Bytes) : Except Stop Bytes :=
  if text.length < 2 ^ 31 then .ok (text.take 4095) else .error .fault

/-- The text `%.*s` stands for, with the precision `(int)size`. -/
def precisionText (size : Nat) (mem : Bytes) : Except Stop Bytes :=
  if size % 2 ^ 32 < 2 ^ 31 then .ok (cString (mem.take (size % 2 ^ 32)))
  else if 0 ∈ mem then .ok (cString mem)
  else .error .fault

/-! ## Names -/

def eventTypeNames : List (Nat × Bytes) :=
  [ (0x0, ascii "EV_PREBOOT_CERT"), (evPostCode, ascii "EV_POST_CODE"),
    (0x2, ascii "EV_UNUSED"), (evNoAction, ascii "EV_NO_ACTION"),
    (0x4, ascii "EV_SEPARATOR"), (0x5, ascii "EV_ACTION"), (0x6, ascii "EV_EVENT_TAG"),
    (evSCrtmContents, ascii "EV_S_CRTM_CONTENTS"), (0x8, ascii "EV_S_CRTM_VERSION"),
    (0x9, ascii "EV_CPU_MICROCODE"), (0xa, ascii "EV_PLATFORM_CONFIG_FLAGS"),
    (0xb, ascii "EV_TABLE_OF_DEVICES"), (0xc, ascii "EV_COMPACT_HASH"),
    (evIpl, ascii "EV_IPL"), (0xe, ascii "EV_IPL_PARTITION_DATA"),
    (0xf, ascii "EV_NONHOST_CODE"), (0x10, ascii "EV_NONHOST_CONFIG"),
    (0x11, ascii "EV_NONHOST_INFO"), (0x12, ascii "EV_OMIT_BOOT_DEVICE_EVENTS"),
    (0x13, ascii "EV_POST_CODE2"),
    (evEfiVariableDriverConfig, ascii "EV_EFI_VARIABLE_DRIVER_CONFIG"),
    (evEfiVariableBoot, ascii "EV_EFI_VARIABLE_BOOT"),
    (evEfiBootServicesApplication, ascii "EV_EFI_BOOT_SERVICES_APPLICATION"),
    (evEfiBootServicesDriver, ascii "EV_EFI_BOOT_SERVICES_DRIVER"),
    (evEfiRuntimeServicesDriver, ascii "EV_EFI_RUNTIME_SERVICES_DRIVER"),
    (evEfiGptEvent, ascii "EV_EFI_GPT_EVENT"), (evEfiAction, ascii "EV_EFI_ACTION"),
    (evEfiPlatformFirmwareBlob, ascii "EV_EFI_PLATFORM_FIRMWARE_BLOB"),
    (evEfiEventBase + 0x9, ascii "EV_EFI_HANDOFF_TABLES"),
    (evEfiEventBase + 0xa, ascii "EV_EFI_PLATFORM_FIRMWARE_BLOB2"),
    (evEfiEventBase + 0xb, ascii "EV_EFI_HANDOFF_TABLES2"),
    (evEfiEventBase + 0xd, ascii "EV_EFI_GPT_EVENT2"),
    (evEfiHcrtmEvent, ascii "EV_EFI_HCRTM_EVENT"),
    (evEfiVariableAuthority, ascii "EV_EFI_VARIABLE_AUTHORITY"),
    (evEfiEventBase + 0xe1, ascii "EV_EFI_SPDM_FIRMWARE_BLOB"),
    (evEfiEventBase + 0xe2, ascii "EV_EFI_SPDM_FIRMWARE_CONFIG"),
    (evEfiEventBase + 0xe3, ascii "EV_EFI_SPDM_DEVICE_POLICY"),
    (evEfiEventBase + 0xe4, ascii "EV_EFI_SPDM_DEVICE_AUTHORITY") ]

def eventtypeToString (type : Nat) : Bytes :=
  (eventTypeNames.lookup type).getD (ascii "Unknown event type")

/-- `get_algo_str`. -/
def getAlgoStr (id : Nat) : Bytes :=
  if id = tpm2AlgSha1 then ascii "sha1"
  else if id = tpm2AlgSha256 then ascii "sha256"
  else if id = tpm2AlgSha384 then ascii "sha384"
  else if id = tpm2AlgSha512 then ascii "sha512"
  else ascii "unknown"

/-- The algorithms `get_algo_str` knows. -/
def supportedAlgorithms : List Nat := [tpm2AlgSha1, tpm2AlgSha256, tpm2AlgSha384, tpm2AlgSha512]

/-- What `get_algo_str` prints on the standard output, its default case. -/
def algoMessage (id : Nat) : Bytes :=
  if id ∈ supportedAlgorithms then []
  else ascii "Algorithm ID " ++ decText id ++ ascii " not supported\n"

/-- `guid_unparse_lower` of the `EFI_GUID` at a pointer. -/
def guidUnparseLower (mem : Bytes) : Bytes :=
  hexPadded 8 (ofLE (slice mem 0 4)) ++ ascii "-" ++ hexPadded 4 (ofLE (slice mem 4 2)) ++
    ascii "-" ++ hexPadded 4 (ofLE (slice mem 6 2)) ++ ascii "-" ++
    hexText (slice mem 8 2) ++ ascii "-" ++ hexText (slice mem 10 6)

/-! ## Records -/

/-- The `TPM_PCR_INIT_VALUE` record. -/
def initvalText (format : Format) (locality pcr : Nat) : Bytes :=
  let zeroDigits := List.replicate 63 48
  match format with
  | .json =>
      ascii "\x7b\n\t\"type\":\"TPM Reference Value\",\n\t\"subtype\":\"TPM_PCR_INIT_VALUE\",\n\t\"index\":"
        ++ decText pcr ++ ascii ",\n\t\"sha256\":\"" ++ zeroDigits ++ decText locality
        ++ ascii "\"\n\x7d,\n"
  | .text =>
      ascii "name: TPM_PCR_INIT_VALUE\n\tpcr: " ++ decText pcr ++ ascii "\n\tsha256: "
        ++ zeroDigits ++ decText locality ++ ascii "\n"

/-- The start of a record, printed for the event header. -/
def headerText (format : Format) (type pcr : Nat) : Bytes :=
  match format with
  | .json =>
      ascii "\x7b\n\t\"type\":\"TPM Reference Value\",\n\t\"subtype\":\"" ++ eventtypeToString type
        ++ ascii "\",\n\t\"index\":" ++ decText pcr ++ ascii ",\n"
  | .text =>
      ascii "name: " ++ eventtypeToString type ++ ascii "\n\tpcr: " ++ decText pcr ++ ascii "\n"

def digestText (format : Format) (d : Digest2) : Bytes :=
  match format with
  | .json =>
      ascii "\t\"" ++ getAlgoStr d.algorithmId ++ ascii "\":\"" ++ hexText d.digest
        ++ ascii "\",\n"
  | .text => ascii "\t" ++ getAlgoStr d.algorithmId ++ ascii ": " ++ hexText d.digest ++ ascii "\n"

/-- The record of an event in the old format, printed at once. -/
def sha1RecordText (format : Format) (type pcr : Nat) (digest : Bytes) : Bytes :=
  match format with
  | .json =>
      ascii "\x7b\n\t\"type\":\"TPM Reference Value\",\n\t\"subtype\":\"" ++ eventtypeToString type
        ++ ascii "\",\n\t\"index\":" ++ decText pcr ++ ascii ",\n\t\"sha256\":\""
        ++ hexText digest ++ ascii "\"\n\x7d,\n"
  | .text =>
      ascii "name: " ++ eventtypeToString type ++ ascii "\n\tpcr: " ++ decText pcr
        ++ ascii "\n\tsha256: " ++ hexText digest ++ ascii "\n"

/-- `ADD_EVLOG_DESCRIPTION`. -/
def descriptionText (format : Format) (description : Bytes) : Bytes :=
  match format with
  | .json => ascii "\t\"description\":\"" ++ description ++ ascii "\"\n\x7d,\n"
  | .text => ascii "\tdescription: " ++ description ++ ascii "\n"

/-! ## Descriptions -/

/-- The numbers of a `UEFI_PLATFORM_FIRMWARE_BLOB`. -/
def blobDescription (data : Bytes) : Bytes :=
  ascii "BlobBase: 0x" ++ hexNumber (ofLE (slice data 0 8)) ++ ascii ";  BlobLength: 0x"
    ++ hexNumber (ofLE (slice data 8 8))

def variableDescription (data : Bytes) : Bytes :=
  ascii "Variable " ++ guidUnparseLower data

def imageLoadDescription (data : Bytes) (size : Nat) : Bytes :=
  ascii "ImageLocationInMemory: 0x" ++ hexNumber (ofLE (slice data 0 8))
    ++ ascii "; ImageLengthInMemory: " ++ decText (ofLE (slice data 8 8))
    ++ ascii "; ImageLinkTimeAddress: 0x" ++ hexNumber (ofLE (slice data 16 8))
    ++ ascii "; LengthOfDevicePath: " ++ decText (ofLE (slice data 24 8))
    ++ ascii "; DevicePath: " ++ hexText (slice data 32 (size - 32))

/-- The header of a `UEFI_GPT_DATA`. -/
def gptDescription (data : Bytes) : Bytes :=
  ascii "Signature: " ++ cString (slice data 0 8)
    ++ ascii ", Revision: 0x" ++ hexNumber (ofLE (slice data 8 4))
    ++ ascii ", HeaderSize: " ++ decText (ofLE (slice data 12 4))
    ++ ascii ", HeaderCRC32: 0x" ++ hexNumber (ofLE (slice data 16 4))
    ++ ascii ", MyLBA: 0x" ++ hexNumber (ofLE (slice data 24 8))
    ++ ascii ", AlternateLBA: 0x" ++ hexNumber (ofLE (slice data 32 8))
    ++ ascii ", FirstUsableLBA: 0x" ++ hexNumber (ofLE (slice data 40 8))
    ++ ascii ", LastUsableLBA: 0x" ++ hexNumber (ofLE (slice data 48 8))
    ++ ascii ", DiskGUID: " ++ guidUnparseLower (slice data 56 16)
    ++ ascii ", PartitionEntryLBA: 0x" ++ hexNumber (ofLE (slice data 72 8))
    ++ ascii ", NumberOfPartitionEntry: " ++ decText (ofLE (slice data 80 4))
    ++ ascii ", SizeOfPartitionEntry: " ++ decText (ofLE (slice data 84 4))
    ++ ascii ", PartitionEntryArrayCRC32: 0x" ++ hexNumber (ofLE (slice data 88 4))
    ++ ascii ", NumberOfPartitions: " ++ decText (ofLE (slice data 92 8)) ++ ascii ","

end MeasuredBoot.SrtmLog
