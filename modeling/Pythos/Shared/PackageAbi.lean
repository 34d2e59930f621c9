import Pythos.Foundation.Bytes

/-!
# The package ABI

The limits, identifiers and status codes that the package services share.
-/

namespace Pythos.Shared

/-- A SHA-256 digest. -/
abbrev Digest := Vector UInt8 32

def objectKindPackage : UInt16 := 30
def objectKindSchemaDefinition : UInt16 := 31

def maxContentBytes : ℕ := 4 * 1024 * 1024
def maxContentEntries : ℕ := 64
def maxExportRecords : ℕ := 32
def maxRequirementRecords : ℕ := 64
def maxSchemaDeclarations : ℕ := 32
def maxContentExtentsPerRecord : ℕ := 32
def packageContentMaxBlocks : ℕ := 8192

inductive PackageStatus
  | ok
  | denied
  | notFound
  | badRequest
  | bufferTooSmall
  | invalidMagic
  | unsupportedMajor
  | unsupportedRequiredMinor
  | invalidOffset
  | lengthOverflow
  | boundsExceeded
  | duplicateStableName
  | digestMismatch
  | invalidLocator
  | sourceMissing
  | sourceHandleInvalid
  | sourceReadDenied
  | installDenied
  | invalidManifest
  | invalidSchema
  | pythTigVerificationFailed
  | quotaDenied
  | transactionAnchorMismatch
  | registryWriteDenied
  | packageDisabled
  | packageTombstoned
  | exportMissing
  | contentCorrupt
  | requiredGrantMissing
  | finalCapabilityDenied
  | liveProcessExists
  | schemaRetained
  | contentRetained
  | registryRecoveryDenied
  deriving DecidableEq, Repr

/-- `status as u16`. -/
def PackageStatus.code : PackageStatus → UInt16
  | ok => 0
  | denied => 1
  | notFound => 2
  | badRequest => 3
  | bufferTooSmall => 4
  | invalidMagic => 100
  | unsupportedMajor => 101
  | unsupportedRequiredMinor => 102
  | invalidOffset => 103
  | lengthOverflow => 104
  | boundsExceeded => 105
  | duplicateStableName => 106
  | digestMismatch => 107
  | invalidLocator => 108
  | sourceMissing => 200
  | sourceHandleInvalid => 201
  | sourceReadDenied => 202
  | installDenied => 203
  | invalidManifest => 300
  | invalidSchema => 301
  | pythTigVerificationFailed => 302
  | quotaDenied => 303
  | transactionAnchorMismatch => 304
  | registryWriteDenied => 305
  | packageDisabled => 400
  | packageTombstoned => 401
  | exportMissing => 402
  | contentCorrupt => 403
  | requiredGrantMissing => 404
  | finalCapabilityDenied => 405
  | liveProcessExists => 500
  | schemaRetained => 501
  | contentRetained => 502
  | registryRecoveryDenied => 600

end Pythos.Shared
