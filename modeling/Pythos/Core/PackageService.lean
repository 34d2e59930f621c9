import Pythos.Core.ObjectServiceSchemas
import Pythos.Core.PackageRegistry
import Pythos.Foundation.Bytes

/-!
# The package service

The service keeps the registry of the installed packages, the requirements that were recorded for launches and
the contexts of launched packages. The operations are modelled by what they do to these. What they take from
elsewhere is an argument: the parsed artifact, the identities of the objects created for a package, the content
records, the generation that an encoded snapshot has, and the records that a snapshot holds. An operation that
fails there is no operation here.
-/

namespace Pythos.Core

open Foundation Shared Stateful

def packageLocatorRootObjectId : UInt64 := 0x5059504B4C4F4301
def manifestRecordPackageExport : UInt16 := 2
def manifestRecordCapabilityRequirement : UInt16 := 3
def manifestExportPayloadLen : ℕ := 6
def manifestRequirementPayloadLen : ℕ := 16

/-- The text `.requirement.`. -/
def manifestRequirementNameSeparator : Bytes :=
  [0x2E, 0x72, 0x65, 0x71, 0x75, 0x69, 0x72, 0x65, 0x6D, 0x65, 0x6E, 0x74, 0x2E]

def resourceObjectWorkspace : UInt16 := 2
def rightsQuery : UInt64 := 2
def rightsCreate : UInt64 := 8

/-! ### Manifests -/

structure ManifestRecordV0 where
  recordType : UInt16
  stableName : Bytes
  payload : Bytes
  deriving DecidableEq

/-- The manifest of a parsed artifact and the number of its content entries. -/
structure PackageArtifactV0 where
  manifest : List ManifestRecordV0
  contentEntryCount : ℕ
  deriving DecidableEq

def splitManifestExportName (stableName : Bytes) : Except PackageStatus (Bytes × Bytes) :=
  match stableName.span (· ≠ slash) with
  | (_, []) => .error .invalidLocator
  | (packageLocator, _ :: exportName) =>
    if packageLocator = [] ∨ exportName = [] ∨ exportName.contains slash then .error .invalidLocator
    else .ok (packageLocator, exportName)

/-- `find_subslice`: the bytes in front of the first place of a needle, and those behind it. -/
def findSubslice (needle : Bytes) : Bytes → Option (Bytes × Bytes)
  | [] => none
  | byte :: rest =>
    if needle.isPrefixOf (byte :: rest) then some ([], (byte :: rest).drop needle.length)
    else (findSubslice needle rest).map fun (front, back) ↦ (byte :: front, back)

def splitManifestRequirementName (stableName : Bytes) : Except PackageStatus (Bytes × Bytes) :=
  match findSubslice manifestRequirementNameSeparator stableName with
  | none => .error .invalidManifest
  | some (front, back) =>
    if front = [] ∨ back = [] then .error .invalidManifest else splitManifestExportName front

def manifestRequirementAuthority (graphResource : UInt16) (graphRights : UInt64) :
    Except PackageStatus (UInt64 × UInt32) :=
  if graphResource = resourceObjectWorkspace then
    if graphRights = 0 ∨ graphRights &&& ~~~ (rightsCreate ||| rightsQuery) ≠ 0 then
      .error .invalidManifest
    else
      .ok (shellWorkspaceObjectId.raw,
        (if graphRights &&& rightsCreate ≠ 0 then RightsMask.write.bits else 0) |||
          (if graphRights &&& rightsQuery ≠ 0 then RightsMask.read.bits else 0))
  else .error .invalidManifest

/-- The export that a manifest record declares. -/
def manifestExport (artifact : PackageArtifactV0) (package : PackageRegistryPackageRecord)
    (schema : PackageRegistrySchemaRecord) (record : ManifestRecordV0) :
    Except PackageStatus PackageRegistryExportRecord := do
  if record.payload.length ≠ manifestExportPayloadLen then .error .invalidManifest
  else
    let contentIndex := u16At record.payload 2
    if artifact.contentEntryCount ≤ contentIndex.toNat then .error .invalidManifest
    else
      let (packageLocator, exportName) ← splitManifestExportName record.stableName
      PackageRegistryExportRecord.new packageLocatorRootObjectId packageLocator exportName
        package.packageObjectId package.installedRevision package.releaseDigest
        (u16At record.payload 0) contentIndex (u16At record.payload 4) schema.schemaObjectId
        schema.schemaRevision schema.descriptorDigest

/-- The requirement that a manifest record declares. -/
def manifestRequirement (record : ManifestRecordV0) :
    Except PackageStatus PackageRegistryRequirementRecord := do
  if record.payload.length ≠ manifestRequirementPayloadLen ∨ u16At record.payload 6 ≠ 0 then
    .error .invalidManifest
  else
    let (packageLocator, exportName) ← splitManifestRequirementName record.stableName
    let (resourceId, rightsMask) ←
      manifestRequirementAuthority (u16At record.payload 4) (u64At record.payload 8)
    PackageRegistryRequirementRecord.new packageLocatorRootObjectId packageLocator exportName
      (u16At record.payload 0) (u16At record.payload 2) resourceId rightsMask

/-- An export that is missing is an error of the manifest. -/
def addManifestRequirement (registry : PackageRegistry)
    (requirement : PackageRegistryRequirementRecord) : Except PackageStatus PackageRegistry :=
  match registry.addRequirementRecord requirement with
  | .error .exportMissing => .error .invalidManifest
  | result => result

def addManifestExportsAndRequirementsToRegistry (artifact : PackageArtifactV0)
    (package : PackageRegistryPackageRecord) (schema : PackageRegistrySchemaRecord)
    (registry : PackageRegistry) : Except PackageStatus PackageRegistry := do
  let registry ← artifact.manifest.foldlM (fun registry record ↦
    if record.recordType = manifestRecordPackageExport then do
      registry.addExportRecord (← manifestExport artifact package schema record)
    else .ok registry) registry
  artifact.manifest.foldlM (fun registry record ↦
    if record.recordType = manifestRecordCapabilityRequirement then do
      addManifestRequirement registry (← manifestRequirement record)
    else .ok registry) registry

/-! ### The state -/

structure PackageLaunchRequirement where
  requirementId : UInt16
  graphImportSlot : UInt16
  resource : ResourceId
  rights : RightsMask
  deriving DecidableEq

structure PackageLaunchRequirementRecord where
  exported : PackageRegistryExportRecord
  requirement : PackageLaunchRequirement
  deriving DecidableEq

structure PackageRuntimeContextRecord where
  serviceId : ServiceId
  principalId : UInt64
  programDigest : UInt64
  exported : PackageRegistryExportRecord
  deriving DecidableEq

structure PackageService where
  registry : PackageRegistry
  launchRequirements : List PackageLaunchRequirementRecord
  runtimeContexts : List PackageRuntimeContextRecord
  deriving DecidableEq

/-- A method of the package service. -/
abbrev PackageProgram (α : Type) := Stateful PackageStatus PackageService α

def mapObjectError : ObjectServiceError → PackageStatus
  | .quota _ => .quotaDenied
  | _ => .badRequest

/-- An install behind the staging of the content and the creation of the two objects. -/
structure PackageInstall where
  transactionId : UInt64
  artifact : PackageArtifactV0
  releaseDigest : Digest
  packageObjectId : UInt64
  packageRevision : UInt64
  schemaObjectId : UInt64
  schemaRevision : UInt64
  descriptorContentIndex : UInt16
  descriptorDigest : Digest
  contents : List PackageRegistryContentRecord
  generation : PackageRegistryGeneration
  deriving DecidableEq

/-- The staged registry of an install: the records are added to a copy of the registry. -/
def PackageInstall.stage (install : PackageInstall) (registry : PackageRegistry) :
    Except PackageStatus PackageRegistry := do
  let package := PackageRegistryPackageRecord.new install.packageObjectId install.packageRevision
    install.releaseDigest PackageStatus.ok.code
  let schema := PackageRegistrySchemaRecord.new install.schemaObjectId install.schemaRevision
    install.packageObjectId install.descriptorContentIndex install.descriptorDigest
  let registry ← registry.beginCandidateGeneration install.transactionId
  let registry ← registry.addPackageRecord package
  let registry ← registry.addSchemaRecord schema
  let registry ← install.contents.foldlM PackageRegistry.addContentRecord registry
  addManifestExportsAndRequirementsToRegistry install.artifact package schema registry

namespace PackageService

def newEmpty : PackageService where
  registry := .empty
  launchRequirements := []
  runtimeContexts := []

/-- A registry that is made from the current one takes its place. -/
def changeRegistry (change : PackageRegistry → Except PackageStatus PackageRegistry) :
    PackageProgram Unit :=
  Stateful.update fun service ↦
    match change service.registry with
    | .ok registry => .ok ((), { service with registry })
    | .error error => .error error

/-- A registry that is made from the current one is published as a generation. -/
def publish (generation : PackageRegistryGeneration)
    (change : PackageRegistry → Except PackageStatus PackageRegistry) : PackageProgram Unit :=
  changeRegistry fun registry ↦ do
    let registry ← change registry
    .ok (registry.recordCommittedGeneration generation)

/-! ### Installing and removing -/

def install (install : PackageInstall) : PackageProgram Unit := publish install.generation install.stage

/-- The published registry is the one that the device holds. -/
def publishInstallCandidate (snapshot : PackageRegistry) (generation : PackageRegistryGeneration) :
    PackageProgram Unit :=
  publish generation fun _ ↦ snapshot.decodeRecords

def disable (packageObjectId transactionId : UInt64) (generation : PackageRegistryGeneration) :
    PackageProgram Unit :=
  publish generation fun registry ↦ do
    let registry ← registry.beginCandidateGeneration transactionId
    let (_, registry) ← registry.disable packageObjectId
    .ok registry

def packageHasLiveRuntimeContext (service : PackageService) (packageObjectId : UInt64) : Bool :=
  service.runtimeContexts.any fun record ↦ record.exported.packageObjectId = packageObjectId

def uninstall (packageObjectId transactionId : UInt64) (generation : PackageRegistryGeneration) :
    PackageProgram Unit := do
  let service ← Stateful.read
  if service.packageHasLiveRuntimeContext packageObjectId then fail .liveProcessExists
  else
    publish generation fun registry ↦ do
      let registry ← registry.beginCandidateGeneration transactionId
      let (_, registry) ← registry.tombstone packageObjectId
      registry.reclaimTombstonedPackageContent packageObjectId

/-! ### Schema references -/

def reconcileSchemaReferences (references : List PackageSchemaReference) : PackageProgram Unit :=
  changeRegistry fun registry ↦
    references.foldlM (fun registry reference ↦
      registry.retainSchemaReference reference.schemaObjectId.raw reference.schemaRevision)
      registry.clearSchemaDescriptorRetentionCounts

def reconcileSchemaReferencesFromObjectService (objects : ObjectService) : PackageProgram Unit :=
  match objects.packageDefinedSchemaReferences with
  | .error error => fail (mapObjectError error)
  | .ok references => reconcileSchemaReferences references.live

/-! ### Restoring and recovering -/

/-- `commit_restored_publication`: what was recorded for launches is forgotten. -/
def restoreFromStorage (snapshot : PackageRegistry) : PackageProgram Unit :=
  Stateful.update fun _ ↦
    match snapshot.decodeRecords with
    | .ok registry => .ok ((), { registry, launchRequirements := [], runtimeContexts := [] })
    | .error error => .error error

/-- `recover_inner`: the registry of the selected snapshot takes the place of the current one, and the schema
references are counted again in an object service if there is one. -/
def recover (snapshot : PackageRegistry) (objects : Option ObjectService) : PackageProgram Unit := do
  changeRegistry fun _ ↦ snapshot.decodeRecords
  match objects with
  | some objects => reconcileSchemaReferencesFromObjectService objects
  | none => pure ()

def resolveExport (service : PackageService) (namespaceRoot : UInt64) (locator : Bytes) :
    Except PackageStatus PackageRegistryExportRecord :=
  service.registry.exportForLocator namespaceRoot locator

end PackageService

end Pythos.Core
