import Pythos.Core.ObjectLocator
import Pythos.Foundation.Checked
import Pythos.Shared.PackageAbi

/-!
# The package registry

The registry records the installed packages, their schemas and contents, the exports that a locator
names and the capabilities that an export requires. The source keeps each kind of record in an array with
a count, filled from the front; here it is the list of the records. A locator segment is stored in sixteen
bytes with its length, zero behind the end; here it is the bytes themselves, with the proof that they form
one valid segment.
-/

namespace Pythos.Core

open Foundation Shared

def maxRegistryPackages : ℕ := maxSchemaDeclarations
def maxRegistrySchemas : ℕ := maxSchemaDeclarations
def maxRegistryContent : ℕ := maxContentEntries
def maxRegistryExports : ℕ := maxExportRecords
def maxRegistryRequirements : ℕ := maxRequirementRecords

/-! ### Locator segments -/

/-- The checks of `copy_locator_segment`. -/
def isLocatorSegment (bytes : Bytes) : Bool :=
  !bytes.contains slash && (validateLocator bytes).isOk && bytes.length ≤ maxLocatorSegmentBytes

/-- A package locator or an export name. -/
structure LocatorSegment where
  bytes : Bytes
  valid : isLocatorSegment bytes = true
  deriving DecidableEq

def copyLocatorSegment (bytes : Bytes) : Except PackageStatus LocatorSegment :=
  if h : isLocatorSegment bytes = true then .ok ⟨bytes, h⟩ else .error .invalidLocator

/-! ### Records -/

structure PackageExtent where
  startBlock : UInt16
  blockCount : UInt16
  deriving DecidableEq, Repr

def PackageExtent.empty : PackageExtent := ⟨0, 0⟩

structure PackageRegistryGeneration where
  generation : UInt64
  rootDigest : Digest
  deriving DecidableEq

structure PackageRegistryPackageRecord where
  packageObjectId : UInt64
  installedRevision : UInt64
  releaseDigest : Digest
  status : UInt16
  flags : UInt16
  objectKind : UInt16
  deriving DecidableEq

def PackageRegistryPackageRecord.new (packageObjectId installedRevision : UInt64)
    (releaseDigest : Digest) (status : UInt16) : PackageRegistryPackageRecord where
  packageObjectId
  installedRevision
  releaseDigest
  status
  flags := 0
  objectKind := objectKindPackage

structure PackageRegistrySchemaRecord where
  schemaObjectId : UInt64
  schemaRevision : UInt64
  packageObjectId : UInt64
  descriptorContentIndex : UInt16
  flags : UInt16
  objectKind : UInt16
  descriptorDigest : Digest
  deriving DecidableEq

def PackageRegistrySchemaRecord.new (schemaObjectId schemaRevision packageObjectId : UInt64)
    (descriptorContentIndex : UInt16) (descriptorDigest : Digest) : PackageRegistrySchemaRecord where
  schemaObjectId
  schemaRevision
  packageObjectId
  descriptorContentIndex
  flags := 0
  objectKind := objectKindSchemaDefinition
  descriptorDigest

structure PackageRegistryContentRecord where
  packageObjectId : UInt64
  releaseDigest : Digest
  contentIndex : UInt16
  role : UInt16
  format : UInt16
  digest : Digest
  byteLen : UInt64
  extents : Vector PackageExtent maxContentExtentsPerRecord
  extentCount : UInt16
  retentionCount : UInt16
  flags : UInt16
  deriving DecidableEq

structure PackageRegistryExportRecord where
  namespaceRootObjectId : UInt64
  packageLocator : LocatorSegment
  exportName : LocatorSegment
  packageObjectId : UInt64
  packageRevision : UInt64
  releaseDigest : Digest
  exportKind : UInt16
  contentIndex : UInt16
  entrypoint : UInt16
  schemaObjectId : UInt64
  schemaRevision : UInt64
  schemaDescriptorDigest : Digest
  deriving DecidableEq

def PackageRegistryExportRecord.new (namespaceRootObjectId : UInt64)
    (packageLocator exportName : Bytes) (packageObjectId packageRevision : UInt64)
    (releaseDigest : Digest) (exportKind contentIndex entrypoint : UInt16)
    (schemaObjectId schemaRevision : UInt64) (schemaDescriptorDigest : Digest) :
    Except PackageStatus PackageRegistryExportRecord := do
  let packageLocator ← copyLocatorSegment packageLocator
  let exportName ← copyLocatorSegment exportName
  .ok
    { namespaceRootObjectId, packageLocator, exportName, packageObjectId, packageRevision,
      releaseDigest, exportKind, contentIndex, entrypoint, schemaObjectId, schemaRevision,
      schemaDescriptorDigest }

structure PackageRegistryRequirementRecord where
  namespaceRootObjectId : UInt64
  packageLocator : LocatorSegment
  exportName : LocatorSegment
  requirementId : UInt16
  graphImportSlot : UInt16
  resourceId : UInt64
  rightsMask : UInt32
  flags : UInt16
  deriving DecidableEq

namespace PackageRegistryRequirementRecord

def new (namespaceRootObjectId : UInt64) (packageLocator exportName : Bytes)
    (requirementId graphImportSlot : UInt16) (resourceId : UInt64) (rightsMask : UInt32) :
    Except PackageStatus PackageRegistryRequirementRecord := do
  if resourceId = 0 ∨ rightsMask = 0 then .error .invalidManifest
  else
    let packageLocator ← copyLocatorSegment packageLocator
    let exportName ← copyLocatorSegment exportName
    .ok
      { namespaceRootObjectId, packageLocator, exportName, requirementId, graphImportSlot, resourceId,
        rightsMask, flags := 0 }

def matchesExport (requirement : PackageRegistryRequirementRecord)
    (exported : PackageRegistryExportRecord) : Bool :=
  requirement.namespaceRootObjectId = exported.namespaceRootObjectId ∧
    requirement.packageLocator = exported.packageLocator ∧
    requirement.exportName = exported.exportName

def matchesExportForRequirementIdentity (requirement other : PackageRegistryRequirementRecord) :
    Bool :=
  requirement.namespaceRootObjectId = other.namespaceRootObjectId ∧
    requirement.packageLocator = other.packageLocator ∧ requirement.exportName = other.exportName

end PackageRegistryRequirementRecord

/-- The export has the locator of another. -/
def PackageRegistryExportRecord.sameLocator (exported other : PackageRegistryExportRecord) : Bool :=
  exported.namespaceRootObjectId = other.namespaceRootObjectId ∧
    exported.packageLocator = other.packageLocator ∧ exported.exportName = other.exportName

/-! ### The registry -/

structure PackageRegistry where
  generation : UInt64
  activeTransactionId : UInt64
  committedRootDigest : Digest
  rootDigest : Digest
  packageRecords : List PackageRegistryPackageRecord
  schemaRecords : List PackageRegistrySchemaRecord
  contentRecords : List PackageRegistryContentRecord
  exportRecords : List PackageRegistryExportRecord
  requirementRecords : List PackageRegistryRequirementRecord
  deriving DecidableEq

def Digest.zero : Digest := Vector.replicate 32 0

/-- `validate_extent`: the extent has blocks and lies inside the content area. -/
def extentIsValid (extent : PackageExtent) : Bool :=
  extent.blockCount ≠ 0 ∧
    extent.startBlock.toNat + extent.blockCount.toNat ≤ packageContentMaxBlocks

/-- The number of blocks for a number of bytes. -/
def blocksFor (byteLen : ℕ) : ℕ := (byteLen + 511) / 512

/-- The extents of a content record that are in use. -/
def PackageRegistryContentRecord.usedExtents (record : PackageRegistryContentRecord) :
    List PackageExtent :=
  record.extents.toList.take record.extentCount.toNat

/-- The extents of a content record behind those in use. -/
def PackageRegistryContentRecord.unusedExtents (record : PackageRegistryContentRecord) :
    List PackageExtent :=
  record.extents.toList.drop record.extentCount.toNat

/-- The used extents are valid and the others empty, and their blocks are those of the bytes. -/
def validateContentRecord (record : PackageRegistryContentRecord) : Except PackageStatus Unit :=
  if record.byteLen.toNat > maxContentBytes ∨
      record.extentCount.toNat > maxContentExtentsPerRecord then .error .boundsExceeded
  else if ¬ record.usedExtents.all extentIsValid then .error .boundsExceeded
  else if ¬ record.unusedExtents.all (· = PackageExtent.empty) then .error .registryRecoveryDenied
  else if (record.usedExtents.map fun extent ↦ extent.blockCount.toNat).sum ≠
      blocksFor record.byteLen.toNat then .error .boundsExceeded
  else .ok ()

namespace PackageRegistry

def empty : PackageRegistry where
  generation := 1
  activeTransactionId := 0
  committedRootDigest := Digest.zero
  rootDigest := Digest.zero
  packageRecords := []
  schemaRecords := []
  contentRecords := []
  exportRecords := []
  requirementRecords := []

/-! #### Insertion -/

/-- A record is added behind the others if there is room and no other one has its identity. -/
def insertRecord {α : Type} (capacity : ℕ) (same : α → Bool) (records : List α) (record : α) :
    Except PackageStatus (List α) :=
  if records.length ≥ capacity then .error .quotaDenied
  else if records.any same then .error .duplicateStableName
  else .ok (records ++ [record])

def addPackageRecord (registry : PackageRegistry) (record : PackageRegistryPackageRecord) :
    Except PackageStatus PackageRegistry := do
  let records ← insertRecord maxRegistryPackages
    (fun existing ↦ existing.packageObjectId = record.packageObjectId) registry.packageRecords record
  .ok { registry with packageRecords := records }

def addSchemaRecord (registry : PackageRegistry) (record : PackageRegistrySchemaRecord) :
    Except PackageStatus PackageRegistry := do
  let records ← insertRecord maxRegistrySchemas
    (fun existing ↦ existing.schemaObjectId = record.schemaObjectId) registry.schemaRecords record
  .ok { registry with schemaRecords := records }

def addContentRecord (registry : PackageRegistry) (record : PackageRegistryContentRecord) :
    Except PackageStatus PackageRegistry := do
  validateContentRecord record
  let records ← insertRecord maxRegistryContent
    (fun existing ↦ existing.packageObjectId = record.packageObjectId ∧
      existing.releaseDigest = record.releaseDigest ∧ existing.contentIndex = record.contentIndex)
    registry.contentRecords record
  .ok { registry with contentRecords := records }

def packageRecordForExport (registry : PackageRegistry) (exported : PackageRegistryExportRecord) :
    Except PackageStatus PackageRegistryPackageRecord :=
  match registry.packageRecords.find? fun record ↦
      record.packageObjectId = exported.packageObjectId ∧
        record.installedRevision = exported.packageRevision ∧
          record.releaseDigest = exported.releaseDigest with
  | some record => .ok record
  | none => .error .exportMissing

def activePackageForExport (registry : PackageRegistry) (exported : PackageRegistryExportRecord) :
    Except PackageStatus PackageRegistryPackageRecord := do
  let record ← registry.packageRecordForExport exported
  if record.status = PackageStatus.ok.code then .ok record
  else if record.status = PackageStatus.packageDisabled.code then .error .packageDisabled
  else if record.status = PackageStatus.packageTombstoned.code then .error .packageTombstoned
  else .error .exportMissing

def retainablePackageRecordForExport (registry : PackageRegistry)
    (exported : PackageRegistryExportRecord) : Except PackageStatus PackageRegistryPackageRecord := do
  let record ← registry.packageRecordForExport exported
  if record.status = PackageStatus.ok.code ∨ record.status = PackageStatus.packageDisabled.code then
    .ok record
  else if record.status = PackageStatus.packageTombstoned.code then .error .packageTombstoned
  else .error .exportMissing

def insertExportRecord (registry : PackageRegistry) (record : PackageRegistryExportRecord) :
    Except PackageStatus PackageRegistry := do
  let records ← insertRecord maxRegistryExports (fun existing ↦ existing.sameLocator record)
    registry.exportRecords record
  .ok { registry with exportRecords := records }

def addExportRecord (registry : PackageRegistry) (record : PackageRegistryExportRecord) :
    Except PackageStatus PackageRegistry := do
  let _ ← registry.activePackageForExport record
  registry.insertExportRecord record

def addExportRecordFromSnapshot (registry : PackageRegistry) (record : PackageRegistryExportRecord) :
    Except PackageStatus PackageRegistry := do
  let _ ← registry.retainablePackageRecordForExport record
  registry.insertExportRecord record

def exportRecordForRequirement (registry : PackageRegistry)
    (requirement : PackageRegistryRequirementRecord) :
    Except PackageStatus PackageRegistryExportRecord :=
  match registry.exportRecords.find? requirement.matchesExport with
  | some exported => .ok exported
  | none => .error .exportMissing

def activeExportForRequirement (registry : PackageRegistry)
    (requirement : PackageRegistryRequirementRecord) :
    Except PackageStatus PackageRegistryExportRecord := do
  let exported ← registry.exportRecordForRequirement requirement
  let _ ← registry.activePackageForExport exported
  .ok exported

def retainableExportForRequirement (registry : PackageRegistry)
    (requirement : PackageRegistryRequirementRecord) :
    Except PackageStatus PackageRegistryExportRecord := do
  let exported ← registry.exportRecordForRequirement requirement
  let _ ← registry.retainablePackageRecordForExport exported
  .ok exported

def insertRequirementRecord (registry : PackageRegistry)
    (record : PackageRegistryRequirementRecord) : Except PackageStatus PackageRegistry := do
  let records ← insertRecord maxRegistryRequirements
    (fun existing ↦ existing.matchesExportForRequirementIdentity record ∧
      (existing.requirementId = record.requirementId ∨
        existing.graphImportSlot = record.graphImportSlot)) registry.requirementRecords record
  .ok { registry with requirementRecords := records }

def addRequirementRecord (registry : PackageRegistry) (record : PackageRegistryRequirementRecord) :
    Except PackageStatus PackageRegistry := do
  let _ ← registry.activeExportForRequirement record
  registry.insertRequirementRecord record

def addRequirementRecordFromSnapshot (registry : PackageRegistry)
    (record : PackageRegistryRequirementRecord) : Except PackageStatus PackageRegistry := do
  let _ ← registry.retainableExportForRequirement record
  registry.insertRequirementRecord record

/-! #### Lookup -/

/-- `parse_export_locator`: a package locator and an export name. -/
def parseExportLocator (locator : Bytes) : Except PackageStatus (Bytes × Bytes) :=
  match validateLocator locator with
  | .error _ => .error .invalidLocator
  | .ok _ =>
    match locator.span (· ≠ slash) with
    | (_, []) => .error .exportMissing
    | (packageLocator, _ :: exportName) =>
      if exportName.contains slash then .error .exportMissing else .ok (packageLocator, exportName)

def exportForLocator (registry : PackageRegistry) (namespaceRoot : UInt64) (locator : Bytes) :
    Except PackageStatus PackageRegistryExportRecord := do
  let parsed ← parseExportLocator locator
  match registry.exportRecords.find? fun record ↦
      record.namespaceRootObjectId = namespaceRoot ∧ record.packageLocator.bytes = parsed.1 ∧
        record.exportName.bytes = parsed.2 with
  | none => .error .exportMissing
  | some record =>
    let _ ← registry.activePackageForExport record
    .ok record

def packageRecordByObjectId (registry : PackageRegistry) (packageObjectId : UInt64) :
    Option PackageRegistryPackageRecord :=
  registry.packageRecords.find? fun record ↦ record.packageObjectId = packageObjectId

def schemaRecordByIdentity (registry : PackageRegistry) (schemaObjectId schemaRevision : UInt64) :
    Option PackageRegistrySchemaRecord :=
  registry.schemaRecords.find? fun record ↦
    record.schemaObjectId = schemaObjectId ∧ record.schemaRevision = schemaRevision

/-- The content is the descriptor of the schema. -/
def describesSchema (schema : PackageRegistrySchemaRecord) (content : PackageRegistryContentRecord) :
    Bool :=
  content.packageObjectId = schema.packageObjectId ∧
    content.contentIndex = schema.descriptorContentIndex ∧ content.digest = schema.descriptorDigest

def contentIndexForSchemaDescriptor (registry : PackageRegistry)
    (schema : PackageRegistrySchemaRecord) : Option ℕ :=
  registry.contentRecords.findIdx? (describesSchema schema)

def retainedSchemaDescriptorContent (registry : PackageRegistry)
    (content : PackageRegistryContentRecord) : Bool :=
  content.retentionCount ≠ 0 && registry.schemaRecords.any fun schema ↦ describesSchema schema content

def publishedContentForExport (registry : PackageRegistry) (exported : PackageRegistryExportRecord) :
    Bool :=
  registry.contentRecords.any fun record ↦
    record.packageObjectId = exported.packageObjectId ∧
      record.releaseDigest = exported.releaseDigest ∧ record.contentIndex = exported.contentIndex

/-! #### Snapshots -/

def decodeExportStep (registry : PackageRegistry) (record : PackageRegistryExportRecord) :
    Except PackageStatus PackageRegistry :=
  if ¬ registry.publishedContentForExport record then .error .registryRecoveryDenied
  else registry.addExportRecordFromSnapshot record

/-- The records of a snapshot are added one after the other with the checks of the registry. -/
def addRecords (snapshot registry : PackageRegistry) : Except PackageStatus PackageRegistry := do
  let registry ← snapshot.packageRecords.foldlM addPackageRecord registry
  let registry ← snapshot.schemaRecords.foldlM addSchemaRecord registry
  let registry ← snapshot.contentRecords.foldlM addContentRecord registry
  let registry ← snapshot.exportRecords.foldlM decodeExportStep registry
  snapshot.requirementRecords.foldlM addRequirementRecordFromSnapshot registry

/-- `decode_snapshot`, behind the checks of the bytes and of single records. -/
def decodeRecords (snapshot : PackageRegistry) : Except PackageStatus PackageRegistry :=
  snapshot.addRecords { snapshot with
    packageRecords := []
    schemaRecords := []
    contentRecords := []
    exportRecords := []
    requirementRecords := [] }

/-! #### Life cycle -/

/-- The record of a package with another status. -/
def changeStatus (records : List PackageRegistryPackageRecord) (packageObjectId : UInt64)
    (status : PackageStatus) :
    Except PackageStatus (PackageRegistryPackageRecord × List PackageRegistryPackageRecord) :=
  match records with
  | [] => .error .notFound
  | record :: rest =>
    if record.packageObjectId = packageObjectId then
      if record.status = PackageStatus.ok.code ∨
          record.status = PackageStatus.packageDisabled.code then
        let changed := { record with status := status.code }
        .ok (changed, changed :: rest)
      else if record.status = PackageStatus.packageTombstoned.code then .error .packageTombstoned
      else .error .denied
    else do
      let (changed, rest) ← changeStatus rest packageObjectId status
      .ok (changed, record :: rest)

def disable (registry : PackageRegistry) (packageObjectId : UInt64) :
    Except PackageStatus (PackageRegistryPackageRecord × PackageRegistry) := do
  let (record, records) ← changeStatus registry.packageRecords packageObjectId .packageDisabled
  .ok (record, { registry with packageRecords := records })

def requirementBelongsToPackage (registry : PackageRegistry)
    (requirement : PackageRegistryRequirementRecord) (packageObjectId : UInt64) : Bool :=
  match registry.exportRecordForRequirement requirement with
  | .ok exported => exported.packageObjectId = packageObjectId
  | .error _ => false

def removeRequirementsForPackage (registry : PackageRegistry) (packageObjectId : UInt64) :
    PackageRegistry :=
  { registry with
    requirementRecords := registry.requirementRecords.filter fun requirement ↦
      !registry.requirementBelongsToPackage requirement packageObjectId }

def removeExportsForPackage (registry : PackageRegistry) (packageObjectId : UInt64) :
    PackageRegistry :=
  { registry with
    exportRecords := registry.exportRecords.filter fun record ↦
      record.packageObjectId ≠ packageObjectId }

def tombstone (registry : PackageRegistry) (packageObjectId : UInt64) :
    Except PackageStatus (PackageRegistryPackageRecord × PackageRegistry) := do
  let (record, records) ← changeStatus registry.packageRecords packageObjectId .packageTombstoned
  let registry := { registry with packageRecords := records }
  .ok (record, (registry.removeRequirementsForPackage packageObjectId).removeExportsForPackage
    packageObjectId)

def reclaimTombstonedPackageContent (registry : PackageRegistry) (packageObjectId : UInt64) :
    Except PackageStatus PackageRegistry :=
  match registry.packageRecordByObjectId packageObjectId with
  | none => .error .notFound
  | some package =>
    if package.status ≠ PackageStatus.packageTombstoned.code then .error .badRequest
    else
      .ok
        { registry with
          contentRecords := registry.contentRecords.filter fun record ↦
            record.packageObjectId ≠ packageObjectId ||
              registry.retainedSchemaDescriptorContent record }

/-! #### Schema references -/

/-- A content record with another number of references. -/
def setRetentionCount (registry : PackageRegistry) (index : ℕ) (count : UInt16) : PackageRegistry :=
  { registry with
    contentRecords := registry.contentRecords.modify index fun record ↦
      { record with retentionCount := count } }

def retainSchemaReference (registry : PackageRegistry) (schemaObjectId schemaRevision : UInt64) :
    Except PackageStatus PackageRegistry :=
  match registry.schemaRecordByIdentity schemaObjectId schemaRevision with
  | none => .error .notFound
  | some schema =>
    match registry.contentIndexForSchemaDescriptor schema with
    | none => .error .notFound
    | some index =>
      match registry.contentRecords[index]? with
      | none => .error .notFound
      | some record =>
        if record.retentionCount.toNat + 1 < 2 ^ 16 then
          .ok (registry.setRetentionCount index (record.retentionCount + 1))
        else .error .quotaDenied

def clearSchemaDescriptorRetentionCounts (registry : PackageRegistry) : PackageRegistry :=
  registry.schemaRecords.foldl (fun registry schema ↦
    match registry.contentIndexForSchemaDescriptor schema with
    | none => registry
    | some index => registry.setRetentionCount index 0) registry

/-! #### Generations -/

def recordCommittedGeneration (registry : PackageRegistry) (generation : PackageRegistryGeneration) :
    PackageRegistry :=
  { registry with
    generation := generation.generation
    rootDigest := generation.rootDigest
    committedRootDigest := generation.rootDigest
    activeTransactionId := 0 }

def beginCandidateGeneration (registry : PackageRegistry) (transactionId : UInt64) :
    Except PackageStatus PackageRegistry :=
  if transactionId = 0 then .error .badRequest
  else if registry.generation.toNat + 1 < 2 ^ 64 then
    .ok { registry with
      generation := registry.generation + 1
      activeTransactionId := transactionId }
  else .error .lengthOverflow

/-! #### Import slots -/

/-- The requirements of one export take different import slots. -/
def SlotsApart (registry : PackageRegistry) : Prop :=
  registry.requirementRecords.Pairwise fun first second ↦
    first.matchesExportForRequirementIdentity second = true →
      first.graphImportSlot ≠ second.graphImportSlot

/-- A change of the registry that keeps the import slots apart, and adds no requirements but those of a set. -/
def Declares (declared : Set PackageRegistryRequirementRecord)
    (change : PackageRegistry → Except PackageStatus PackageRegistry) : Prop :=
  ∀ registry registry', change registry = .ok registry' →
    (registry.SlotsApart → registry'.SlotsApart) ∧
      ∀ requirement ∈ registry'.requirementRecords,
        requirement ∈ registry.requirementRecords ∨ requirement ∈ declared

namespace Declares

variable {declared : Set PackageRegistryRequirementRecord}
  {first second : PackageRegistry → Except PackageStatus PackageRegistry}

theorem of_sublist (h : ∀ registry registry', first registry = .ok registry' →
    registry'.requirementRecords.Sublist registry.requirementRecords) : Declares declared first :=
  fun _ _ hok ↦ ⟨fun hapart ↦ List.Pairwise.sublist (h _ _ hok) hapart, fun _ hmem ↦
    .inl ((h _ _ hok).subset hmem)⟩

theorem of_eq (h : ∀ registry registry', first registry = .ok registry' →
    registry'.requirementRecords = registry.requirementRecords) : Declares declared first :=
  of_sublist fun _ _ hok ↦ h _ _ hok ▸ List.Sublist.refl _

theorem andThen (h : Declares declared first) (h' : Declares declared second) :
    Declares declared (fun registry ↦ first registry >>= second) := by
  intro registry registry' hok
  obtain ⟨middle, hfirst, hsecond⟩ := bind_eq_ok_iff.mp hok
  obtain ⟨hapart, hadded⟩ := h _ _ hfirst
  obtain ⟨hapart', hadded'⟩ := h' _ _ hsecond
  exact ⟨fun h ↦ hapart' (hapart h), fun requirement hmem ↦
    (hadded' requirement hmem).elim (hadded requirement) .inr⟩

theorem foldlM {α : Type} {step : PackageRegistry → α → Except PackageStatus PackageRegistry}
    {items : List α} (h : ∀ item ∈ items, Declares declared (step · item)) :
    Declares declared (fun registry ↦ items.foldlM step registry) := by
  induction items with
  | nil =>
    refine of_eq fun registry registry' hok ↦ ?_
    cases hok
    rfl
  | cons item items ih =>
    simp only [List.foldlM_cons]
    exact (h item List.mem_cons_self).andThen
      (ih fun other hother ↦ h other (List.mem_cons_of_mem _ hother))

end Declares

variable {declared : Set PackageRegistryRequirementRecord}

/-- An insertion is refused if a record with the same identity is there. -/
theorem insertRecord_eq_ok {α : Type} {capacity : ℕ} {same : α → Bool} {records records' : List α} {record : α}
    (h : insertRecord capacity same records record = .ok records') :
    records' = records ++ [record] ∧ ∀ existing ∈ records, same existing = false := by
  unfold insertRecord at h
  split_ifs at h with _ hsame
  cases h
  exact ⟨rfl, by simpa using hsame⟩

theorem declares_insertRequirementRecord {record : PackageRegistryRequirementRecord}
    (h : record ∈ declared) : Declares declared (insertRequirementRecord · record) := by
  intro registry registry' hok
  obtain ⟨records, hinsert, hok⟩ := bind_eq_ok_iff.mp hok
  cases hok
  obtain ⟨rfl, hnew⟩ := insertRecord_eq_ok hinsert
  refine ⟨fun hapart ↦ List.pairwise_append.mpr ⟨hapart, List.pairwise_singleton _ _, ?_⟩, ?_⟩
  · intro existing hexisting other hother hmatches hslot
    obtain rfl := List.mem_singleton.mp hother
    simpa [hmatches, hslot] using hnew existing hexisting
  · intro requirement hmem
    rcases List.mem_append.mp hmem with hold | hnew
    · exact .inl hold
    · exact .inr (List.mem_singleton.mp hnew ▸ h)

/-- A change behind a check of the registry. -/
theorem Declares.checked {α : Type} {check : PackageRegistry → Except PackageStatus α}
    {change : PackageRegistry → Except PackageStatus PackageRegistry} (h : Declares declared change) :
    Declares declared (fun registry ↦ check registry >>= fun _ ↦ change registry) := by
  intro registry registry' hok
  obtain ⟨_, -, hok⟩ := bind_eq_ok_iff.mp hok
  exact h registry registry' hok

/-- A change of other records. -/
theorem Declares.records {α : Type} {insert : PackageRegistry → Except PackageStatus α}
    {put : PackageRegistry → α → PackageRegistry}
    (h : ∀ registry records, (put registry records).requirementRecords = registry.requirementRecords) :
    Declares declared (fun registry ↦ insert registry >>= fun records ↦ .ok (put registry records)) := by
  refine .of_eq fun registry registry' hok ↦ ?_
  obtain ⟨records, -, hok⟩ := bind_eq_ok_iff.mp hok
  cases hok
  exact h registry records

theorem declares_insertExportRecord (record : PackageRegistryExportRecord) :
    Declares declared (insertExportRecord · record) :=
  .records fun _ _ ↦ rfl

theorem declares_addExportRecord (record : PackageRegistryExportRecord) :
    Declares declared (addExportRecord · record) :=
  (declares_insertExportRecord record).checked

theorem declares_addRequirementRecord {record : PackageRegistryRequirementRecord} (h : record ∈ declared) :
    Declares declared (addRequirementRecord · record) :=
  (declares_insertRequirementRecord h).checked

theorem declares_addPackageRecord (record : PackageRegistryPackageRecord) :
    Declares declared (addPackageRecord · record) :=
  .records fun _ _ ↦ rfl

theorem declares_addSchemaRecord (record : PackageRegistrySchemaRecord) :
    Declares declared (addSchemaRecord · record) :=
  .records fun _ _ ↦ rfl

theorem declares_addContentRecord (record : PackageRegistryContentRecord) :
    Declares declared (addContentRecord · record) :=
  .checked (.records fun _ _ ↦ rfl)

theorem declares_beginCandidateGeneration (transactionId : UInt64) :
    Declares declared (beginCandidateGeneration · transactionId) := by
  refine .of_eq fun registry registry' hok ↦ ?_
  unfold beginCandidateGeneration at hok
  split_ifs at hok
  cases hok
  rfl

theorem declares_decodeExportStep (record : PackageRegistryExportRecord) :
    Declares declared (decodeExportStep · record) := by
  have hadd : Declares declared (addExportRecordFromSnapshot · record) :=
    (declares_insertExportRecord record).checked
  intro registry registry' hok
  change decodeExportStep registry record = _ at hok
  unfold decodeExportStep at hok
  split_ifs at hok
  exact hadd registry registry' hok

/-- A decoded registry keeps the import slots apart, and has no requirements but those of the snapshot. -/
theorem decodeRecords_eq_ok {snapshot registry : PackageRegistry} (h : snapshot.decodeRecords = .ok registry) :
    registry.SlotsApart ∧
      ∀ requirement ∈ registry.requirementRecords, requirement ∈ snapshot.requirementRecords := by
  have hdecode : Declares {requirement | requirement ∈ snapshot.requirementRecords} snapshot.addRecords := by
    refine .andThen (.foldlM fun record _ ↦ declares_addPackageRecord record) ?_
    refine .andThen (.foldlM fun record _ ↦ declares_addSchemaRecord record) ?_
    refine .andThen (.foldlM fun record _ ↦ declares_addContentRecord record) ?_
    refine .andThen (.foldlM fun record _ ↦ ?_) (.foldlM fun record hrecord ↦ ?_)
    · exact declares_decodeExportStep record
    · exact (declares_insertRequirementRecord hrecord).checked
  obtain ⟨hapart, hadded⟩ := hdecode _ _ h
  refine ⟨hapart List.Pairwise.nil, fun requirement hmem ↦ ?_⟩
  exact (hadded requirement hmem).resolve_left (List.not_mem_nil)

theorem declares_decodeRecords (snapshot : PackageRegistry) :
    Declares {requirement | requirement ∈ snapshot.requirementRecords} fun _ ↦ snapshot.decodeRecords :=
  fun _ _ hok ↦ ⟨fun _ ↦ (decodeRecords_eq_ok hok).1, fun requirement hmem ↦
    .inr ((decodeRecords_eq_ok hok).2 requirement hmem)⟩

theorem declares_disable (packageObjectId : UInt64) :
    Declares declared (fun registry ↦ do
      let (_, registry) ← registry.disable packageObjectId
      .ok registry) := by
  refine .of_eq fun registry registry' hok ↦ ?_
  obtain ⟨⟨record, changed⟩, hdisable, hok⟩ := bind_eq_ok_iff.mp hok
  obtain ⟨_, -, hdisable⟩ := bind_eq_ok_iff.mp hdisable
  cases hdisable
  cases hok
  rfl

/-- The requirements of the package are removed. -/
theorem declares_tombstone (packageObjectId : UInt64) :
    Declares declared (fun registry ↦ do
      let (_, registry) ← registry.tombstone packageObjectId
      registry.reclaimTombstonedPackageContent packageObjectId) := by
  refine .of_sublist fun registry registry' hok ↦ ?_
  obtain ⟨⟨record, changed⟩, htombstone, hok⟩ := bind_eq_ok_iff.mp hok
  obtain ⟨_, -, htombstone⟩ := bind_eq_ok_iff.mp htombstone
  cases htombstone
  simp only [reclaimTombstonedPackageContent] at hok
  split at hok
  · cases hok
  · split_ifs at hok
    cases hok
    exact List.filter_sublist

theorem requirementRecords_clearSchemaDescriptorRetentionCounts (registry : PackageRegistry) :
    registry.clearSchemaDescriptorRetentionCounts.requirementRecords = registry.requirementRecords := by
  unfold clearSchemaDescriptorRetentionCounts
  generalize registry.schemaRecords = schemas
  induction schemas generalizing registry with
  | nil => rfl
  | cons schema schemas ih =>
    rw [List.foldl_cons, ih]
    split <;> rfl

theorem declares_retainSchemaReference (schemaObjectId schemaRevision : UInt64) :
    Declares declared (retainSchemaReference · schemaObjectId schemaRevision) := by
  refine .of_eq fun registry registry' hok ↦ ?_
  unfold retainSchemaReference at hok
  split at hok
  · cases hok
  split at hok
  · cases hok
  split at hok
  · cases hok
  split_ifs at hok
  cases hok
  rfl

end PackageRegistry

end Pythos.Core
