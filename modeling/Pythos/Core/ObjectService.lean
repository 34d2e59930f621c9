import Pythos.Core.DynamicObjectStore
import Pythos.Core.ObjectRelationships
import Pythos.Core.RevisionHistory

/-!
# The object service

The service keeps the objects of the workspaces in three tables: the store of the records, the
relationships that place a record in a workspace, and the revision history. Each operation is a program
over the whole service that updates the tables one after the other. Some operations undo their own steps
by hand when a later one fails, and others work on a copy of the service (`staged`).

A process is known to the service by its identity, principal and program digest; the map of its memory
belongs to the system call layer and is not part of the service.
-/

namespace Pythos.Core

open Foundation Shared Stateful

/-! ### Constants -/

def objectServiceBaseSector : UInt64 := 96
def objectServiceBlockCount : UInt16 := 24
def taskServiceStorageId : ServiceId := ⟨0x5059545353545201⟩
def firstShellNoteId : UInt64 := 1042
def knownExternalNoteId : UInt64 := 2001
def shellTaskId : UInt64 := 180
def intruderTaskId : UInt64 := 181
def shellProgramDigest : UInt64 := 0x00510052
def intruderProgramDigest : UInt64 := 0xBAD00052
def shellPrincipalId : UInt64 := 0x50595348454C4C01
def intruderPrincipalId : UInt64 := 0x5059494E54524401
def shellWorkspaceObjectId : ObjectId := ⟨0x5059575348454C01⟩
def externalWorkspaceObjectId : ObjectId := ⟨0x5059575345585401⟩

def workspaceRights : RightsMask := .readWrite
def objectRights : RightsMask := .readWrite

def objectServiceRelationshipObjects : ℕ := maxDynamicObjects + 2
def objectServiceRelationships : ℕ := maxDynamicObjects
def objectServiceCurrentObjects : ℕ := maxDynamicObjects
def maxRevisions : ℕ := maxQueryResults

abbrev ObjectServiceRelationshipStore :=
  BoundedRelationshipStore objectServiceRelationshipObjects objectServiceRelationships

abbrev ObjectServiceRevisionHistory :=
  BoundedRevisionHistory objectServiceCurrentObjects maxRevisions

/-! ### State -/

inductive ObjectServiceError
  | denied
  | notFound
  | unsupportedKind
  | objectFormat (error : ObjectFormatError)
  | dynamicObject (error : DynamicObjectError)
  | relationship (error : RelationshipError)
  | revision (error : RevisionHistoryError)
  | capability (error : CapabilityError)
  | quota (error : StorageQuotaError)
  | identity (error : ServiceIdentityError)
  | badSnapshot
  deriving DecidableEq, Repr

structure ActiveUserProcess where
  serviceId : ServiceId
  principalId : UInt64
  programDigest : UInt64
  deriving DecidableEq, Repr

structure ObjectCreateResult where
  objectId : ObjectId
  revision : UInt64
  objectCapability : PackedCapability
  deriving DecidableEq, Repr

structure PackageDefinedCreateInput where
  schemaObjectId : ObjectId
  schemaRevision : UInt64
  stateFormat : UInt16
  initialState : Bytes

structure ObjectInspection where
  object : TypedObjectRecord
  revision : UInt64
  deriving DecidableEq

structure ObjectService where
  objects : DynamicObjectStore
  relationships : ObjectServiceRelationshipStore
  revisions : ObjectServiceRevisionHistory
  capabilities : CapabilityTable
  quotas : StorageQuotaTable
  shellWorkspace : ResourceId
  externalWorkspace : ResourceId
  shellCaller : ActiveUserProcess
  intruderCaller : ActiveUserProcess
  shellWorkspaceCapability : PackedCapability
  nextShellNoteId : UInt64
  generation : UInt64
  nextTimestampTicks : UInt64
  deriving DecidableEq

structure ObjectExtentRecord where
  extentStart : UInt64
  extentLen : UInt16
  object : TypedObjectRecord
  deriving DecidableEq

structure WorkspaceRelationshipRecord where
  objectId : ObjectId
  workspaceId : ObjectId
  deriving DecidableEq, Repr

structure ObjectServiceSnapshot where
  generation : UInt64
  allocatedBitmap : BitVec 64
  objects : Table ObjectExtentRecord maxDynamicObjects
  workspaceRelationships : Table WorkspaceRelationshipRecord maxDynamicObjects
  currentRevisions : Table RevisionRecord maxDynamicObjects
  priorRevisions : Table RevisionRecord maxRevisions
  deriving DecidableEq

def packCapability (handle : CapabilityHandle) : PackedCapability :=
  .fromParts handle.slot handle.generation

def unpackCapability (capability : PackedCapability) : CapabilityHandle where
  slot := capability.slot
  generation := capability.generation

def isTaskServiceKind : ObjectKind → Bool
  | .task => true
  | .taskProposal => true
  | .taskEvent => true
  | .taskRelation => true
  | .relevanceAssertion => true
  | .capabilityRequest => true
  | _ => false

/-- `package_schema_ref_value`. -/
def packageSchemaRefValue (schemaObjectId : ObjectId) (schemaRevision : UInt64) : Bytes :=
  leBytes 8 schemaObjectId.raw.toNat ++ leBytes 8 schemaRevision.toNat

namespace ObjectService

variable {α : Type}

/-- A program over the service. -/
abbrev Program (α : Type) := Stateful ObjectServiceError ObjectService α

/-! ### The tables of the service -/

def onObjects (step : Stateful DynamicObjectError DynamicObjectStore α) : Program α :=
  within objects (fun objects service ↦ { service with objects }) .dynamicObject step

def onRelationships (step : Stateful RelationshipError ObjectServiceRelationshipStore α) :
    Program α :=
  within relationships (fun relationships service ↦ { service with relationships })
    .relationship step

def onRevisions (step : Stateful RevisionHistoryError ObjectServiceRevisionHistory α) : Program α :=
  within revisions (fun revisions service ↦ { service with revisions }) .revision step

def onCapabilities (step : Stateful CapabilityError CapabilityTable α) : Program α :=
  within capabilities (fun capabilities service ↦ { service with capabilities })
    .capability step

def onQuotas (step : Stateful StorageQuotaError StorageQuotaTable α) : Program α :=
  within quotas (fun quotas service ↦ { service with quotas }) .quota step

/-! ### Authority -/

def validateCapabilityResource (service : ObjectService) (caller : ActiveUserProcess)
    (capability : PackedCapability) (resource : ResourceId) (rights : RightsMask) :
    Except ObjectServiceError Unit :=
  match service.capabilities.validate caller.serviceId (unpackCapability capability) resource rights
  with
  | .ok _ => .ok ()
  | .error _ => .error .denied

def validateWorkspace (service : ObjectService) (caller : ActiveUserProcess)
    (capability : PackedCapability) (rights : RightsMask) : Except ObjectServiceError Unit :=
  service.validateCapabilityResource caller capability service.shellWorkspace rights

def validateObject (service : ObjectService) (caller : ActiveUserProcess)
    (capability : PackedCapability) (objectId : ObjectId) (rights : RightsMask) :
    Except ObjectServiceError Unit :=
  service.validateCapabilityResource caller capability ⟨objectId.raw⟩ rights

def grantObjectCapability (caller : ActiveUserProcess) (objectId : ObjectId) :
    Program PackedCapability := do
  let handle ← onCapabilities (CapabilityTable.grant caller.serviceId ⟨objectId.raw⟩ objectRights)
  pure (packCapability handle)

def ensureStorageQuota (serviceId : ServiceId) : Program Unit := do
  let service ← Stateful.read
  match service.quotas.usedBlocks serviceId with
  | .ok _ =>
    onQuotas (StorageQuotaTable.ensureMinimumLimit serviceId (UInt64.ofNat maxDynamicObjects))
  | .error .unknownService =>
    onQuotas (StorageQuotaTable.register serviceId (UInt64.ofNat maxDynamicObjects))
  | .error error => fail (.quota error)

def takeTimestamp : Program UInt64 := do
  let service ← Stateful.read
  Stateful.modify fun service ↦
    { service with nextTimestampTicks := service.nextTimestampTicks + 1 }
  pure service.nextTimestampTicks

/-- `ObjectId::new(self.next_shell_note_id)` and the increment after it. -/
def takeNoteId : Program ObjectId := do
  let service ← Stateful.read
  Stateful.modify fun service ↦ { service with nextShellNoteId := service.nextShellNoteId + 1 }
  pure ⟨service.nextShellNoteId⟩

/-! ### Creation -/

def belongsTo (objectId workspaceId : ObjectId) : ObjectRelationship :=
  ⟨objectId, .belongsTo, workspaceId⟩

/-- The steps that `create_object` and `create_task_service_object` share: the record is stored, made
known and placed in the shell workspace, with the first two steps undone by hand, and it gets its first
revision. The quota of `storageId` has been charged. -/
def storeInShellWorkspace (storageId : ServiceId) (caller : ActiveUserProcess)
    (object : TypedObjectRecord) : Program Unit := do
  Stateful.handle (do let _ ← onObjects (DynamicObjectStore.createObject object)) fun error ↦ do
    attempt (onQuotas (StorageQuotaTable.releaseBlocks storageId 1))
    fail error
  Stateful.handle (onRelationships (BoundedRelationshipStore.insertObject object)) fun error ↦ do
    attempt (onObjects (DynamicObjectStore.deleteObject object.objectId))
    attempt (onQuotas (StorageQuotaTable.releaseBlocks storageId 1))
    fail error
  onRelationships (BoundedRelationshipStore.addRelationship
    (belongsTo object.objectId shellWorkspaceObjectId))
  let timestamp ← takeTimestamp
  onRevisions (BoundedRevisionHistory.createObject object timestamp caller.serviceId)

def createObject (caller : ActiveUserProcess) (workspace : PackedCapability) (kind : ObjectKind) :
    Program ObjectCreateResult :=
  if kind ≠ .note then fail .unsupportedKind
  else do
    let service ← Stateful.read
    ofExcept (service.validateWorkspace caller workspace .write)
    onQuotas (StorageQuotaTable.chargeBlocks caller.serviceId 1)
    let objectId ← takeNoteId
    storeInShellWorkspace caller.serviceId caller (.new objectId kind 1)
    let objectCapability ← grantObjectCapability caller objectId
    pure { objectId, revision := 1, objectCapability }

def createTaskServiceObject (caller : ActiveUserProcess) (object : TypedObjectRecord) :
    Program Unit :=
  if ¬ isTaskServiceKind object.objectKind then fail .unsupportedKind
  else do
    ensureStorageQuota taskServiceStorageId
    onQuotas (StorageQuotaTable.chargeBlocks taskServiceStorageId 1)
    storeInShellWorkspace taskServiceStorageId caller object

def createInternalObject (caller : ActiveUserProcess) (object : TypedObjectRecord) :
    Program ObjectCreateResult :=
  staged do
    ensureStorageQuota caller.serviceId
    onQuotas (StorageQuotaTable.chargeBlocks caller.serviceId 1)
    let _ ← onObjects (DynamicObjectStore.createObject object)
    onRelationships (BoundedRelationshipStore.insertObject object)
    let timestamp ← takeTimestamp
    onRevisions (BoundedRevisionHistory.createObject object timestamp caller.serviceId)
    let objectCapability ← grantObjectCapability caller object.objectId
    pure { objectId := object.objectId, revision := 1, objectCapability }

/-- The digest arguments of the two package operations are not read. -/
def createPackageObject (caller : ActiveUserProcess) (objectId : ObjectId) :
    Program ObjectCreateResult :=
  createInternalObject caller (.new objectId .package 1)

def createSchemaDefinitionObject (caller : ActiveUserProcess) (objectId : ObjectId) :
    Program ObjectCreateResult :=
  createInternalObject caller (.new objectId .schemaDefinition 1)

def schemaDefinitionRevisionExists (service : ObjectService) (objectId : ObjectId)
    (revision : UInt64) : Bool :=
  (match service.revisions.currentRevision objectId with
    | some record => record.revision = revision ∧ record.object.objectKind = .schemaDefinition
    | none => false) ||
  match service.revisions.priorRevision objectId revision with
  | some record => record.object.objectKind = .schemaDefinition
  | none => false

/-- The checks of the state format and the initial state. -/
def checkInitialState (input : PackageDefinedCreateInput) : Except ObjectServiceError Unit :=
  if input.stateFormat = packageDefinedStateFormatEmpty then
    if input.initialState ≠ [] then .error .unsupportedKind else .ok ()
  else if input.stateFormat = packageDefinedStateFormatInlineBytesV0 then
    if input.initialState = [] ∨ input.initialState.length > packageDefinedMaxInitialStateBytes then
      .error (.objectFormat .fieldValueTooLarge)
    else .ok ()
  else .error .unsupportedKind

/-- `object.push_field(TypedObjectField::new(..)?)?`. -/
def pushNewField (object : TypedObjectRecord) (fieldId fieldVersion : UInt16) (value : Bytes) :
    Except ObjectServiceError TypedObjectRecord :=
  match TypedObjectField.new fieldId fieldVersion value with
  | .error error => .error (.objectFormat error)
  | .ok field =>
    match object.pushField field with
    | .error error => .error (.objectFormat error)
    | .ok object => .ok object

/-- The record of a package-defined object. -/
def packageDefinedRecord (objectId : ObjectId) (input : PackageDefinedCreateInput) :
    Except ObjectServiceError TypedObjectRecord := do
  let object ← pushNewField (.new objectId .packageDefinedObject 1) fieldPackageSchemaRefV0 1
    (packageSchemaRefValue input.schemaObjectId input.schemaRevision)
  if input.stateFormat = packageDefinedStateFormatInlineBytesV0 then
    pushNewField object fieldPackageInlineStateV0 1 input.initialState
  else .ok object

def createPackageDefinedObject (caller : ActiveUserProcess) (authority : PackedCapability)
    (input : PackageDefinedCreateInput) : Program ObjectCreateResult := do
  let service ← Stateful.read
  ofExcept (service.validateWorkspace caller authority .write)
  if ¬ service.schemaDefinitionRevisionExists input.schemaObjectId input.schemaRevision then
    fail .notFound
  else
    ofExcept (checkInitialState input)
    staged do
      ensureStorageQuota caller.serviceId
      onQuotas (StorageQuotaTable.chargeBlocks caller.serviceId 1)
      let objectId ← takeNoteId
      let object ← ofExcept (packageDefinedRecord objectId input)
      let _ ← onObjects (DynamicObjectStore.createObject object)
      onRelationships (BoundedRelationshipStore.insertObject object)
      onRelationships (BoundedRelationshipStore.addRelationship
        (belongsTo objectId shellWorkspaceObjectId))
      let timestamp ← takeTimestamp
      onRevisions (BoundedRevisionHistory.createObject object timestamp caller.serviceId)
      let objectCapability ← grantObjectCapability caller objectId
      pure { objectId, revision := 1, objectCapability }

/-! ### Revision -/

/-- The staged update of the store and the history that the two revising operations share. -/
def replaceRecord (caller : ActiveUserProcess) (object : TypedObjectRecord) : Program UInt64 :=
  staged do
    onObjects (DynamicObjectStore.replaceObject object)
    let service ← Stateful.read
    let revision ← onRevisions (BoundedRevisionHistory.updateObject object
      service.nextTimestampTicks caller.serviceId)
    Stateful.modify fun service ↦
      { service with nextTimestampTicks := service.nextTimestampTicks + 1 }
    pure revision

/-- `self.revisions.current_revision(object_id).ok_or(ObjectServiceError::NotFound)`. -/
def currentRecord (service : ObjectService) (objectId : ObjectId) :
    Except ObjectServiceError RevisionRecord :=
  match service.revisions.currentRevision objectId with
  | some record => .ok record
  | none => .error .notFound

def reviseField (caller : ActiveUserProcess) (objectCapability : PackedCapability)
    (objectId : ObjectId) (fieldId : UInt16) (value : Bytes) : Program UInt64 := do
  let service ← Stateful.read
  ofExcept (service.validateObject caller objectCapability objectId .write)
  let current ← ofExcept (service.currentRecord objectId)
  let nextRevision := current.revision + 1
  let revised ← ofExcept (pushNewField
    (.new objectId current.object.objectKind nextRevision.toUInt16) fieldId nextRevision.toUInt16
    value)
  replaceRecord caller revised

def reviseTaskServiceObject (caller : ActiveUserProcess) (object : TypedObjectRecord) :
    Program UInt64 :=
  if ¬ isTaskServiceKind object.objectKind then fail .unsupportedKind
  else do
    let service ← Stateful.read
    let current ← ofExcept (service.currentRecord object.objectId)
    if current.object.objectKind ≠ object.objectKind then fail .unsupportedKind
    else replaceRecord caller object

/-! ### Reading -/

def objectBelongsToWorkspace (service : ObjectService) (objectId workspaceId : ObjectId) : Bool :=
  match service.relationships.queryFirst objectId .belongsTo with
  | some relationship => relationship.target = workspaceId
  | none => false

/-- The entries that `query_objects` returns: the results so far, followed by empty entries. -/
def padResults (results : List ObjectListEntry) : Vector ObjectListEntry maxQueryResults :=
  Vector.ofFn fun index ↦ results[index.val]?.getD ⟨0, ⟨0⟩⟩

/-- The loop of `query_objects` over the remaining slots of the store. -/
def queryLoop (caller : ActiveUserProcess) (kind : ObjectKind) :
    List (Option DynamicObjectRecord) → List ObjectListEntry → Program (List ObjectListEntry)
  | [], results => pure results
  | none :: rest, results =>
    if results.length < maxQueryResults then queryLoop caller kind rest results else pure results
  | some record :: rest, results => do
    if results.length < maxQueryResults then
      let service ← Stateful.read
      if record.object.objectKind = kind ∧
          service.objectBelongsToWorkspace record.object.objectId shellWorkspaceObjectId then
        let capability ← grantObjectCapability caller record.object.objectId
        queryLoop caller kind rest (results ++ [⟨record.object.objectId.raw, capability⟩])
      else queryLoop caller kind rest results
    else pure results

def queryObjects (caller : ActiveUserProcess) (workspace : PackedCapability) (kind : ObjectKind) :
    Program (Vector ObjectListEntry maxQueryResults) := do
  let service ← Stateful.read
  ofExcept (service.validateWorkspace caller workspace .read)
  let results ← queryLoop caller kind service.objects.objects.toList []
  pure (padResults results)

def inspectObject (service : ObjectService) (caller : ActiveUserProcess)
    (objectCapability : PackedCapability) (objectId : ObjectId) :
    Except ObjectServiceError ObjectInspection := do
  service.validateObject caller objectCapability objectId .read
  let current ← service.currentRecord objectId
  .ok { object := current.object, revision := current.revision }

def history (service : ObjectService) (caller : ActiveUserProcess)
    (objectCapability : PackedCapability) (objectId : ObjectId) :
    Except ObjectServiceError UInt64 := do
  service.validateObject caller objectCapability objectId .read
  let current ← service.currentRecord objectId
  .ok current.revision

def grantWorkspaceCapability (caller : ActiveUserProcess) : Program PackedCapability := do
  let service ← Stateful.read
  match service.quotas.usedBlocks caller.serviceId with
  | .ok _ => pure ()
  | .error .unknownService =>
    onQuotas (StorageQuotaTable.register caller.serviceId (UInt64.ofNat maxQueryResults))
  | .error error => fail (.quota error)
  let service ← Stateful.read
  let handle ← onCapabilities
    (CapabilityTable.grant caller.serviceId service.shellWorkspace workspaceRights)
  pure (packCapability handle)

/-! ### Boot -/

def withIdentities : Stateful ServiceIdentityError ServiceIdentityTable (ServiceId × ServiceId) := do
  let shell ← ServiceIdentityTable.registerTask shellTaskId
  let intruder ← ServiceIdentityTable.registerTask intruderTaskId
  pure (shell, intruder)

/-- The identities that a fresh table gives the shell and the intruder. -/
def registeredServices : Except ObjectServiceError (ServiceId × ServiceId) :=
  match (withIdentities ServiceIdentityTable.new).1 with
  | .ok services => .ok services
  | .error error => .error (.identity error)

def initializeRuntimeAuthority : Program Unit := do
  let services ← ofExcept registeredServices
  Stateful.modify fun service ↦
    { service with
      shellCaller := ⟨services.1, shellPrincipalId, shellProgramDigest⟩
      intruderCaller := ⟨services.2, intruderPrincipalId, intruderProgramDigest⟩
      capabilities := CapabilityTable.new
      shellWorkspace := ⟨shellWorkspaceObjectId.raw⟩
      externalWorkspace := ⟨externalWorkspaceObjectId.raw⟩ }
  let service ← Stateful.read
  let handle ← onCapabilities
    (CapabilityTable.grant services.1 service.shellWorkspace workspaceRights)
  Stateful.modify fun service ↦
    { service with
      shellWorkspaceCapability := packCapability handle
      quotas := StorageQuotaTable.new }
  onQuotas (StorageQuotaTable.register services.1 (UInt64.ofNat maxQueryResults))
  onQuotas (StorageQuotaTable.register services.2 1)

/-- The record of a workspace root. -/
def workspaceRoot (workspaceId : ObjectId) : TypedObjectRecord :=
  .new workspaceId .workspaceSession 1

/-- The insertions of `seed_workspace_roots`, which `restore_relationships` repeats. -/
def insertWorkspaceRoots : Stateful RelationshipError ObjectServiceRelationshipStore Unit := do
  BoundedRelationshipStore.insertObject (workspaceRoot shellWorkspaceObjectId)
  BoundedRelationshipStore.insertObject (workspaceRoot externalWorkspaceObjectId)

def seedWorkspaceRoots : Program Unit :=
  onRelationships insertWorkspaceRoots

/-- The text of the seeded external note. -/
def secretText : Bytes := [0x73, 0x65, 0x63, 0x72, 0x65, 0x74]

def seedExternalNote : Program Unit := do
  let external ← ofExcept
    (pushNewField (.new ⟨knownExternalNoteId⟩ .note 1) fieldText 1 secretText)
  let service ← Stateful.read
  onQuotas (StorageQuotaTable.chargeBlocks service.intruderCaller.serviceId 1)
  let _ ← onObjects (DynamicObjectStore.createObject external)
  onRelationships (BoundedRelationshipStore.insertObject external)
  onRelationships (BoundedRelationshipStore.addRelationship
    (belongsTo external.objectId externalWorkspaceObjectId))
  let timestamp ← takeTimestamp
  let service ← Stateful.read
  onRevisions (BoundedRevisionHistory.createObject external timestamp
    service.intruderCaller.serviceId)

/-- The fields of the service before its authority and its seeds are set up. -/
def unseeded (objects : DynamicObjectStore) : ObjectService where
  objects := objects
  relationships := BoundedRelationshipStore.new
  revisions := BoundedRevisionHistory.new
  capabilities := CapabilityTable.new
  quotas := StorageQuotaTable.new
  shellWorkspace := ⟨shellWorkspaceObjectId.raw⟩
  externalWorkspace := ⟨externalWorkspaceObjectId.raw⟩
  shellCaller := ⟨ServiceId.invalid, 0, 0⟩
  intruderCaller := ⟨ServiceId.invalid, 0, 0⟩
  shellWorkspaceCapability := ⟨0⟩
  nextShellNoteId := firstShellNoteId
  generation := 0
  nextTimestampTicks := 1

/-- The three steps of `new_seeded` after the fields are set. -/
def seed : Program Unit := do
  initializeRuntimeAuthority
  seedWorkspaceRoots
  seedExternalNote

def newSeeded : Except ObjectServiceError ObjectService :=
  match DynamicObjectStore.new objectServiceBaseSector objectServiceBlockCount with
  | .error error => .error (.dynamicObject error)
  | .ok objects => build seed (unseeded objects)

/-! ### Snapshots -/

def encodeObject (record : DynamicObjectRecord) : ObjectExtentRecord where
  extentStart := record.extent.startBlock.toUInt64
  extentLen := record.extent.blockCount
  object := record.object

/-- The workspace relationship that `encode_snapshot_into` writes for a stored object. -/
def encodeRelationship (service : ObjectService) (record : DynamicObjectRecord) :
    Option WorkspaceRelationshipRecord :=
  (service.relationships.queryFirst record.object.objectId .belongsTo).map fun relationship ↦
    ⟨relationship.source, relationship.target⟩

def encodeSnapshot (service : ObjectService) : ObjectServiceSnapshot where
  generation := service.generation
  allocatedBitmap := service.objects.allocatorBitmap
  objects := service.objects.objects.map (Option.map encodeObject)
  workspaceRelationships := service.objects.objects.map fun slot ↦
    slot.bind service.encodeRelationship
  currentRevisions := service.revisions.currentRecords
  priorRevisions := service.revisions.revisions

def decodeObject (record : ObjectExtentRecord) : DynamicObjectRecord where
  object := record.object
  extent := ⟨record.extentStart.toUInt16, record.extentLen⟩

def restoreDynamicObjects (snapshot : ObjectServiceSnapshot) :
    Except ObjectServiceError DynamicObjectStore :=
  -- `u16::try_from(record.extent_start)` for every object
  if snapshot.objects.live.all fun record ↦ record.extentStart.toNat < 2 ^ 16 then
    match DynamicObjectStore.restoreFromRecords objectServiceBaseSector objectServiceBlockCount
      snapshot.allocatedBitmap (snapshot.objects.map (Option.map decodeObject)) with
    | .error error => .error (.dynamicObject error)
    | .ok store => .ok store
  else .error .badSnapshot

/-- A step of the relationship store with its errors as errors of the service. -/
def relationshipStep (step : Stateful RelationshipError ObjectServiceRelationshipStore Unit) :
    Stateful ObjectServiceError ObjectServiceRelationshipStore Unit :=
  within id (fun store _ ↦ store) .relationship step

/-- The first loop of `restore_relationships` over the objects of the snapshot. -/
def restoreObjectsLoop :
    List ObjectExtentRecord → Stateful ObjectServiceError ObjectServiceRelationshipStore Unit
  | [] => pure ()
  | record :: rest => do
    relationshipStep (BoundedRelationshipStore.insertObject record.object)
    restoreObjectsLoop rest

/-- The second loop of `restore_relationships` over the relationships of the snapshot. -/
def restoreRelationshipsLoop :
    List WorkspaceRelationshipRecord →
      Stateful ObjectServiceError ObjectServiceRelationshipStore Unit
  | [] => pure ()
  | record :: rest => do
    let store ← Stateful.read
    if ¬ store.containsObject record.objectId ∨ ¬ store.containsObject record.workspaceId then
      fail .badSnapshot
    else
      relationshipStep (BoundedRelationshipStore.addRelationship
        (belongsTo record.objectId record.workspaceId))
      restoreRelationshipsLoop rest

def restoreRelationships (snapshot : ObjectServiceSnapshot) :
    Except ObjectServiceError ObjectServiceRelationshipStore :=
  build (do
    relationshipStep insertWorkspaceRoots
    restoreObjectsLoop snapshot.objects.live
    restoreRelationshipsLoop snapshot.workspaceRelationships.live) BoundedRelationshipStore.new

def restoreRevisions (snapshot : ObjectServiceSnapshot) :
    Except ObjectServiceError ObjectServiceRevisionHistory :=
  match BoundedRevisionHistory.restoreFromRecords snapshot.currentRevisions snapshot.priorRevisions
  with
  | .error error => .error (.revision error)
  | .ok history => .ok history

/-- `next_shell_note_id` of a snapshot: one past the largest stored identity of the note range. -/
def restoredNoteId (snapshot : ObjectServiceSnapshot) : UInt64 :=
  snapshot.objects.live.foldl (fun next record ↦
    if record.object.objectId.raw ≥ firstShellNoteId ∧
        record.object.objectId.raw < knownExternalNoteId ∧ record.object.objectId.raw ≥ next then
      record.object.objectId.raw + 1
    else next) firstShellNoteId

def applySnapshotPreservingRuntimeAuthority (snapshot : ObjectServiceSnapshot) : Program Unit := do
  let objects ← ofExcept (restoreDynamicObjects snapshot)
  Stateful.modify fun service ↦ { service with objects }
  let relationships ← ofExcept (restoreRelationships snapshot)
  Stateful.modify fun service ↦ { service with relationships }
  let revisions ← ofExcept (restoreRevisions snapshot)
  Stateful.modify fun service ↦
    { service with
      revisions
      generation := snapshot.generation
      nextShellNoteId := restoredNoteId snapshot }

def fromSnapshot (snapshot : ObjectServiceSnapshot) : Except ObjectServiceError ObjectService := do
  let service ← newSeeded
  build (applySnapshotPreservingRuntimeAuthority snapshot) service

end ObjectService

end Pythos.Core
