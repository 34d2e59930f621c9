import Pythos.Core.ObjectServiceRestore

/-!
# Consistency of the committed object state

A run of the service boots it afresh or from the snapshot of an earlier run, and then calls its
operations in any order, with any callers and arguments, whether the calls succeed or fail. In every
state of such a run the store, the relationships and the revision history describe the same objects.
-/

namespace Pythos.Core

open Foundation Shared

namespace ObjectService

/-! ### Runs -/

/-- A call of a mutating operation of the service. -/
inductive Operation
  | createObject (caller : ActiveUserProcess) (workspace : PackedCapability) (kind : ObjectKind)
  | createTaskServiceObject (caller : ActiveUserProcess) (object : TypedObjectRecord)
  | createPackageObject (caller : ActiveUserProcess) (objectId : ObjectId)
  | createSchemaDefinitionObject (caller : ActiveUserProcess) (objectId : ObjectId)
  | createPackageDefinedObject (caller : ActiveUserProcess) (authority : PackedCapability)
      (input : PackageDefinedCreateInput)
  | reviseField (caller : ActiveUserProcess) (objectCapability : PackedCapability)
      (objectId : ObjectId) (fieldId : UInt16) (value : Bytes)
  | reviseTaskServiceObject (caller : ActiveUserProcess) (object : TypedObjectRecord)
  | queryObjects (caller : ActiveUserProcess) (workspace : PackedCapability) (kind : ObjectKind)
  | grantWorkspaceCapability (caller : ActiveUserProcess)

/-- The state that a call leaves, whether it returns or fails. -/
def Operation.perform (service : ObjectService) : Operation → ObjectService
  | .createObject caller workspace kind => (ObjectService.createObject caller workspace kind service).2
  | .createTaskServiceObject caller object =>
    (ObjectService.createTaskServiceObject caller object service).2
  | .createPackageObject caller objectId =>
    (ObjectService.createPackageObject caller objectId service).2
  | .createSchemaDefinitionObject caller objectId =>
    (ObjectService.createSchemaDefinitionObject caller objectId service).2
  | .createPackageDefinedObject caller authority input =>
    (ObjectService.createPackageDefinedObject caller authority input service).2
  | .reviseField caller objectCapability objectId fieldId value =>
    (ObjectService.reviseField caller objectCapability objectId fieldId value service).2
  | .reviseTaskServiceObject caller object =>
    (ObjectService.reviseTaskServiceObject caller object service).2
  | .queryObjects caller workspace kind => (ObjectService.queryObjects caller workspace kind service).2
  | .grantWorkspaceCapability caller => (ObjectService.grantWorkspaceCapability caller service).2

/-- The states of the runs. A snapshot may be stored under another generation than the service had. -/
inductive Reachable : ObjectService → Prop
  | seeded {service : ObjectService} (h : newSeeded = .ok service) : Reachable service
  | restored {service restored : ObjectService} (generation : UInt64) (h : Reachable service)
      (hrestored : fromSnapshot { service.encodeSnapshot with generation } = .ok restored) :
      Reachable restored
  | performed {service : ObjectService} (operation : Operation) (h : Reachable service) :
      Reachable (operation.perform service)

/-! ### Steps -/

/-- The creation of a package-defined object, with the schema that it refers to. -/
structure PackageDefinedCreation where
  objectId : ObjectId
  schemaObjectId : ObjectId
  schemaRevision : UInt64
  deriving DecidableEq

/-- The package-defined object that a call creates, if it succeeds. -/
def Operation.created (service : ObjectService) : Operation → List PackageDefinedCreation
  | .createPackageDefinedObject caller authority input =>
    match (ObjectService.createPackageDefinedObject caller authority input service).1 with
    | .ok result => [⟨result.objectId, input.schemaObjectId, input.schemaRevision⟩]
    | .error _ => []
  | _ => []

/-- What a call does to the stored records: nothing, or it adds a record with a new identity, or it
replaces a record by a revision of it. -/
inductive RecordChange (service : ObjectService) (records : List TypedObjectRecord) :
    Operation → List TypedObjectRecord → Prop
  | kept {operation : Operation} (h : operation.created service = []) :
      RecordChange service records operation records
  | note {caller : ActiveUserProcess} {workspace : PackedCapability} {kind : ObjectKind}
      {objectId : ObjectId} (hnew : objectId ∉ idsOf records) :
      RecordChange service records (.createObject caller workspace kind)
        (.new objectId .note 1 :: records)
  | task {caller : ActiveUserProcess} {object : TypedObjectRecord}
      (hkind : isTaskServiceKind object.objectKind = true)
      (hnew : object.objectId ∉ idsOf records) :
      RecordChange service records (.createTaskServiceObject caller object) (object :: records)
  | package {caller : ActiveUserProcess} {objectId : ObjectId} (hnew : objectId ∉ idsOf records) :
      RecordChange service records (.createPackageObject caller objectId)
        (.new objectId .package 1 :: records)
  | schemaDefinition {caller : ActiveUserProcess} {objectId : ObjectId}
      (hnew : objectId ∉ idsOf records) :
      RecordChange service records (.createSchemaDefinitionObject caller objectId)
        (.new objectId .schemaDefinition 1 :: records)
  | packageDefined {caller : ActiveUserProcess} {authority : PackedCapability}
      {input : PackageDefinedCreateInput} {objectId : ObjectId} {object : TypedObjectRecord}
      (hcreated : Operation.created service (.createPackageDefinedObject caller authority input) =
        [⟨objectId, input.schemaObjectId, input.schemaRevision⟩])
      (hobject : packageDefinedRecord objectId input = .ok object)
      (hnew : object.objectId ∉ idsOf records) :
      RecordChange service records (.createPackageDefinedObject caller authority input)
        (object :: records)
  | revised {caller : ActiveUserProcess} {objectCapability : PackedCapability} {objectId : ObjectId}
      {fieldId : UInt16} {value : Bytes} {current : RevisionRecord}
      {object : TypedObjectRecord} {rest : List TypedObjectRecord}
      (hvalid : service.validateObject caller objectCapability objectId .write = .ok ())
      (hcurrent : service.currentRecord objectId = .ok current)
      (hrevised : revisedRecord objectId current fieldId value = .ok object)
      (hperm : records.Perm (current.object :: rest)) :
      RecordChange service records (.reviseField caller objectCapability objectId fieldId value)
        (object :: rest)
  | revisedTask {caller : ActiveUserProcess} {object : TypedObjectRecord}
      {current : RevisionRecord} {rest : List TypedObjectRecord}
      (hkind : isTaskServiceKind object.objectKind = true)
      (hcurrent : service.currentRecord object.objectId = .ok current)
      (hsame : current.object.objectKind = object.objectKind)
      (hperm : records.Perm (current.object :: rest)) :
      RecordChange service records (.reviseTaskServiceObject caller object) (object :: rest)

section Step

variable {service : ObjectService} {records : List TypedObjectRecord}

theorem Holds.createInternalObject (h : Holds records service) (caller : ActiveUserProcess)
    (object : TypedObjectRecord) :
    let final := (ObjectService.createInternalObject caller object service).2
    Holds records final ∨ object.objectId ∉ idsOf records ∧ Holds (object :: records) final := by
  rcases (ensures_createInternalObject h caller object).cases with ⟨_, -, -, hadded⟩ | ⟨_, -, hsame⟩
  · exact Or.inr hadded
  · rw [hsame]
    exact Or.inl h

/-- Every call changes the records in one of these ways, and the tables agree on the changed ones. -/
theorem Holds.perform (h : Holds records service) (operation : Operation) :
    ∃ records', RecordChange service records operation records' ∧
      Holds records' (operation.perform service) := by
  cases operation with
  | createObject caller workspace kind =>
    rcases (ensures_createObject h caller workspace kind).cases with
      ⟨_, -, hnew, h'⟩ | ⟨_, -, h' | ⟨objectId, hnew, h'⟩⟩
    · exact ⟨_, .note hnew, h'⟩
    · exact ⟨_, .kept rfl, h'⟩
    · exact ⟨_, .note hnew, h'⟩
  | createTaskServiceObject caller object =>
    rcases (ensures_createTaskServiceObject h caller object).cases with
      ⟨_, -, hkind, hnew, h'⟩ | ⟨_, -, h'⟩
    · exact ⟨_, .task hkind hnew, h'⟩
    · exact ⟨_, .kept rfl, h'⟩
  | createPackageObject caller objectId =>
    rcases h.createInternalObject caller (.new objectId .package 1) with h' | ⟨hnew, h'⟩
    · exact ⟨_, .kept rfl, h'⟩
    · exact ⟨_, .package hnew, h'⟩
  | createSchemaDefinitionObject caller objectId =>
    rcases h.createInternalObject caller (.new objectId .schemaDefinition 1) with h' | ⟨hnew, h'⟩
    · exact ⟨_, .kept rfl, h'⟩
    · exact ⟨_, .schemaDefinition hnew, h'⟩
  | createPackageDefinedObject caller authority input =>
    rcases (ensures_createPackageDefinedObject h caller authority input).cases with
      ⟨result, hresult, object, hobject, hnew, h'⟩ | ⟨error, herror, hsame⟩
    · have hcreated : Operation.created service (.createPackageDefinedObject caller authority input) =
          [⟨result.objectId, input.schemaObjectId, input.schemaRevision⟩] := by
        rw [Operation.created, hresult]
      rw [← packageDefinedRecord_objectId hobject] at hnew
      exact ⟨_, .packageDefined hcreated hobject hnew, h'⟩
    · refine ⟨_, .kept ?_, ?_⟩
      · rw [Operation.created, herror]
      · rw [Operation.perform, hsame]
        exact h
  | reviseField caller objectCapability objectId fieldId value =>
    rcases (ensures_reviseField h caller objectCapability objectId fieldId value).cases with
      ⟨_, -, hvalid, current, revised, rest, hcurrent, hrevised, hperm, h'⟩ | ⟨_, -, hsame⟩
    · exact ⟨_, .revised hvalid hcurrent hrevised hperm, h'⟩
    · refine ⟨_, .kept rfl, ?_⟩
      rw [Operation.perform, hsame]
      exact h
  | reviseTaskServiceObject caller object =>
    rcases (ensures_reviseTaskServiceObject h caller object).cases with
      ⟨_, -, hkind, current, rest, hcurrent, hsame, hperm, h'⟩ | ⟨_, -, hsame⟩
    · exact ⟨_, .revisedTask hkind hcurrent hsame hperm, h'⟩
    · refine ⟨_, .kept rfl, ?_⟩
      rw [Operation.perform, hsame]
      exact h
  | queryObjects caller workspace kind =>
    exact ⟨_, .kept rfl,
      (preserves_queryObjects Holds.onCapabilities caller workspace kind service h).final⟩
  | grantWorkspaceCapability caller =>
    exact ⟨_, .kept rfl, (preserves_grantWorkspaceCapability Holds.onQuotas Holds.onCapabilities
      caller service h).final⟩

/-- No call takes an identity away. -/
theorem RecordChange.ids_subset (h : Holds records service) {operation : Operation}
    {records' : List TypedObjectRecord} (hchange : RecordChange service records operation records') :
    idsOf records ⊆ idsOf records' := by
  have hreplaced {current object : TypedObjectRecord} {rest : List TypedObjectRecord}
      (hperm : records.Perm (current :: rest)) (hid : current.objectId = object.objectId) :
      idsOf records ⊆ idsOf (object :: rest) := by
    have hids := hperm.map TypedObjectRecord.objectId
    rw [List.map_cons, hid] at hids
    exact hids.subset
  cases hchange with
  | kept => exact List.Subset.refl _
  | revised hvalid hcurrent hrevised hperm =>
    exact hreplaced hperm ((h.mem_of_currentRecord hcurrent).2.trans
      (pushNewField_objectId hrevised).symm)
  | revisedTask hkind hcurrent hsame hperm =>
    exact hreplaced hperm (h.mem_of_currentRecord hcurrent).2
  | _ => exact List.subset_cons_self _ _

end Step

theorem Operation.agrees_perform {service : ObjectService} (h : service.Agrees)
    (operation : Operation) : (operation.perform service).Agrees := by
  obtain ⟨records, hholds, hexternal⟩ := h
  obtain ⟨records', hchange, hholds'⟩ := Holds.perform hholds operation
  exact ⟨records', hholds', hchange.ids_subset hholds hexternal⟩

theorem Reachable.agrees {service : ObjectService} (h : Reachable service) : service.Agrees := by
  induction h with
  | seeded hseeded => exact newSeeded_agrees hseeded
  | restored generation _ hrestored ih =>
    obtain ⟨restored', hfrom, hagrees, -⟩ := fromSnapshot_encodeSnapshot ih generation
    rw [hfrom] at hrestored
    exact Except.ok.inj hrestored ▸ hagrees
  | performed operation _ ih => exact operation.agrees_perform ih

/-! ### Consistency -/

/-- The prior revisions of an object, in the order of their slots. -/
def priorRevisions (service : ObjectService) (objectId : ObjectId) : List RevisionRecord :=
  service.revisions.revisions.live.filter fun prior ↦ prior.objectId = objectId

/-- The current revisions of an object. -/
def currentRevisions (service : ObjectService) (objectId : ObjectId) : List CurrentObject :=
  service.revisions.current.live.filter fun current ↦ current.objectId = objectId

/-- The relationships that place an object in a workspace. -/
def workspacesOf (service : ObjectService) (objectId : ObjectId) : List ObjectRelationship :=
  service.relationships.relationships.live.filter fun relationship ↦
    relationship.source = objectId ∧ relationship.kind = .belongsTo

/-- The tables of the service describe the same objects. -/
structure Consistent (service : ObjectService) : Prop where
  distinct_ids : service.objects.ids.Nodup
  disjoint_extents : service.objects.objects.live.Pairwise fun first second ↦
    Disjoint first.extent.blocks second.extent.blocks
  /-- The blocks of the live extents are those of the allocator's bitmap, which is committed. -/
  bitmap_eq : ∀ block, block ∈ members service.objects.allocator.bitmap ↔
    ∃ record ∈ service.objects.objects.live, block ∈ record.extent.blocks
  bitmap_committed : service.objects.allocatorBitmap = service.objects.allocator.bitmap
  /-- A stored object has one current revision, with the stored record. -/
  current_eq : ∀ record ∈ service.objects.objects.live, ∃ current,
    service.currentRevisions record.object.objectId = [current] ∧ current.object = record.object
  /-- The prior revisions of a stored object are those from one up to the current one, once each. -/
  priors_numbered : ∀ record ∈ service.objects.objects.live,
    ∀ current ∈ service.currentRevisions record.object.objectId,
      ((service.priorRevisions record.object.objectId).map fun prior ↦ prior.revision.toNat).Perm
        (List.range' 1 (current.revision.toNat - 1))
  /-- Timestamps increase from revision to revision, up to the current one. -/
  priors_ordered : ∀ record ∈ service.objects.objects.live,
    ∀ first ∈ service.priorRevisions record.object.objectId,
      (∀ second ∈ service.priorRevisions record.object.objectId,
        first.revision < second.revision → first.timestampTicks < second.timestampTicks) ∧
      ∀ current ∈ service.currentRevisions record.object.objectId,
        first.timestampTicks < current.timestampTicks
  known_objects : service.relationships.ids.Perm (workspaceRoots ++ service.objects.ids)
  /-- An object belongs to at most one workspace, which is a workspace root. -/
  one_workspace : ∀ objectId, (service.workspacesOf objectId).length ≤ 1 ∧
    ∀ relationship ∈ service.workspacesOf objectId, relationship.target ∈ workspaceRoots

variable {service : ObjectService}

/-- A list with distinct values of `f` has one element for each value that it has. -/
theorem filter_eq_singleton {α β : Type} [DecidableEq β] {f : α → β} {items : List α}
    (hnodup : (items.map f).Nodup) {item : α} (hitem : item ∈ items) :
    items.filter (fun other ↦ f other = f item) = [item] := by
  rw [← List.perm_singleton,
    List.perm_ext_iff_of_nodup (hnodup.of_map.filter _) (List.nodup_singleton item)]
  intro other
  rw [List.mem_filter, List.mem_singleton, decide_eq_true_eq]
  constructor
  · rintro ⟨hother, heq⟩
    exact List.inj_on_of_nodup_map hnodup hother hitem heq
  · rintro rfl
    exact ⟨hitem, rfl⟩

theorem consistent_of_agrees (h : service.Agrees) : service.Consistent := by
  obtain ⟨records, htables, -⟩ := h
  have hhistory : Gapless service.revisions.current.live service.revisions.revisions.live :=
    htables.history
  have hcurrent : ∀ record ∈ service.objects.objects.live, ∃ current,
      service.currentRevisions record.object.objectId = [current] ∧
        current.object = record.object := by
    intro record hrecord
    have hmem : record.object ∈ service.revisions.current.live.map CurrentObject.object := by
      rw [htables.recorded_perm.mem_iff, ← htables.stored_perm.mem_iff]
      exact List.mem_map_of_mem hrecord
    obtain ⟨current, hcurrent, heq⟩ := List.mem_map.mp hmem
    refine ⟨current, ?_, heq⟩
    have hsingle := filter_eq_singleton hhistory.distinct hcurrent
    rwa [show current.objectId = record.object.objectId from congrArg _ heq] at hsingle
  refine ⟨htables.store.distinct, htables.store.disjoint, htables.store.taken,
    htables.store.wellFormed.committed_eq, hcurrent, ?_, ?_, ?_, ?_⟩
  · intro record _ current hmem
    obtain ⟨hlive, hid⟩ := List.mem_filter.mp hmem
    rw [← of_decide_eq_true hid]
    exact hhistory.numbered current hlive
  · intro record _ first hfirst
    obtain ⟨hfirst, hid⟩ := List.mem_filter.mp hfirst
    constructor
    · intro second hsecond hlt
      obtain ⟨hsecond, hid'⟩ := List.mem_filter.mp hsecond
      exact hhistory.ordered first hfirst second hsecond
        ((of_decide_eq_true hid).trans (of_decide_eq_true hid').symm) hlt
    · intro current hmem
      obtain ⟨hlive, hid'⟩ := List.mem_filter.mp hmem
      exact hhistory.before current hlive first hfirst
        ((of_decide_eq_true hid).trans (of_decide_eq_true hid').symm)
  · exact htables.known_perm.trans (htables.objects_ids.symm.append_left _)
  · intro objectId
    refine ⟨?_, fun relationship hmem ↦ (htables.placed_mem relationship
      (List.mem_filter.mp hmem).1).2.2⟩
    -- distinct relationships have distinct sources
    have hnodup : ((service.workspacesOf objectId).map ObjectRelationship.source).Nodup :=
      htables.sources.sublist (List.filter_sublist.map _)
    have hsubset : (service.workspacesOf objectId).map ObjectRelationship.source ⊆ [objectId] := by
      intro source hsource
      obtain ⟨relationship, hmem, rfl⟩ := List.mem_map.mp hsource
      exact List.mem_singleton.mpr (of_decide_eq_true (List.mem_filter.mp hmem).2).1
    simpa using (hnodup.subperm hsubset).length_le

/-- The committed object state is consistent in every state of every run. -/
theorem Reachable.consistent (h : Reachable service) : service.Consistent :=
  consistent_of_agrees h.agrees

/-- The service after a first boot. -/
def seededService : ObjectService :=
  newSeeded.toOption.getD (unseeded ⟨⟨objectServiceBaseSector, objectServiceBlockCount, 0, 0⟩,
    Table.empty⟩)

theorem newSeeded_eq : newSeeded = .ok seededService := by decide +kernel

/-- The shell as the service knows it, with the capability of its workspace. -/
def shellProcess : ActiveUserProcess := ⟨⟨1⟩, shellPrincipalId, shellProgramDigest⟩

/-- The shell creates a note, and revises it through the capability that it got. -/
def revisedNote : ObjectService :=
  (Operation.reviseField shellProcess (.fromParts 1 1) ⟨firstShellNoteId⟩ fieldText secretText).perform
    ((Operation.createObject shellProcess (.fromParts 0 1) .note).perform seededService)

theorem revisedNote_consistent :
    revisedNote.objects.ids = [externalNote, ⟨firstShellNoteId⟩] ∧
      (revisedNote.priorRevisions ⟨firstShellNoteId⟩).map RevisionRecord.revision = [1] ∧
        revisedNote.Consistent :=
  ⟨by decide +kernel, by decide +kernel,
    Reachable.consistent (.performed _ (.performed _ (.seeded newSeeded_eq)))⟩

end ObjectService

end Pythos.Core
