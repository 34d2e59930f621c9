import Pythos.Core.ObjectService

/-!
# The tables of the object service

What the three tables hold, as lists: the stored records, the objects that the relationship store knows
besides the two workspace roots, the objects that may be placed in a workspace, and the records with a
current revision. Between operations the four agree; inside an operation they differ by the object that
is being created. Each step of an operation is described by how it changes one of the lists.
-/

namespace Pythos.Core

open Foundation Shared Stateful

namespace ObjectService

def workspaceRoots : List ObjectId := [shellWorkspaceObjectId, externalWorkspaceObjectId]

/-- The identities of a list of records. -/
def idsOf (records : List TypedObjectRecord) : List ObjectId :=
  records.map TypedObjectRecord.objectId

/-- The tables hold the given records and identities. -/
structure Tables (service : ObjectService) (stored : List TypedObjectRecord)
    (known placed : List ObjectId) (recorded : List TypedObjectRecord) : Prop where
  store : service.objects.WellFormed
  layout : service.objects.allocator.baseSector = objectServiceBaseSector ∧
    service.objects.allocator.blockCount = objectServiceBlockCount
  stored_perm : (service.objects.objects.live.map DynamicObjectRecord.object).Perm stored
  known_nodup : service.relationships.ids.Nodup
  known_perm : service.relationships.ids.Perm (workspaceRoots ++ known)
  sources : (service.relationships.relationships.live.map ObjectRelationship.source).Nodup
  placed_mem : ∀ relationship ∈ service.relationships.relationships.live,
    relationship.source ∈ placed ∧ relationship.kind = .belongsTo ∧
      relationship.target ∈ workspaceRoots
  history : service.revisions.WellFormed
  recorded_perm : (service.revisions.current.live.map CurrentObject.object).Perm recorded

namespace Tables

variable {service : ObjectService} {stored recorded : List TypedObjectRecord}
  {known placed : List ObjectId} {object : TypedObjectRecord}

section

variable (h : Tables service stored known placed recorded)

include h

/-- Nothing else of the service matters. -/
theorem frame {service' : ObjectService} (hobjects : service'.objects = service.objects)
    (hrelationships : service'.relationships = service.relationships)
    (hrevisions : service'.revisions = service.revisions) :
    Tables service' stored known placed recorded := by
  obtain ⟨hstore, hlayout, hstored, hnodup, hknown, hsources, hplaced, hhistory, hrecorded⟩ := h
  rw [← hobjects] at hstore hlayout hstored
  rw [← hrelationships] at hnodup hknown hsources hplaced
  rw [← hrevisions] at hhistory hrecorded
  exact ⟨hstore, hlayout, hstored, hnodup, hknown, hsources, hplaced, hhistory, hrecorded⟩

/-- The order of the lists does not matter. -/
theorem perm {stored' recorded' : List TypedObjectRecord} {known' placed' : List ObjectId}
    (hstored : stored.Perm stored') (hknown : known.Perm known') (hplaced : placed.Perm placed')
    (hrecorded : recorded.Perm recorded') : Tables service stored' known' placed' recorded' :=
  { h with
    stored_perm := h.stored_perm.trans hstored
    known_perm := h.known_perm.trans (hknown.append_left _)
    placed_mem := fun relationship hmem ↦ (h.placed_mem relationship hmem).imp_left hplaced.mem_iff.mp
    recorded_perm := h.recorded_perm.trans hrecorded }

/-- More objects may be placed than are. -/
theorem placeable {placed' : List ObjectId} (hsubset : placed ⊆ placed') :
    Tables service stored known placed' recorded :=
  { h with placed_mem := fun relationship hmem ↦ (h.placed_mem relationship hmem).imp_left (hsubset ·) }

/-! ### Facts about the lists -/

theorem objects_ids : service.objects.ids.Perm (idsOf stored) := by
  have hperm := h.stored_perm.map TypedObjectRecord.objectId
  rwa [List.map_map] at hperm

theorem revisions_ids : service.revisions.ids.Perm (idsOf recorded) := by
  have hperm := h.recorded_perm.map TypedObjectRecord.objectId
  rwa [List.map_map] at hperm

theorem nodup_idsOf : (idsOf stored).Nodup :=
  h.objects_ids.nodup_iff.mp h.store.distinct

theorem length_stored_le : stored.length ≤ maxDynamicObjects := by
  rw [← h.stored_perm.length_eq, List.length_map]
  exact service.objects.objects.length_live_le

end

/-- Two records of one list with one identity are the same record. -/
theorem eq_of_objectId_eq {records : List TypedObjectRecord} (hnodup : (idsOf records).Nodup)
    {first second : TypedObjectRecord} (hfirst : first ∈ records) (hsecond : second ∈ records)
    (h : first.objectId = second.objectId) : first = second :=
  List.inj_on_of_nodup_map hnodup hfirst hsecond h

/-! ### Creation -/

theorem createObject (h : Tables service stored known placed recorded)
    (object : TypedObjectRecord) :
    Ensures (onObjects (DynamicObjectStore.createObject object))
      (fun _ service' ↦ Tables service' (object :: stored) known placed recorded ∧
        object.objectId ∉ idsOf stored)
      (fun _ service' ↦ service' = service) service := by
  rw [onObjects, ensures_within]
  refine (DynamicObjectStore.ensures_createObject h.store object).mono ?_ ?_
  · rintro extent objects ⟨hwell, hlayout, hnew, hlive⟩
    refine ⟨{ h with
      store := hwell
      layout := ⟨hlayout.1.trans h.layout.1, hlayout.2.trans h.layout.2⟩
      stored_perm := (hlive.map DynamicObjectRecord.object).trans (h.stored_perm.cons object) }, ?_⟩
    rwa [h.objects_ids.mem_iff] at hnew
  · rintro error objects rfl
    rfl

theorem deleteObject (h : Tables service (object :: stored) known placed recorded) :
    Ensures (onObjects (DynamicObjectStore.deleteObject object.objectId))
      (fun _ service' ↦ Tables service' stored known placed recorded)
      (fun _ _ ↦ False) service := by
  rw [onObjects, ensures_within]
  refine (DynamicObjectStore.ensures_deleteObject h.store object.objectId).mono ?_ ?_
  · rintro _ objects ⟨hwell, hlayout, record, hid, hlive⟩
    -- the deleted record is the one at the head of the list
    have hperm : (object :: stored).Perm
        (record.object :: objects.objects.live.map DynamicObjectRecord.object) :=
      h.stored_perm.symm.trans (hlive.map DynamicObjectRecord.object)
    have hsame : record.object = object :=
      eq_of_objectId_eq h.nodup_idsOf (hperm.mem_iff.mpr List.mem_cons_self) List.mem_cons_self hid
    rw [hsame] at hperm
    exact { h with
      store := hwell
      layout := ⟨hlayout.1.trans h.layout.1, hlayout.2.trans h.layout.2⟩
      stored_perm := hperm.cons_inv.symm }
  · rintro error objects ⟨rfl, hunknown⟩
    rw [h.objects_ids.mem_iff] at hunknown
    exact hunknown List.mem_cons_self

section

variable (h : Tables service stored known placed recorded)

include h

theorem insertObject (object : TypedObjectRecord) :
    Ensures (onRelationships (BoundedRelationshipStore.insertObject object))
      (fun _ service' ↦ Tables service' stored (object.objectId :: known) placed recorded)
      (fun _ service' ↦ service' = service) service := by
  rw [onRelationships, ensures_within]
  refine (BoundedRelationshipStore.ensures_insertObject service.relationships object).mono ?_ ?_
  · rintro _ relationships ⟨hnew, hlive, hsame⟩
    have hids := hlive.map TypedObjectRecord.objectId
    exact { h with
      known_nodup := hids.nodup_iff.mpr (List.nodup_cons.mpr ⟨hnew, h.known_nodup⟩)
      known_perm := hids.trans ((h.known_perm.cons _).trans List.perm_middle.symm)
      sources := hsame ▸ h.sources
      placed_mem := hsame ▸ h.placed_mem }
  · rintro error relationships ⟨rfl, -⟩
    rfl

/-- A known object without a relationship can be placed in a workspace. -/
theorem addRelationship {objectId : ObjectId} (hknown : objectId ∈ known) (hnew : objectId ∉ placed)
    (hroom : placed.length < maxDynamicObjects) {workspaceId : ObjectId}
    (hroot : workspaceId ∈ workspaceRoots) :
    Ensures (onRelationships (BoundedRelationshipStore.addRelationship
        (belongsTo objectId workspaceId)))
      (fun _ service' ↦ Tables service' stored known (objectId :: placed) recorded)
      (fun _ _ ↦ False) service := by
  have hunrelated : ∀ relationship ∈ service.relationships.relationships.live,
      relationship.source ≠ objectId := fun relationship hmem heq ↦
    hnew (heq ▸ (h.placed_mem relationship hmem).1)
  rw [onRelationships, ensures_within]
  refine (BoundedRelationshipStore.ensures_addRelationship service.relationships
    (belongsTo objectId workspaceId)).mono ?_ ?_
  · rintro _ relationships ⟨hobjects, hlive⟩
    have hids : relationships.ids = service.relationships.ids := by
      rw [BoundedRelationshipStore.ids, hobjects]
      rfl
    refine ⟨h.store, h.layout, h.stored_perm, hids ▸ h.known_nodup, hids ▸ h.known_perm, ?_, ?_,
      h.history, h.recorded_perm⟩
    · rw [(hlive.map ObjectRelationship.source).nodup_iff, List.map_cons, List.nodup_cons]
      refine ⟨fun hmem ↦ ?_, h.sources⟩
      obtain ⟨relationship, hrelationship, heq⟩ := List.mem_map.mp hmem
      exact hunrelated relationship hrelationship heq
    · intro relationship hmem
      rcases List.mem_cons.mp (hlive.mem_iff.mp hmem) with rfl | hold
      · exact ⟨List.mem_cons_self, rfl, hroot⟩
      · obtain ⟨hplaced, hrest⟩ := h.placed_mem relationship hold
        exact ⟨List.mem_cons_of_mem _ hplaced, hrest⟩
  · rintro error relationships ⟨-, hsource | htarget | hthere | hfull⟩
    · exact hsource (h.known_perm.mem_iff.mpr (List.mem_append_right _ hknown))
    · exact htarget (h.known_perm.mem_iff.mpr (List.mem_append_left _ hroot))
    · exact hunrelated _ hthere rfl
    · -- the sources are distinct placed objects, of which there are fewer than slots
      have hsubset : service.relationships.relationships.live.map ObjectRelationship.source ⊆
          placed := by
        intro source hsource
        obtain ⟨relationship, hmem, rfl⟩ := List.mem_map.mp hsource
        exact (h.placed_mem relationship hmem).1
      have hlength := (h.sources.subperm hsubset).length_le
      rw [List.length_map] at hlength
      exact absurd (hfull.trans hlength) (not_le.mpr hroom)

/-- A stored object without a current revision gets its first one. -/
theorem createRevision (hnew : object.objectId ∉ idsOf recorded)
    (hroom : recorded.length < maxDynamicObjects) (timestampTicks : UInt64) (writer : ServiceId) :
    Ensures (onRevisions (BoundedRevisionHistory.createObject object timestampTicks writer))
      (fun _ service' ↦ Tables service' stored known placed (object :: recorded))
      (fun _ _ ↦ False) service := by
  rw [onRevisions, ensures_within]
  refine (BoundedRevisionHistory.ensures_createObject object timestampTicks writer).mono ?_ ?_
  · rintro _ revisions ⟨hwell, -, hlive⟩
    exact { h with
      history := hwell h.history
      recorded_perm := (hlive.map CurrentObject.object).trans (h.recorded_perm.cons object) }
  · rintro error revisions ⟨-, hthere | hfull⟩
    · exact hnew (h.revisions_ids.mem_iff.mp hthere)
    · have hlength := h.recorded_perm.length_eq
      rw [List.length_map] at hlength
      exact absurd (hfull.trans hlength.le) (not_le.mpr hroom)

/-! ### Revision -/

theorem replaceObject (object : TypedObjectRecord) :
    Ensures (onObjects (DynamicObjectStore.replaceObject object))
      (fun _ service' ↦ ∃ old rest, old.objectId = object.objectId ∧ stored.Perm (old :: rest) ∧
        Tables service' (object :: rest) known placed recorded)
      (fun _ service' ↦ service' = service) service := by
  rw [onObjects, ensures_within]
  refine (DynamicObjectStore.ensures_replaceObject h.store object).mono ?_ ?_
  · rintro _ objects ⟨hwell, hallocator, record, rest, hid, hold, hlive⟩
    refine ⟨record.object, rest.map DynamicObjectRecord.object, hid,
      h.stored_perm.symm.trans (hold.map DynamicObjectRecord.object), ?_⟩
    exact { h with
      store := hwell, layout := hallocator ▸ h.layout, stored_perm := hlive.map DynamicObjectRecord.object }
  · rintro error objects ⟨rfl, -⟩
    rfl

theorem updateRevision (object : TypedObjectRecord) (timestampTicks : UInt64) (writer : ServiceId) :
    Ensures (onRevisions (BoundedRevisionHistory.updateObject object timestampTicks writer))
      (fun _ service' ↦ ∃ old rest, old.objectId = object.objectId ∧ recorded.Perm (old :: rest) ∧
        Tables service' stored known placed (object :: rest))
      (fun _ service' ↦ service' = service) service := by
  rw [onRevisions, ensures_within]
  refine (BoundedRevisionHistory.ensures_updateObject (by decide) object timestampTicks writer).mono ?_ ?_
  · rintro revision revisions ⟨hwell, slot, entry, rest, hlookup, -, hold, -, hlive, -⟩
    refine ⟨entry.object, rest.map CurrentObject.object, (BoundedRevisionHistory.lookup_eq_some hlookup).2,
      h.recorded_perm.symm.trans (hold.map CurrentObject.object), ?_⟩
    exact { h with history := hwell h.history, recorded_perm := hlive.map CurrentObject.object }
  · rintro error revisions ⟨rfl, -⟩
    rfl

end

end Tables

/-! ### Agreement of the tables -/

/-- The identity of the seeded note, which no operation deletes. -/
def externalNote : ObjectId := ⟨knownExternalNoteId⟩

/-- The tables of a service agree on one list of records. -/
def Holds (records : List TypedObjectRecord) (service : ObjectService) : Prop :=
  Tables service records (idsOf records) (idsOf records) records

/-- The tables of a service agree on one list of records, with the seeded note among them. -/
def Agrees (service : ObjectService) : Prop :=
  ∃ records, Tables service records (idsOf records) (idsOf records) records ∧
    externalNote ∈ idsOf records

section Frame

variable {α : Type} {invariant : ObjectService → Prop}
  (hquotas : ∀ {α : Type} (step : Stateful StorageQuotaError StorageQuotaTable α),
    Preserves invariant (onQuotas step))
  (hcapabilities : ∀ {α : Type} (step : Stateful CapabilityError CapabilityTable α),
    Preserves invariant (onCapabilities step))

include hquotas in
theorem preserves_ensureStorageQuota (serviceId : ServiceId) :
    Preserves invariant (ensureStorageQuota serviceId) := by
  refine Preserves.read.bind fun service ↦ ?_
  rcases service.quotas.usedBlocks serviceId with error | used
  · cases error with
    | unknownService => exact hquotas _
    | _ => exact Preserves.fail _
  · exact hquotas _

include hcapabilities

theorem preserves_grantObjectCapability (caller : ActiveUserProcess) (objectId : ObjectId) :
    Preserves invariant (grantObjectCapability caller objectId) :=
  (hcapabilities _).bind fun _ ↦ Preserves.pure _

theorem preserves_queryLoop (caller : ActiveUserProcess) (kind : ObjectKind) :
    ∀ (slots : List (Option DynamicObjectRecord)) (results : List ObjectListEntry),
      Preserves invariant (queryLoop caller kind slots results)
  | [], results => Preserves.pure results
  | none :: rest, results =>
    Preserves.ite (preserves_queryLoop caller kind rest results) (Preserves.pure results)
  | some record :: rest, results => by
    refine Preserves.ite ?_ (Preserves.pure results)
    refine Preserves.read.bind fun service ↦ ?_
    refine Preserves.ite ?_ (preserves_queryLoop caller kind rest results)
    exact (preserves_grantObjectCapability hcapabilities _ _).bind fun capability ↦
      preserves_queryLoop caller kind rest _

theorem preserves_queryObjects (caller : ActiveUserProcess) (workspace : PackedCapability)
    (kind : ObjectKind) : Preserves invariant (queryObjects caller workspace kind) := by
  refine Preserves.read.bind fun service ↦ ?_
  refine (Preserves.ofExcept _).bind fun _ ↦ ?_
  exact (preserves_queryLoop hcapabilities _ _ _ _).bind fun results ↦ Preserves.pure _

include hquotas in
theorem preserves_grantWorkspaceCapability (caller : ActiveUserProcess) :
    Preserves invariant (grantWorkspaceCapability caller) := by
  refine Preserves.read.bind fun service ↦ ?_
  have hgrant : Preserves invariant (do
      let service ← Stateful.read
      let handle ← onCapabilities
        (CapabilityTable.grant caller.serviceId service.shellWorkspace workspaceRights)
      pure (packCapability handle) : Program PackedCapability) := by
    refine Preserves.read.bind fun service ↦ ?_
    exact (hcapabilities _).bind fun _ ↦ Preserves.pure _
  rcases service.quotas.usedBlocks caller.serviceId with error | used
  · cases error with
    | unknownService => exact (hquotas _).bind fun _ ↦ hgrant
    | _ => exact (Preserves.fail _).bind fun _ ↦ hgrant
  · exact hgrant

end Frame

namespace Holds

variable {α : Type} {records : List TypedObjectRecord}

theorem onQuotas (step : Stateful StorageQuotaError StorageQuotaTable α) :
    Preserves (Holds records) (onQuotas step) :=
  Preserves.within fun _ _ h ↦ h.frame rfl rfl rfl

theorem onCapabilities (step : Stateful CapabilityError CapabilityTable α) :
    Preserves (Holds records) (onCapabilities step) :=
  Preserves.within fun _ _ h ↦ h.frame rfl rfl rfl

theorem takeNoteId : Preserves (Holds records) takeNoteId :=
  fun _ h ↦ h.frame rfl rfl rfl

end Holds

/-! ### Creation -/

namespace Tables

variable {service : ObjectService} {records : List TypedObjectRecord} {object : TypedObjectRecord}

/-- The clock ticks and the created object gets its first revision, which cannot fail. -/
theorem firstRevision {known placed : List ObjectId}
    (h : Tables service (object :: records) known placed records)
    (hnew : object.objectId ∉ idsOf records) (writer : ServiceId) :
    Ensures (do
        let timestamp ← takeTimestamp
        onRevisions (BoundedRevisionHistory.createObject object timestamp writer))
      (fun _ service' ↦ Tables service' (object :: records) known placed (object :: records))
      (fun _ _ ↦ False) service := by
  simp only [takeTimestamp, ensures_bind, ensures_read, ensures_modify, ensures_pure]
  have hroom := h.length_stored_le
  rw [List.length_cons] at hroom
  have hticked : Tables
      { service with nextTimestampTicks := service.nextTimestampTicks + 1 }
      (object :: records) known placed records := h.frame rfl rfl rfl
  exact hticked.createRevision hnew (by omega) _ writer

/-- The created object is placed in a workspace and gets its first revision, which cannot fail. -/
theorem placeAndRecord
    (h : Tables service (object :: records) (idsOf (object :: records)) (idsOf records) records)
    (hnew : object.objectId ∉ idsOf records) {workspaceId : ObjectId}
    (hroot : workspaceId ∈ workspaceRoots) (writer : ServiceId) :
    Ensures (do
        onRelationships (BoundedRelationshipStore.addRelationship
          (belongsTo object.objectId workspaceId))
        let timestamp ← takeTimestamp
        onRevisions (BoundedRevisionHistory.createObject object timestamp writer))
      (fun _ service' ↦ Holds (object :: records) service') (fun _ _ ↦ False) service := by
  rw [ensures_bind]
  have hroom := h.length_stored_le
  rw [List.length_cons] at hroom
  have hplaced : (idsOf records).length < maxDynamicObjects := by
    rw [idsOf, List.length_map]
    omega
  exact (h.addRelationship List.mem_cons_self hnew hplaced hroot).next
    fun _ _ h' ↦ h'.firstRevision hnew writer

end Tables

theorem pushNewField_objectId {object object' : TypedObjectRecord} {fieldId fieldVersion : UInt16}
    {value : Bytes} (h : pushNewField object fieldId fieldVersion value = .ok object') :
    object'.objectId = object.objectId := by
  unfold pushNewField at h
  split at h
  · cases h
  · split at h
    · cases h
    · rename_i pushed hpush
      obtain rfl := Except.ok.inj h
      exact (TypedObjectRecord.pushField_eq_ok hpush).1

theorem packageDefinedRecord_objectId {objectId : ObjectId} {input : PackageDefinedCreateInput}
    {object : TypedObjectRecord} (h : packageDefinedRecord objectId input = .ok object) :
    object.objectId = objectId := by
  unfold packageDefinedRecord at h
  obtain ⟨referring, hreferring, h⟩ := bind_eq_ok_iff.mp h
  have hid : referring.objectId = objectId := pushNewField_objectId hreferring
  split_ifs at h
  · exact (pushNewField_objectId h).trans hid
  · obtain rfl := Except.ok.inj h
    exact hid

/-- A current record is the one that the history finds. -/
theorem currentRecord_eq_ok_iff {service : ObjectService} {objectId : ObjectId} {current : RevisionRecord} :
    service.currentRecord objectId = .ok current ↔
      ∃ slot entry, service.revisions.lookup objectId = some (slot, entry) ∧
        entry.asRevision = current := by
  unfold currentRecord BoundedRevisionHistory.currentRevision
  cases service.revisions.lookup objectId with
  | none => simp
  | some found =>
    obtain ⟨slot, entry⟩ := found
    simp

section Operations

variable {service : ObjectService} {records : List TypedObjectRecord} (h : Holds records service)
  (caller : ActiveUserProcess) (object : TypedObjectRecord)

include h

/-- The undone steps leave the tables as they were, and the later steps cannot fail. -/
theorem ensures_storeInShellWorkspace (storageId : ServiceId) :
    Ensures (storeInShellWorkspace storageId caller object)
      (fun _ service' ↦ object.objectId ∉ idsOf records ∧ Holds (object :: records) service')
      (fun _ service' ↦ Holds records service') service := by
  rw [storeInShellWorkspace, ensures_bind, ensures_handle, ensures_bind]
  refine (Tables.createObject h object).mono ?_ ?_
  · rintro _ service₁ ⟨h₁, hnew⟩
    rw [ensures_pure, ensures_bind, ensures_handle]
    refine (h₁.insertObject object).mono ?_ ?_
    · intro _ service₂ h₂
      exact (h₂.placeAndRecord hnew List.mem_cons_self caller.serviceId).always fun _ _ h₃ ↦ ⟨hnew, h₃⟩
    · -- the relationship store refused the record, which is deleted again
      rintro error service₂ rfl
      simp only [ensures_bind, ensures_attempt, ensures_fail]
      have hdeleted :
          Holds records (onObjects (DynamicObjectStore.deleteObject object.objectId) service₂).2 :=
        (h₁.deleteObject.always fun _ _ h₂ ↦ h₂).final
      exact Ensures.final (Holds.onQuotas _ _ hdeleted)
  · rintro error service₁ rfl
    simp only [ensures_bind, ensures_attempt, ensures_fail]
    exact Ensures.final (Holds.onQuotas _ _ h)

/-- A note may be stored although the call fails, when there is no room for its capability. -/
theorem ensures_createObject (workspace : PackedCapability) (kind : ObjectKind) :
    Ensures (createObject caller workspace kind)
      (fun result service' ↦ result.objectId ∉ idsOf records ∧
        Holds (.new result.objectId .note 1 :: records) service')
      (fun _ service' ↦ Holds records service' ∨ ∃ objectId, objectId ∉ idsOf records ∧
        Holds (.new objectId .note 1 :: records) service') service := by
  rw [createObject, ensures_ite]
  refine ⟨fun _ ↦ Or.inl h, fun hkind ↦ ?_⟩
  obtain rfl := not_not.mp hkind
  simp only [ensures_bind, ensures_read]
  refine ensures_ofExcept.mpr ⟨fun _ _ ↦ ?_, fun _ _ ↦ Or.inl h⟩
  refine (Holds.onQuotas _ _ h).mono ?_ fun _ _ h₁ ↦ Or.inl h₁
  intro _ service₁ h₁
  refine (Holds.takeNoteId _ h₁).mono ?_ fun _ _ h₂ ↦ Or.inl h₂
  intro objectId service₂ h₂
  refine (ensures_storeInShellWorkspace h₂ caller (.new objectId .note 1) caller.serviceId).mono ?_
    fun _ _ h₃ ↦ Or.inl h₃
  rintro _ service₃ ⟨hnew, h₃⟩
  exact (preserves_grantObjectCapability Holds.onCapabilities caller objectId _ h₃).mono
    (fun _ _ h₄ ↦ ⟨hnew, h₄⟩) fun _ _ h₄ ↦ Or.inr ⟨objectId, hnew, h₄⟩

theorem ensures_createTaskServiceObject :
    Ensures (createTaskServiceObject caller object)
      (fun _ service' ↦ isTaskServiceKind object.objectKind = true ∧
        object.objectId ∉ idsOf records ∧ Holds (object :: records) service')
      (fun _ service' ↦ Holds records service') service := by
  rw [createTaskServiceObject, ensures_ite]
  refine ⟨fun _ ↦ h, fun hkind ↦ ?_⟩
  simp only [ensures_bind]
  refine (preserves_ensureStorageQuota Holds.onQuotas _ _ h).next ?_
  intro _ service₁ h₁
  refine (Holds.onQuotas _ _ h₁).next ?_
  intro _ service₂ h₂
  exact (ensures_storeInShellWorkspace h₂ caller object _).mono
    (fun _ _ h₃ ↦ ⟨not_not.mp hkind, h₃⟩) fun _ _ h₃ ↦ h₃

theorem ensures_createInternalObject :
    Ensures (createInternalObject caller object)
      (fun result service' ↦ result.objectId = object.objectId ∧
        object.objectId ∉ idsOf records ∧ Holds (object :: records) service')
      (fun _ service' ↦ service' = service) service := by
  rw [createInternalObject, ensures_staged]
  simp only [ensures_bind]
  refine (preserves_ensureStorageQuota Holds.onQuotas _ _ h).imp ?_
  intro _ service₁ h₁
  refine (Holds.onQuotas _ _ h₁).imp ?_
  intro _ service₂ h₂
  refine (Tables.createObject h₂ object).imp ?_
  rintro _ service₃ ⟨h₃, hnew⟩
  refine (h₃.insertObject object).imp ?_
  intro _ service₄ h₄
  have hrecorded := h₄.firstRevision hnew caller.serviceId
  rw [ensures_bind] at hrecorded
  refine hrecorded.always fun _ _ hcreated ↦ hcreated.always ?_
  intro _ service₅ h₅
  have hplaceable : Holds (object :: records) service₅ := h₅.placeable (List.subset_cons_self _ _)
  exact (preserves_grantObjectCapability Holds.onCapabilities _ _ service₅ hplaceable).mono
    (fun _ _ h₆ ↦ ⟨rfl, hnew, h₆⟩) fun _ _ _ ↦ trivial

theorem ensures_createPackageDefinedObject (authority : PackedCapability)
    (input : PackageDefinedCreateInput) :
    Ensures (createPackageDefinedObject caller authority input)
      (fun result service' ↦ ∃ object, packageDefinedRecord result.objectId input = .ok object ∧
        result.objectId ∉ idsOf records ∧ Holds (object :: records) service')
      (fun _ service' ↦ service' = service) service := by
  simp only [createPackageDefinedObject, ensures_bind, ensures_read]
  refine ensures_ofExcept.mpr ⟨fun _ _ ↦ ?_, fun _ _ ↦ rfl⟩
  rw [ensures_ite]
  refine ⟨fun _ ↦ rfl, fun _ ↦ ?_⟩
  rw [ensures_bind]
  refine ensures_ofExcept.mpr ⟨fun _ _ ↦ ?_, fun _ _ ↦ rfl⟩
  rw [ensures_staged]
  simp only [ensures_bind]
  refine (preserves_ensureStorageQuota Holds.onQuotas _ _ h).imp ?_
  intro _ service₁ h₁
  refine (Holds.onQuotas _ _ h₁).imp ?_
  intro _ service₂ h₂
  refine (Holds.takeNoteId _ h₂).imp ?_
  intro objectId service₃ h₃
  refine ensures_ofExcept.mpr ⟨fun object hobject ↦ ?_, fun _ _ ↦ trivial⟩
  obtain rfl := packageDefinedRecord_objectId hobject
  refine (Tables.createObject h₃ object).imp ?_
  rintro _ service₄ ⟨h₄, hnew⟩
  refine (h₄.insertObject object).imp ?_
  intro _ service₅ h₅
  have hrecorded := h₅.placeAndRecord hnew List.mem_cons_self caller.serviceId
  simp only [ensures_bind] at hrecorded
  refine hrecorded.always fun _ _ hplaced ↦ hplaced.always fun _ _ hcreated ↦ hcreated.always ?_
  intro _ service₆ h₆
  exact (preserves_grantObjectCapability Holds.onCapabilities _ _ service₆ h₆).mono
    (fun _ _ h₇ ↦ ⟨object, hobject, hnew, h₇⟩) fun _ _ _ ↦ trivial

/-! ### Revision -/

/-- A replaced record is replaced in the store and in the history alike. -/
theorem ensures_replaceRecord :
    Ensures (replaceRecord caller object)
      (fun _ service' ↦ ∃ old rest, old.objectId = object.objectId ∧ records.Perm (old :: rest) ∧
        Holds (object :: rest) service')
      (fun _ service' ↦ service' = service) service := by
  rw [replaceRecord, ensures_staged]
  simp only [ensures_bind, ensures_read]
  refine (Tables.replaceObject h object).imp ?_
  rintro _ service₁ ⟨old, rest, hold, hperm, h₁⟩
  refine (h₁.updateRevision object _ _).imp ?_
  rintro _ service₂ ⟨old', rest', hold', hperm', h₂⟩
  -- both tables replaced the record with the identity of the new one
  have hsame : old' = old :=
    Tables.eq_of_objectId_eq (Tables.nodup_idsOf h) (hperm'.mem_iff.mpr List.mem_cons_self)
      (hperm.mem_iff.mpr List.mem_cons_self) (hold'.trans hold.symm)
  rw [hsame] at hperm'
  have hrest : rest'.Perm rest := (hperm'.symm.trans hperm).cons_inv
  have hids : (idsOf records).Perm (idsOf (object :: rest)) := by
    have hmapped := hperm.map TypedObjectRecord.objectId
    rwa [List.map_cons, hold] at hmapped
  have h₃ := h₂.perm (List.Perm.refl _) hids hids (hrest.cons object)
  exact ⟨old, rest, hold, hperm, h₃.frame rfl rfl rfl⟩

/-- The record of a current revision is the stored one. -/
theorem Holds.mem_of_currentRecord {objectId : ObjectId} {current : RevisionRecord}
    (hcurrent : service.currentRecord objectId = .ok current) :
    current.object ∈ records ∧ current.object.objectId = objectId := by
  obtain ⟨slot, entry, hlookup, rfl⟩ := currentRecord_eq_ok_iff.mp hcurrent
  obtain ⟨hslot, hid⟩ := BoundedRevisionHistory.lookup_eq_some hlookup
  refine ⟨?_, hid⟩
  rw [← (Tables.recorded_perm h).mem_iff]
  exact List.mem_map_of_mem (Table.mem_live_iff.mpr ⟨slot, hslot⟩)

/-- A record replaces the one that it was made from. -/
theorem ensures_revision {current : RevisionRecord} {object : TypedObjectRecord}
    (hcurrent : service.currentRecord object.objectId = .ok current) :
    Ensures (replaceRecord caller object)
      (fun _ service' ↦ ∃ rest, records.Perm (current.object :: rest) ∧
        Holds (object :: rest) service')
      (fun _ service' ↦ service' = service) service := by
  refine (ensures_replaceRecord h caller object).next ?_
  rintro _ service' ⟨old, rest, hold, hperm, h'⟩
  obtain ⟨hmem, hid⟩ := h.mem_of_currentRecord hcurrent
  have hsame : current.object = old :=
    Tables.eq_of_objectId_eq (Tables.nodup_idsOf h) hmem
      (hperm.mem_iff.mpr List.mem_cons_self) (hid.trans hold.symm)
  exact ⟨rest, hsame ▸ hperm, h'⟩

/-- The record that `revise_field` makes of the current one. -/
def revisedRecord (objectId : ObjectId) (current : RevisionRecord) (fieldId : UInt16)
    (value : Bytes) : Except ObjectServiceError TypedObjectRecord :=
  pushNewField (.new objectId current.object.objectKind (current.revision + 1).toUInt16) fieldId
    (current.revision + 1).toUInt16 value

theorem ensures_reviseField (objectCapability : PackedCapability) (objectId : ObjectId)
    (fieldId : UInt16) (value : Bytes) :
    Ensures (reviseField caller objectCapability objectId fieldId value)
      (fun _ service' ↦
        service.validateObject caller objectCapability objectId .write = .ok () ∧
        ∃ current revised rest, service.currentRecord objectId = .ok current ∧
          revisedRecord objectId current fieldId value = .ok revised ∧
          records.Perm (current.object :: rest) ∧ Holds (revised :: rest) service')
      (fun _ service' ↦ service' = service) service := by
  simp only [reviseField, ensures_bind, ensures_read]
  refine ensures_ofExcept.mpr ⟨fun _ hvalid ↦ ?_, fun _ _ ↦ rfl⟩
  refine ensures_ofExcept.mpr ⟨fun current hcurrent ↦ ?_, fun _ _ ↦ rfl⟩
  refine ensures_ofExcept.mpr ⟨fun revised hrevised ↦ ?_, fun _ _ ↦ rfl⟩
  have hid : revised.objectId = objectId := pushNewField_objectId hrevised
  refine (ensures_revision h caller (hid ▸ hcurrent)).next ?_
  rintro _ service' ⟨rest, hperm, h'⟩
  exact ⟨hvalid, current, revised, rest, hcurrent, hrevised, hperm, h'⟩

theorem ensures_reviseTaskServiceObject :
    Ensures (reviseTaskServiceObject caller object)
      (fun _ service' ↦ isTaskServiceKind object.objectKind = true ∧
        ∃ current rest, service.currentRecord object.objectId = .ok current ∧
          current.object.objectKind = object.objectKind ∧
          records.Perm (current.object :: rest) ∧ Holds (object :: rest) service')
      (fun _ service' ↦ service' = service) service := by
  rw [reviseTaskServiceObject, ensures_ite]
  refine ⟨fun _ ↦ rfl, fun hkind ↦ ?_⟩
  simp only [ensures_bind, ensures_read]
  refine ensures_ofExcept.mpr ⟨fun current hcurrent ↦ ?_, fun _ _ ↦ rfl⟩
  rw [ensures_ite]
  refine ⟨fun _ ↦ rfl, fun hsame ↦ ?_⟩
  refine (ensures_revision h caller hcurrent).next ?_
  rintro _ service' ⟨rest, hperm, h'⟩
  exact ⟨not_not.mp hkind, current, rest, hcurrent, not_not.mp hsame, hperm, h'⟩

end Operations

end ObjectService

end Pythos.Core
