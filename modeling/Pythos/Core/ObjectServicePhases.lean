import Pythos.Core.ObjectServiceConsistency

/-!
# The phases of the operations

An operation that stores or revises an object works on the tables and the counters, records a revision, and
ends with the grant of a capability if it creates an object. `Phases` gives a condition for each side of the
record, and one for an operation that is broken off; the rules below lead through each operation. A condition
that no step affects is the same on both sides.
-/

namespace Pythos.Core

open Foundation Shared Stateful

namespace ObjectService

/-- The steps on the tables and the counters keep a condition, where objects are placed in the shell workspace
only. -/
structure Stable (invariant : ObjectService → Prop) : Prop where
  objects : ∀ {service : ObjectService} (objects : DynamicObjectStore),
    invariant service → invariant { service with objects }
  quotas : ∀ {service : ObjectService} (quotas : StorageQuotaTable),
    invariant service → invariant { service with quotas }
  noteId : ∀ {service : ObjectService} (nextShellNoteId : UInt64),
    invariant service → invariant { service with nextShellNoteId }
  insert : ∀ object, Preserves invariant (onRelationships (BoundedRelationshipStore.insertObject object))
  place : ∀ objectId, Preserves invariant (onRelationships (BoundedRelationshipStore.addRelationship
    (belongsTo objectId shellWorkspaceObjectId)))

/-- The steps up to the record of a revision keep one condition, and the record leads to another or breaks
the operation off. -/
structure Phases (before after broken : ObjectService → Prop) : Prop extends Stable before where
  breaks : ∀ {service : ObjectService}, before service → broken service
  create : ∀ object writer {service : ObjectService}, before service → Ensures (do
      let timestamp ← takeTimestamp
      onRevisions (BoundedRevisionHistory.createObject object timestamp writer))
    (fun _ ↦ after) (fun _ ↦ broken) service
  update : ∀ object writer {service : ObjectService}, before service → Ensures (do
      let service ← Stateful.read
      let revision ← onRevisions (BoundedRevisionHistory.updateObject object
        service.nextTimestampTicks writer)
      Stateful.modify fun service ↦
        { service with nextTimestampTicks := service.nextTimestampTicks + 1 }
      pure revision : Program UInt64)
    (fun _ ↦ after) (fun _ ↦ broken) service

/-- A condition that the record does not affect either is the same in every phase. -/
theorem Stable.phases {invariant : ObjectService → Prop} (h : Stable invariant)
    (hrecord : ∀ {service : ObjectService} (revisions : ObjectServiceRevisionHistory)
      (nextTimestampTicks : UInt64), invariant service →
        invariant { service with revisions, nextTimestampTicks }) :
    Phases invariant invariant invariant where
  toStable := h
  breaks := id
  create _ _ service hservice := by
    have htake : Preserves invariant takeTimestamp := fun _ h ↦ hrecord _ _ h
    exact (htake.bind fun _ ↦ Preserves.within fun _ _ h ↦ hrecord _ _ h) service hservice
  update _ _ service hservice := by
    refine Preserves.read.bind (fun _ ↦ ?_) service hservice
    refine Preserves.bind (Preserves.within fun _ _ h ↦ hrecord _ _ h) fun _ ↦ ?_
    exact Preserves.bind (fun _ h ↦ hrecord _ _ h) fun _ ↦ Preserves.pure _

namespace Phases

variable {before after broken : ObjectService → Prop} {service : ObjectService}
  {caller : ActiveUserProcess} {α : Type}

section Steps

variable (h : Phases before after broken)

include h

theorem onObjects (step : Stateful DynamicObjectError DynamicObjectStore α) :
    Preserves before (onObjects step) :=
  Preserves.within fun objects _ ↦ h.objects objects

theorem onQuotas (step : Stateful StorageQuotaError StorageQuotaTable α) :
    Preserves before (onQuotas step) :=
  Preserves.within fun quotas _ ↦ h.quotas quotas

theorem takeNoteId : Preserves before takeNoteId :=
  fun _ hservice ↦ h.noteId _ hservice

theorem ensureStorageQuota (serviceId : ServiceId) : Preserves before (ensureStorageQuota serviceId) :=
  preserves_ensureStorageQuota h.onQuotas serviceId

variable (hservice : before service)

include hservice

theorem storeInShellWorkspace (storageId : ServiceId) (object : TypedObjectRecord) :
    Ensures (storeInShellWorkspace storageId caller object) (fun _ ↦ after) (fun _ ↦ broken) service := by
  refine Preserves.andThen ?_ (fun _ _ ↦ h.breaks) hservice fun _ _ hservice ↦
    Preserves.andThen ?_ (fun _ _ ↦ h.breaks) hservice fun _ _ hservice ↦ ?_
  · refine Preserves.handle ?_ fun error ↦ ?_
    · exact (h.onObjects _).bind fun _ ↦ Preserves.pure _
    · exact (h.onQuotas _).attempt.bind fun _ ↦ Preserves.fail _
  · refine (h.insert object).handle fun error ↦ ?_
    refine (h.onObjects _).attempt.bind fun _ ↦ ?_
    exact (h.onQuotas _).attempt.bind fun _ ↦ Preserves.fail _
  · exact (h.place _).andThen (fun _ _ ↦ h.breaks) hservice fun _ _ hservice ↦ h.create _ _ hservice

theorem createTaskServiceObject (object : TypedObjectRecord) :
    Ensures (createTaskServiceObject caller object) (fun _ ↦ after) (fun _ ↦ broken) service := by
  rw [ObjectService.createTaskServiceObject, ensures_ite]
  refine ⟨fun _ ↦ h.breaks hservice, fun _ ↦ ?_⟩
  refine (h.ensureStorageQuota _).andThen (fun _ _ ↦ h.breaks) hservice fun _ _ hservice ↦ ?_
  exact (h.onQuotas _).andThen (fun _ _ ↦ h.breaks) hservice fun _ _ hservice ↦
    h.storeInShellWorkspace hservice _ _

theorem replaceRecord (object : TypedObjectRecord) :
    Ensures (replaceRecord caller object) (fun _ ↦ after) (fun _ ↦ before) service := by
  refine Ensures.of_staged ?_ fun _ ↦ hservice
  refine (h.onObjects _).andThen (fun _ _ _ ↦ trivial) hservice fun _ _ hservice ↦ ?_
  exact (h.update object caller.serviceId hservice).imp fun _ _ hafter ↦ hafter

theorem reviseField (objectCapability : PackedCapability) (objectId : ObjectId) (fieldId : UInt16)
    (value : Bytes) :
    Ensures (reviseField caller objectCapability objectId fieldId value) (fun _ ↦ after) (fun _ ↦ before)
      service := by
  refine Preserves.read.andThen (fun _ _ h ↦ h) hservice fun _ _ hservice ↦ ?_
  refine (Preserves.ofExcept _).andThen (fun _ _ h ↦ h) hservice fun _ _ hservice ↦ ?_
  refine (Preserves.ofExcept _).andThen (fun _ _ h ↦ h) hservice fun _ _ hservice ↦ ?_
  exact (Preserves.ofExcept _).andThen (fun _ _ h ↦ h) hservice fun _ _ hservice ↦ h.replaceRecord hservice _

theorem reviseTaskServiceObject (object : TypedObjectRecord) :
    Ensures (reviseTaskServiceObject caller object) (fun _ ↦ after) (fun _ ↦ before) service := by
  rw [ObjectService.reviseTaskServiceObject, ensures_ite]
  refine ⟨fun _ ↦ hservice, fun _ ↦ Preserves.read.andThen (fun _ _ h ↦ h) hservice fun _ _ hservice ↦ ?_⟩
  refine (Preserves.ofExcept _).andThen (fun _ _ h ↦ h) hservice fun _ _ hservice ↦ ?_
  exact ensures_ite.mpr ⟨fun _ ↦ hservice, fun _ ↦ h.replaceRecord hservice _⟩

/-! The creations end with a grant, which may affect the condition. -/

variable {post : ObjectCreateResult → ObjectService → Prop}
  {fails : ObjectServiceError → ObjectService → Prop}

theorem createObject (hfails : ∀ error service, broken service → fails error service)
    (hgrant : ∀ objectId service, after service → Ensures (do
      let objectCapability ← grantObjectCapability caller objectId
      pure { objectId, revision := 1, objectCapability : ObjectCreateResult }) post fails service)
    (workspace : PackedCapability) (kind : ObjectKind) :
    Ensures (createObject caller workspace kind) post fails service := by
  have hbreaks (error : ObjectServiceError) (service : ObjectService) (hservice : before service) :
      fails error service := hfails error service (h.breaks hservice)
  rw [ObjectService.createObject, ensures_ite]
  refine ⟨fun _ ↦ hbreaks _ _ hservice, fun _ ↦ ?_⟩
  refine Preserves.read.andThen hbreaks hservice fun _ _ hservice ↦ ?_
  refine (Preserves.ofExcept _).andThen hbreaks hservice fun _ _ hservice ↦ ?_
  refine (h.onQuotas _).andThen hbreaks hservice fun _ _ hservice ↦ ?_
  refine h.takeNoteId.andThen hbreaks hservice fun objectId _ hservice ↦ ?_
  exact ensures_bind.mpr ((h.storeInShellWorkspace hservice _ _).mono (fun _ _ ↦ hgrant objectId _)
    hfails)

/-! The other creations work on a staged copy. -/

variable {lost : ObjectServiceError → ObjectService → Prop} (hfails : ∀ error, fails error service)
  (hgrant : ∀ objectId service, after service → Ensures (do
    let objectCapability ← grantObjectCapability caller objectId
    pure { objectId, revision := 1, objectCapability : ObjectCreateResult }) post lost service)

include hfails hgrant

omit hfails in
/-- The end of a creation: the first revision of the object and the grant of its capability. -/
theorem recordAndGrant (object : TypedObjectRecord) (objectId : ObjectId) :
    Ensures (do
        let timestamp ← takeTimestamp
        onRevisions (BoundedRevisionHistory.createObject object timestamp caller.serviceId)
        let objectCapability ← grantObjectCapability caller objectId
        pure { objectId, revision := 1, objectCapability : ObjectCreateResult })
      post (fun _ _ ↦ True) service := by
  have hrecorded := h.create object caller.serviceId hservice
  rw [ensures_bind] at hrecorded ⊢
  refine hrecorded.imp fun _ _ hcreated ↦ ?_
  rw [ensures_bind]
  exact hcreated.imp fun _ _ hafter ↦ (hgrant objectId _ hafter).imp fun _ _ hpost ↦ hpost

theorem createInternalObject (object : TypedObjectRecord) :
    Ensures (createInternalObject caller object) post fails service := by
  have hnever (error : ObjectServiceError) (service : ObjectService) (_ : before service) : True := trivial
  refine Ensures.of_staged ?_ hfails
  refine (h.ensureStorageQuota _).andThen hnever hservice fun _ _ hservice ↦ ?_
  refine (h.onQuotas _).andThen hnever hservice fun _ _ hservice ↦ ?_
  refine (h.onObjects _).andThen hnever hservice fun _ _ hservice ↦ ?_
  refine (h.insert _).andThen hnever hservice fun _ _ hservice ↦ ?_
  exact h.recordAndGrant hservice hgrant object object.objectId

theorem createPackageDefinedObject (authority : PackedCapability) (input : PackageDefinedCreateInput) :
    Ensures (createPackageDefinedObject caller authority input) post fails service := by
  have hnever (error : ObjectServiceError) (service : ObjectService) (_ : before service) : True := trivial
  rw [ObjectService.createPackageDefinedObject, ensures_bind, ensures_read, ensures_bind]
  refine ensures_ofExcept.mpr ⟨fun _ _ ↦ ensures_ite.mpr ⟨fun _ ↦ hfails _, fun _ ↦ ?_⟩,
    fun _ _ ↦ hfails _⟩
  refine ensures_bind.mpr (ensures_ofExcept.mpr ⟨fun _ _ ↦ ?_, fun _ _ ↦ hfails _⟩)
  refine Ensures.of_staged ?_ hfails
  refine (h.ensureStorageQuota _).andThen hnever hservice fun _ _ hservice ↦ ?_
  refine (h.onQuotas _).andThen hnever hservice fun _ _ hservice ↦ ?_
  refine h.takeNoteId.andThen hnever hservice fun objectId _ hservice ↦ ?_
  refine (Preserves.ofExcept _).andThen hnever hservice fun object _ hservice ↦ ?_
  refine (h.onObjects _).andThen hnever hservice fun _ _ hservice ↦ ?_
  refine (h.insert _).andThen hnever hservice fun _ _ hservice ↦ ?_
  refine (h.place _).andThen hnever hservice fun _ _ hservice ↦ ?_
  exact h.recordAndGrant hservice hgrant object objectId

end Steps

section Operations

variable {invariant : ObjectService → Prop} (h : Phases invariant invariant invariant)
  (hcapabilities : ∀ {service : ObjectService} (capabilities : CapabilityTable),
    invariant service → invariant { service with capabilities })

include hcapabilities

omit h in
theorem onCapabilities (step : Stateful CapabilityError CapabilityTable α) :
    Preserves invariant (onCapabilities step) :=
  Preserves.within fun capabilities _ ↦ hcapabilities capabilities

include h

/-- A condition that no step affects holds after every call. -/
theorem perform (hservice : invariant service) (operation : Operation) :
    invariant (operation.perform service) := by
  have hgrant (caller : ActiveUserProcess) (objectId : ObjectId) : Preserves invariant (do
      let objectCapability ← grantObjectCapability caller objectId
      pure { objectId, revision := 1, objectCapability : ObjectCreateResult }) :=
    (preserves_grantObjectCapability (onCapabilities hcapabilities) _ _).bind fun _ ↦ Preserves.pure _
  cases operation with
  | createObject caller workspace kind =>
    exact (h.createObject hservice (fun _ _ h ↦ h) (hgrant caller) workspace kind).final
  | createTaskServiceObject caller object => exact (h.createTaskServiceObject hservice object).final
  | createPackageObject caller objectId | createSchemaDefinitionObject caller objectId =>
    exact (h.createInternalObject hservice (fun _ ↦ hservice) (hgrant caller) _).final
  | createPackageDefinedObject caller authority input =>
    exact (h.createPackageDefinedObject hservice (fun _ ↦ hservice) (hgrant caller) authority input).final
  | reviseField caller objectCapability objectId fieldId value =>
    exact (h.reviseField hservice objectCapability objectId fieldId value).final
  | reviseTaskServiceObject caller object => exact (h.reviseTaskServiceObject hservice object).final
  | queryObjects caller workspace kind =>
    exact (preserves_queryObjects (onCapabilities hcapabilities) caller workspace kind service
      hservice).final
  | grantWorkspaceCapability caller =>
    exact (preserves_grantWorkspaceCapability h.onQuotas (onCapabilities hcapabilities) caller service
      hservice).final

end Operations

end Phases

end ObjectService

end Pythos.Core
