import Pythos.Core.ObjectServicePhases
import Pythos.Core.TaskService

/-!
# The revisions that the object service records

Every operation that stores or revises an object adds a revision to the history of the object service: a
creation adds a current revision, and a revision moves the current one to the prior ones. The number of the
recorded revisions (`recordedRevisions`) therefore rises with every operation of the object and the task
service that changes what is stored and succeeds (`Records`). A checkpoint stores the whole history, so that
two services with the same snapshot have recorded equally many revisions.
-/

namespace Pythos.Core

open Foundation Shared Stateful

/-! ### The revisions that are recorded -/

namespace BoundedRevisionHistory

variable {currentCapacity revisionCapacity : ℕ}

/-- The number of the revisions, current and prior ones. -/
def size (history : BoundedRevisionHistory currentCapacity revisionCapacity) : ℕ :=
  history.current.live.length + history.revisions.live.length

end BoundedRevisionHistory

namespace ObjectService

/-- The number of the revisions that the service has recorded. -/
def recordedRevisions (service : ObjectService) : ℕ := service.revisions.size

theorem recordedRevisions_eq_of_encodeSnapshot_eq {service service' : ObjectService}
    (h : service.encodeSnapshot = service'.encodeSnapshot) :
    service.recordedRevisions = service'.recordedRevisions := by
  have hcurrent : service.revisions.currentRecords = service'.revisions.currentRecords :=
    congrArg ObjectServiceSnapshot.currentRevisions h
  have hprior : service.revisions.revisions = service'.revisions.revisions :=
    congrArg ObjectServiceSnapshot.priorRevisions h
  have hlength (history : ObjectServiceRevisionHistory) :
      history.currentRecords.live.length = history.current.live.length := by
    rw [BoundedRevisionHistory.currentRecords, Table.live_map, List.length_map]
  rw [recordedRevisions, recordedRevisions, BoundedRevisionHistory.size, BoundedRevisionHistory.size,
    ← hlength, ← hlength, hcurrent, hprior]

/-! ### The operations of the object service -/

/-- The steps before the record of a revision leave the history as it is. -/
theorem phases_recorded (service : ObjectService) :
    Phases (·.revisions = service.revisions) (service.recordedRevisions < ·.recordedRevisions)
      fun _ ↦ True where
  objects := fun _ h ↦ h
  quotas := fun _ h ↦ h
  noteId := fun _ h ↦ h
  insert := fun _ ↦ Preserves.within fun _ _ h ↦ h
  place := fun _ ↦ Preserves.within fun _ _ h ↦ h
  breaks := fun _ ↦ trivial
  create object writer service' h := by
    simp only [takeTimestamp, ensures_bind, ensures_read, ensures_modify, ensures_pure, onRevisions,
      ensures_within]
    refine (BoundedRevisionHistory.ensures_createObject object _ writer).imp ?_
    rintro _ history' ⟨-, hpriors, hcurrents⟩
    simp only [recordedRevisions, BoundedRevisionHistory.size, ← h, hpriors, hcurrents.length_eq,
      List.length_cons]
    omega
  update object writer service' h := by
    simp only [ensures_bind, ensures_read, ensures_modify, ensures_pure, onRevisions, ensures_within]
    refine (BoundedRevisionHistory.ensures_updateObject (by decide) object _ writer).imp ?_
    rintro _ history' ⟨-, _, _, _, -, -, hold, -, hnew, hpriors⟩
    simp only [recordedRevisions, BoundedRevisionHistory.size, ← h, hold.length_eq, hnew.length_eq,
      hpriors.length_eq, List.length_cons]
    omega

/-- A program that returns has recorded a revision. -/
def Records {ε α : Type} (program : Stateful ε ObjectService α) : Prop :=
  ∀ service, Ensures program (fun _ service' ↦ service.recordedRevisions < service'.recordedRevisions)
    (fun _ _ ↦ True) service

section

variable (caller : ActiveUserProcess)

/-- The grant after the record of a revision keeps the history. -/
theorem records_finalGrant {recorded : ℕ} (objectId : ObjectId) (service : ObjectService)
    (h : recorded < service.recordedRevisions) : Ensures (do
      let objectCapability ← grantObjectCapability caller objectId
      pure { objectId, revision := 1, objectCapability : ObjectCreateResult })
    (fun _ service' ↦ recorded < service'.recordedRevisions) (fun _ _ ↦ True) service := by
  have hkept : Preserves (recorded < ·.recordedRevisions) (grantObjectCapability caller objectId) :=
    preserves_grantObjectCapability (fun _ ↦ Preserves.within fun _ _ h ↦ h) caller objectId
  rw [ensures_bind]
  exact (hkept service h).imp fun _ _ h ↦ h

theorem records_createObject (workspace : PackedCapability) (kind : ObjectKind) :
    Records (createObject caller workspace kind) := fun service ↦
  (phases_recorded service).createObject rfl (fun _ _ h ↦ h) (records_finalGrant caller) workspace kind

theorem records_createPackageDefinedObject (authority : PackedCapability)
    (input : PackageDefinedCreateInput) :
    Records (createPackageDefinedObject caller authority input) := fun service ↦
  (phases_recorded service).createPackageDefinedObject rfl (fun _ ↦ trivial) (records_finalGrant caller)
    authority input

theorem records_createTaskServiceObject (object : TypedObjectRecord) :
    Records (createTaskServiceObject caller object) := fun service ↦
  (phases_recorded service).createTaskServiceObject rfl object

theorem records_reviseField (objectCapability : PackedCapability) (objectId : ObjectId)
    (fieldId : UInt16) (value : Bytes) :
    Records (reviseField caller objectCapability objectId fieldId value) := fun service ↦
  ((phases_recorded service).reviseField rfl objectCapability objectId fieldId value).imp fun _ _ h ↦ h

theorem records_reviseTaskServiceObject (object : TypedObjectRecord) :
    Records (reviseTaskServiceObject caller object) := fun service ↦
  ((phases_recorded service).reviseTaskServiceObject rfl object).imp fun _ _ h ↦ h

end

end ObjectService

/-! ### The operations of the task service -/

section TaskSteps

variable (caller : TaskCaller)

theorem records_createRecord (record : Except TaskServiceError TypedObjectRecord) :
    ObjectService.Records (createRecord caller record) := by
  intro objects
  rw [createRecord, ensures_bind]
  refine ensures_ofExcept.mpr ⟨fun record _ ↦ ?_, fun _ _ ↦ trivial⟩
  rw [onObjectService, ensures_within]
  exact ObjectService.records_createTaskServiceObject caller.process record objects

theorem records_reviseRecord (record : Except TaskServiceError TypedObjectRecord) :
    ObjectService.Records (reviseRecord caller record) := by
  intro objects
  rw [reviseRecord, ensures_bind]
  refine ensures_ofExcept.mpr ⟨fun record _ ↦ ?_, fun _ _ ↦ trivial⟩
  rw [ensures_bind, onObjectService, ensures_within]
  exact ObjectService.records_reviseTaskServiceObject caller.process record objects

end TaskSteps

/-- The number of the revisions of the object service under the task service. -/
def TaskService.recordedRevisions (service : TaskService) : ℕ := service.objects.recordedRevisions

end Pythos.Core
