import Pythos.Core.FailedCreation
import Pythos.Core.TaskScripts

/-!
# When the steps of the task service succeed

A record is created exactly when it fits, and it is revised exactly when the history takes one more revision
of it. A revision leaves the room and the identities as they were, so that the state before a transition of a
task decides whether the transition succeeds.
-/

namespace Pythos.Core

open Foundation Shared Stateful

/-! ### Revisions -/

/-- What a store takes depends on its blocks and on its identities. -/
theorem DynamicObjectStore.fits_iff_of_perm {store store' : DynamicObjectStore} {objectId : ObjectId}
    (hallocator : store'.allocator = store.allocator) (hids : store'.ids.Perm store.ids) :
    store'.Fits objectId ↔ store.Fits objectId := by
  have hlength := hids.length_eq
  rw [ids, ids, List.length_map, List.length_map] at hlength
  rw [Fits, Fits, hallocator, hids.mem_iff, ne_eq, ne_eq, Table.freeIndex_eq_none_iff,
    Table.freeIndex_eq_none_iff, hlength]

namespace ObjectService

variable {service : ObjectService} {records : List TypedObjectRecord}

/-- The history takes another revision of an object of the kind. -/
def Revisable (service : ObjectService) (objectId : ObjectId) (kind : ObjectKind) : Prop :=
  ∃ slot entry, service.revisions.lookup objectId = some (slot, entry) ∧ entry.object.objectKind = kind ∧
    service.revisions.Takes service.nextTimestampTicks entry

/-- A stored record is replaced exactly when the history takes another revision of it, and the same objects
fit afterwards. -/
theorem ensures_replaceRecord_takes (h : Holds records service) (caller : ActiveUserProcess)
    {object : TypedObjectRecord} {slot : Fin maxDynamicObjects} {entry : CurrentObject}
    (hlookup : service.revisions.lookup object.objectId = some (slot, entry)) :
    Ensures (replaceRecord caller object)
      (fun _ service' ↦ service.revisions.Takes service.nextTimestampTicks entry ∧
        ∀ objectId, service'.FitsTaskObject objectId ↔ service.FitsTaskObject objectId)
      (fun _ _ ↦ ¬ service.revisions.Takes service.nextTimestampTicks entry) service := by
  have hcurrent := currentRecord_eq_ok_iff.mpr ⟨slot, entry, hlookup, rfl⟩
  have hstored := h.objects_ids.mem_iff.mpr (List.mem_map.mpr ⟨_, h.mem_of_currentRecord hcurrent⟩)
  rw [replaceRecord, ensures_staged, ensures_bind, onObjects, ensures_within]
  refine (DynamicObjectStore.ensures_replaceObject h.store object).mono ?_ fun _ _ hfailed ↦
    absurd hstored hfailed.2
  rintro _ objects ⟨-, hallocator, record, rest, hid, hold, hlive⟩
  have hids : objects.ids.Perm service.objects.ids := by
    have hbefore : service.objects.ids.Perm (record.object.objectId :: _) := hold.map _
    rw [hid] at hbefore
    exact (hlive.map _).trans hbefore.symm
  simp only [ensures_bind, ensures_read, onRevisions, ensures_within, ensures_modify, ensures_pure]
  refine (BoundedRevisionHistory.ensures_updateObject (by decide) object _ _).mono ?_ ?_
  · rintro _ _ ⟨-, _, _, _, hfound, htakes, -⟩
    obtain ⟨-, rfl⟩ := Prod.mk.inj (Option.some.inj (hlookup.symm.trans hfound))
    exact ⟨htakes, fun _ ↦ and_congr_right fun _ ↦ and_congr_left fun _ ↦
      DynamicObjectStore.fits_iff_of_perm hallocator hids⟩
  · exact fun _ _ hfull ↦ hfull.2 slot entry hlookup

/-- An object of the task service is revised exactly when the history takes another revision of it. -/
theorem ensures_reviseTaskServiceObject_revisable (h : Holds records service) (caller : ActiveUserProcess)
    {object : TypedObjectRecord} (hkind : isTaskServiceKind object.objectKind = true) :
    Ensures (reviseTaskServiceObject caller object)
      (fun _ service' ↦ service.Revisable object.objectId object.objectKind ∧
        ∀ objectId, service'.FitsTaskObject objectId ↔ service.FitsTaskObject objectId)
      (fun _ _ ↦ ¬ service.Revisable object.objectId object.objectKind) service := by
  rw [reviseTaskServiceObject, if_neg (not_not.mpr hkind)]
  simp only [ensures_bind, ensures_read]
  refine ensures_ofExcept.mpr ⟨fun current hcurrent ↦ ?_, fun error hunknown ↦ ?_⟩
  · obtain ⟨slot, entry, hlookup, rfl⟩ := currentRecord_eq_ok_iff.mp hcurrent
    have hrevisable : service.Revisable object.objectId object.objectKind ↔
        entry.object.objectKind = object.objectKind ∧
          service.revisions.Takes service.nextTimestampTicks entry := by
      simp [Revisable, hlookup]
    rw [hrevisable, ensures_ite]
    refine ⟨fun hother hboth ↦ hother hboth.1, fun hsame ↦ ?_⟩
    exact (ensures_replaceRecord_takes h caller hlookup).mono
      (fun _ _ htakes ↦ ⟨⟨not_not.mp hsame, htakes.1⟩, htakes.2⟩) fun _ _ hfull hboth ↦ hfull hboth.2
  · rintro ⟨slot, entry, hlookup, -⟩
    rw [currentRecord_eq_ok_iff.mpr ⟨slot, entry, hlookup, rfl⟩] at hunknown
    cases hunknown

end ObjectService

/-! ### Steps -/

section Steps

variable {objects : ObjectService} (h : objects.Reachable) (caller : TaskCaller) {objectId : UInt64}
  {kind : ObjectKind} {fields : List (UInt16 × Bytes)}

include h

theorem ensures_createRecord_fits (hbuilt : ∃ record, recordWith objectId kind fields = .ok record)
    (hkind : isTaskServiceKind kind = true) :
    Ensures (createRecord caller (recordWith objectId kind fields))
      (fun _ _ ↦ objects.FitsTaskObject ⟨objectId⟩) (fun _ _ ↦ ¬ objects.FitsTaskObject ⟨objectId⟩)
      objects := by
  obtain ⟨records, hholds, -⟩ := h.agrees
  obtain ⟨record, hrecord⟩ := hbuilt
  obtain ⟨hid, rfl, -⟩ := recordWith_eq_ok hrecord
  rw [createRecord, hrecord, ensures_bind, ensures_ofExcept_ok, onObjectService, ensures_within, ← hid]
  exact (ObjectService.ensures_createTaskServiceObject_fits hholds caller.process record).mono
    (fun _ _ hfits ↦ hfits) fun _ _ hfull ↦ hfull.1 hkind

theorem ensures_reviseRecord_revisable (hbuilt : ∃ record, recordWith objectId kind fields = .ok record)
    (hkind : isTaskServiceKind kind = true) :
    Ensures (reviseRecord caller (recordWith objectId kind fields))
      (fun _ objects' ↦ objects.Revisable ⟨objectId⟩ kind ∧
        ∀ other, objects'.FitsTaskObject other ↔ objects.FitsTaskObject other)
      (fun _ _ ↦ ¬ objects.Revisable ⟨objectId⟩ kind) objects := by
  obtain ⟨records, hholds, -⟩ := h.agrees
  obtain ⟨record, hrecord⟩ := hbuilt
  obtain ⟨hid, rfl, -⟩ := recordWith_eq_ok hrecord
  rw [reviseRecord, hrecord, ensures_bind, ensures_ofExcept_ok, ensures_bind, onObjectService,
    ensures_within, ← hid]
  exact ObjectService.ensures_reviseTaskServiceObject_revisable hholds caller.process hkind

end Steps

/-! ### Transitions -/

/-- A task takes another status: it is stored with a title, the history takes another revision of it, and the
event that says so fits. -/
structure TakesStatus (objects : ObjectService) (taskId : UInt64) : Prop where
  stored : ∃ record, objects.taskServiceObject taskId = some record ∧ record.objectKind = .task ∧
    taskTitleHash record ≠ none
  revisable : objects.Revisable ⟨taskId⟩ .task
  event_fits : objects.FitsTaskObject ⟨allocateObjectId objects eventIdBase⟩

/-- The next identity depends on the identities only. -/
theorem allocateObjectId_congr {before after : ObjectService} (h : after.taskServiceObjects.map
    TypedObjectRecord.objectId = before.taskServiceObjects.map TypedObjectRecord.objectId) (base : UInt64) :
    allocateObjectId after base = allocateObjectId before base := by
  have hfold (objects : ObjectService) : allocateObjectId objects base =
      (objects.taskServiceObjects.map TypedObjectRecord.objectId).foldl (fun next objectId ↦
        if objectId.raw ≥ base ∧ objectId.raw < base + idSpace ∧ objectId.raw ≥ next then objectId.raw + 1
        else next) base := by
    rw [List.foldl_map]
    rfl
  rw [hfold, hfold, h]

theorem ensures_setTaskStatusOn_takes {objects : ObjectService} (h : objects.Reachable)
    (caller : TaskCaller) (taskId : UInt64) (status : TaskStatus) :
    Ensures (setTaskStatusOn caller taskId status)
      (fun _ objects' ↦ TakesStatus objects taskId ↔
        objects'.FitsTaskObject ⟨allocateObjectId objects eventIdBase⟩)
      (fun _ _ ↦ ¬ TakesStatus objects taskId) objects := by
  rw [setTaskStatusOn, ensures_bind, ensures_read]
  cases hfound : objects.taskServiceObject taskId with
  | none =>
    rintro ⟨⟨_, hstored, -⟩, -⟩
    rw [hfound] at hstored
    cases hstored
  | some found =>
    have hstored {record : TypedObjectRecord} (hrecord : objects.taskServiceObject taskId = some record) :
        record = found := Option.some.inj (hrecord.symm.trans hfound)
    rw [ensures_ite]
    refine ⟨?_, fun hkind ↦ ?_⟩
    · rintro hkind ⟨⟨record, hrecord, htask, -⟩, -⟩
      exact hkind (hstored hrecord ▸ htask)
    cases htitle : taskTitleHash found with
    | none =>
      rintro ⟨⟨record, hrecord, -, hnone⟩, -⟩
      exact hnone (hstored hrecord ▸ htitle)
    | some titleHash =>
      refine (ensures_reviseRecord_revisable h caller ⟨_, rfl⟩ rfl).mono ?_ ?_
      · rintro _ objects' ⟨hrevisable, hsame⟩
        rw [hsame]
        exact ⟨fun htakes ↦ htakes.event_fits, fun hfits ↦ ⟨⟨found, hfound, not_not.mp hkind,
          htitle ▸ Option.some_ne_none titleHash⟩, hrevisable, hfits⟩⟩
      · exact fun _ _ hnot htakes ↦ hnot htakes.revisable

theorem ensures_transitionTaskOn_takes {objects : ObjectService} (h : objects.Reachable)
    (caller : TaskCaller) (taskId : UInt64) (status : TaskStatus) :
    Ensures (TaskService.transitionTaskOn caller taskId status) (fun _ _ ↦ TakesStatus objects taskId)
      (fun _ _ ↦ ¬ TakesStatus objects taskId) objects := by
  rw [TaskService.transitionTaskOn, ensures_bind]
  refine ((ensures_setTaskStatusOn_takes h caller taskId status).and
    (edits_setTaskStatusOn caller taskId status)).mono ?_ fun _ _ hnot ↦ hnot.1
  rintro _ objects' ⟨htakes, hedits⟩
  have hreachable := hedits.reachable h
  have hnext : allocateObjectId objects' eventIdBase = allocateObjectId objects eventIdBase := by
    obtain _ | ⟨⟨⟩ | ⟨-, -, revised⟩, -, -, ⟨⟩⟩ := hedits
    exact allocateObjectId_congr revised.map_objectId _
  rw [htakes, ← hnext]
  simp only [appendEventOn, ensures_bind, ensures_read, ensures_pure]
  exact ensures_createRecord_fits hreachable caller ⟨_, rfl⟩ rfl

/-- A transition succeeds exactly when the token gives the right to it and the task takes another status. -/
theorem TaskService.ensures_transitionTask_takes {service : TaskService} (h : service.objects.Reachable)
    (caller : TaskCaller) (token : PackedCapability) (taskId : UInt64) (status : TaskStatus) :
    Ensures (transitionTask caller token taskId status)
      (fun _ _ ↦ service.authority.validate caller token taskRightControlState = .ok () ∧
        TakesStatus service.objects taskId)
      (fun _ _ ↦ ¬ (service.authority.validate caller token taskRightControlState = .ok () ∧
        TakesStatus service.objects taskId)) service := by
  simp only [transitionTask, validate, ensures_bind, ensures_read]
  refine ensures_ofExcept.mpr ⟨fun _ hvalid ↦ ?_, fun _ hdenied hmay ↦ ?_⟩
  · rw [onStaged, ensures_within, ensures_staged]
    exact (ensures_transitionTaskOn_takes h caller taskId status).mono
      (fun _ _ htakes ↦ ⟨hvalid, htakes⟩) fun _ _ hnot hmay ↦ hnot hmay.2
  · rw [hdenied] at hmay
    cases hmay.1

end Pythos.Core
