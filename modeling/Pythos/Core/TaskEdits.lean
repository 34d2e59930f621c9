import Pythos.Core.ObjectServiceTables
import Pythos.Core.TaskService

/-!
# What the task service does to the stored records

A step of the task service creates one record under a new identity, or revises one record. Both are stated
about the list of the stored records in the order of their slots: `Created` inserts a record, `Revised`
exchanges one for another of the same identity. The operations are sequences of such edits, whatever the
other tables of the object service hold.
-/

namespace Pythos.Core

open Foundation Shared Stateful

/-! ### Fields of records -/

/-- The sixteen bytes that a field keeps of its value. -/
def padded (value : Bytes) : Bytes := value ++ zeros (fieldValueCapacity - value.length)

theorem TypedObjectField.new_eq_ok {fieldId fieldVersion : UInt16} {value : Bytes}
    {field : TypedObjectField} (h : TypedObjectField.new fieldId fieldVersion value = .ok field) :
    field.fieldId = fieldId ∧ field.value.toList = padded value := by
  unfold TypedObjectField.new at h
  split_ifs at h
  obtain rfl := Except.ok.inj h
  exact ⟨rfl, rfl⟩

/-- A field holds an entry of a field list. -/
def HoldsEntry (entry : UInt16 × Bytes) (field : TypedObjectField) : Prop :=
  field.fieldId = entry.1 ∧ field.value.toList = padded entry.2

theorem pushFields_eq_ok {fields : List (UInt16 × Bytes)} :
    ∀ {start record : TypedObjectRecord}, fields.foldlM (fun record entry ↦ do
        let field ← TypedObjectField.new entry.1 1 entry.2
        record.pushField field) start = .ok record →
      record.objectId = start.objectId ∧ record.objectKind = start.objectKind ∧
        ∃ added, record.fields = start.fields ++ added ∧ List.Forall₂ HoldsEntry fields added := by
  induction fields with
  | nil =>
    intro start record h
    obtain rfl := Except.ok.inj h
    exact ⟨rfl, rfl, [], (List.append_nil _).symm, .nil⟩
  | cons entry fields ih =>
    intro start record h
    rw [List.foldlM_cons, bind_eq_ok_iff] at h
    obtain ⟨next, hstep, hrest⟩ := h
    obtain ⟨field, hfield, hpush⟩ := bind_eq_ok_iff.mp hstep
    obtain ⟨hid, hkind, hfields⟩ := TypedObjectRecord.pushField_eq_ok hpush
    obtain ⟨hid', hkind', added, hadded, hholds⟩ := ih hrest
    refine ⟨hid'.trans hid, hkind'.trans hkind, field :: added, ?_,
      .cons (TypedObjectField.new_eq_ok hfield) hholds⟩
    rw [hadded, hfields, List.append_assoc, List.singleton_append]

variable {record : TypedObjectRecord} {before after : List TypedObjectRecord}

/-- The fields of a built record are the given ones, in order. -/
theorem recordWith_eq_ok {objectId : UInt64} {kind : ObjectKind} {fields : List (UInt16 × Bytes)}
    (h : recordWith objectId kind fields = .ok record) :
    record.objectId = ⟨objectId⟩ ∧ record.objectKind = kind ∧
      List.Forall₂ HoldsEntry fields record.fields := by
  unfold recordWith Except.mapError at h
  dsimp only at h
  split at h
  · cases h
  · rename_i built hbuilt
    obtain rfl := Except.ok.inj h
    obtain ⟨hid, hkind, added, hadded, hholds⟩ := pushFields_eq_ok hbuilt
    refine ⟨hid, hkind, ?_⟩
    rw [hadded]
    exact hholds

theorem padded_field {value : Bytes} {width : ℕ} (h : value.length = width) :
    field (padded value) 0 width = value := by
  rw [padded, field, List.drop_zero, ← h, List.take_left]

/-- A task record keeps its status. -/
theorem taskRecord_eq_ok {taskId titleHash : UInt64} {status : TaskStatus}
    {fingerprint : TaskFingerprint}
    (h : taskRecord taskId status titleHash fingerprint = .ok record) :
    record.objectId = ⟨taskId⟩ ∧ record.objectKind = .task ∧ taskStatus record = some status := by
  obtain ⟨hid, hkind, hfields⟩ := recordWith_eq_ok h
  refine ⟨hid, hkind, ?_⟩
  obtain ⟨first, rest, ⟨hfirst, hvalue⟩, -, hrecord⟩ := List.forall₂_cons_left_iff.mp hfields
  have hstatus : fieldValue record fieldTaskStatus = some (padded (u16Bytes status.code)) := by
    rw [fieldValue, hrecord, List.find?_cons_of_pos (by simpa using hfirst), Option.map_some, hvalue]
  rw [taskStatus, hstatus, Option.bind_eq_bind, Option.bind_some,
    u16At_eq (padded_field (length_u16Bytes status.code))]
  cases status <;> rfl

/-- A task record is active exactly when its status says so. -/
theorem isActiveTask_taskRecord {taskId titleHash : UInt64} {status : TaskStatus}
    {fingerprint : TaskFingerprint}
    (h : taskRecord taskId status titleHash fingerprint = .ok record) :
    isActiveTask record = true ↔ status = .active := by
  obtain ⟨-, hkind, hstatus⟩ := taskRecord_eq_ok h
  simp [isActiveTask, hkind, hstatus]

theorem kind_of_isActiveTask (h : isActiveTask record = true) : record.objectKind = .task := by
  simp_all [isActiveTask]

/-! ### Edits -/

/-- The record with an identity in a list of records. -/
def recordAt (records : List TypedObjectRecord) (objectId : UInt64) : Option TypedObjectRecord :=
  records.find? fun record ↦ record.objectId = ⟨objectId⟩

theorem taskServiceObject_eq (objects : ObjectService) (objectId : UInt64) :
    objects.taskServiceObject objectId = recordAt objects.taskServiceObjects objectId := by
  have hfound := Table.lookup_map_snd objects.objects.objects
    fun slot ↦ slot.object.objectId = (⟨objectId⟩ : ObjectId)
  rw [recordAt, ObjectService.taskServiceObjects, List.find?_map]
  have hmap : objects.taskServiceObject objectId
      = ((objects.objects.lookup ⟨objectId⟩).map Prod.snd).map DynamicObjectRecord.object := by
    rw [Option.map_map]
    rfl
  rw [hmap, DynamicObjectStore.lookup, hfound]
  rfl

/-- A record with a new identity is inserted. -/
structure Created (record : TypedObjectRecord) (before after : List TypedObjectRecord) : Prop where
  fresh : record.objectId ∉ before.map TypedObjectRecord.objectId
  inserted : ∃ left right, before = left ++ right ∧ after = left ++ record :: right

/-- The record with an identity is exchanged. -/
structure Revised (old record : TypedObjectRecord) (before after : List TypedObjectRecord) : Prop where
  objectId_eq : record.objectId = old.objectId
  found : recordAt before record.objectId.raw = some old
  exchanged : ∃ left right, before = left ++ old :: right ∧ after = left ++ record :: right

theorem Created.perm (h : Created record before after) : after.Perm (record :: before) := by
  obtain ⟨left, right, rfl, rfl⟩ := h.inserted
  exact List.perm_middle

theorem Created.nodup (h : Created record before after)
    (hnodup : (before.map TypedObjectRecord.objectId).Nodup) :
    (after.map TypedObjectRecord.objectId).Nodup := by
  rw [(h.perm.map _).nodup_iff, List.map_cons, List.nodup_cons]
  exact ⟨h.fresh, hnodup⟩

theorem Revised.map_objectId {old : TypedObjectRecord} (h : Revised old record before after) :
    after.map TypedObjectRecord.objectId = before.map TypedObjectRecord.objectId := by
  obtain ⟨left, right, rfl, rfl⟩ := h.exchanged
  simp [h.objectId_eq]

theorem Created.mem_iff (h : Created record before after) {other : TypedObjectRecord} :
    other ∈ after ↔ other = record ∨ other ∈ before :=
  h.perm.mem_iff.trans List.mem_cons

/-- The records after a revision are the new one and those of other identities. -/
theorem Revised.mem_iff {old other : TypedObjectRecord} (h : Revised old record before after)
    (hdistinct : (before.map TypedObjectRecord.objectId).Nodup) :
    other ∈ after ↔ other = record ∨ other ∈ before ∧ other.objectId ≠ record.objectId := by
  have hid := h.objectId_eq
  obtain ⟨left, right, rfl, rfl⟩ := h.exchanged
  rw [List.map_append, List.map_cons, List.nodup_middle, List.nodup_cons, ← List.map_append, ← hid]
    at hdistinct
  have hne (hrest : other ∈ left ++ right) : other.objectId ≠ record.objectId :=
    fun heq ↦ hdistinct.1 (heq ▸ List.mem_map_of_mem hrest)
  rw [List.perm_middle.mem_iff, List.perm_middle.mem_iff, List.mem_cons, List.mem_cons]
  constructor
  · rintro (rfl | hrest)
    · exact Or.inl rfl
    · exact Or.inr ⟨Or.inr hrest, hne hrest⟩
  · rintro (rfl | ⟨rfl | hrest, hother⟩)
    · exact Or.inl rfl
    · exact absurd hid.symm hother
    · exact Or.inr hrest

/-- A record is found as before beside a new one, whose identity is fresh. -/
theorem Created.recordAt_eq (h : Created record before after) {objectId : UInt64}
    {found : TypedObjectRecord} (hfound : recordAt before objectId = some found) :
    recordAt after objectId = some found := by
  have hne : record.objectId ≠ ⟨objectId⟩ := by
    intro heq
    have hid : found.objectId = ⟨objectId⟩ := by simpa using List.find?_some hfound
    exact h.fresh (heq.trans hid.symm ▸ List.mem_map_of_mem (List.mem_of_find?_eq_some hfound))
  obtain ⟨left, right, rfl, rfl⟩ := h.inserted
  rw [recordAt, List.find?_append] at hfound ⊢
  rw [List.find?_cons_of_neg (by simpa using hne)]
  exact hfound

/-- A revision within a kind keeps the kind of every record. -/
theorem Revised.exists_recordAt {old found : TypedObjectRecord} (h : Revised old record before after)
    (hkind : record.objectKind = old.objectKind) {objectId : UInt64}
    (hfound : recordAt before objectId = some found) :
    ∃ found', recordAt after objectId = some found' ∧ found'.objectKind = found.objectKind := by
  have hid := h.objectId_eq
  obtain ⟨left, right, rfl, rfl⟩ := h.exchanged
  rw [recordAt, List.find?_append, List.find?_cons] at hfound ⊢
  rw [hid]
  cases hleft : left.find? fun record ↦ record.objectId = ⟨objectId⟩ with
  | some first =>
    rw [hleft] at hfound
    exact ⟨found, hfound, rfl⟩
  | none =>
    rw [hleft] at hfound
    by_cases hold : old.objectId = ⟨objectId⟩
    · simp only [hold, decide_true, Option.none_or, Option.some.injEq] at hfound ⊢
      exact ⟨record, rfl, hfound ▸ hkind⟩
    · simp only [hold, decide_false, Option.none_or] at hfound ⊢
      exact ⟨found, hfound, rfl⟩

/-! ### The edits of the steps -/

namespace ObjectService

variable {service : ObjectService}

/-- A created object goes into a free slot. -/
theorem ensures_store_createObject (store : DynamicObjectStore) (object : TypedObjectRecord) :
    Ensures (DynamicObjectStore.createObject object)
      (fun _ store' ↦ Created object (store.objects.live.map DynamicObjectRecord.object)
        (store'.objects.live.map DynamicObjectRecord.object))
      (fun _ _ ↦ True) store := by
  refine (DynamicObjectStore.ensures_createObject_slot store object).mono ?_ fun _ _ _ ↦ trivial
  rintro extent store' ⟨hfresh, slot, hfree, -, hobjects⟩
  refine ⟨by rwa [List.map_map], ?_⟩
  obtain ⟨left, right, hbefore, hafter⟩ := store.objects.exists_live_put slot { object, extent }
  rw [Table.freeIndex_eq_some hfree] at hbefore
  refine ⟨left.map DynamicObjectRecord.object, right.map DynamicObjectRecord.object, ?_, ?_⟩
  · rw [hbefore]
    simp
  · rw [hobjects, hafter]
    simp

theorem ensures_store_replaceObject (store : DynamicObjectStore) (object : TypedObjectRecord) :
    Ensures (DynamicObjectStore.replaceObject object)
      (fun _ store' ↦ ∃ old, Revised old object (store.objects.live.map DynamicObjectRecord.object)
        (store'.objects.live.map DynamicObjectRecord.object))
      (fun _ _ ↦ True) store := by
  unfold DynamicObjectStore.replaceObject
  rw [ensures_bind, ensures_read]
  cases hlookup : store.lookup object.objectId with
  | none => trivial
  | some found =>
    obtain ⟨slot, record⟩ := found
    obtain ⟨hslot, hid⟩ := DynamicObjectStore.lookup_eq_some hlookup
    refine ensures_modify.mpr ⟨record.object, hid.symm, ?_, ?_⟩
    · have hfound := Table.lookup_map_snd store.objects fun slot ↦ slot.object.objectId = object.objectId
      rw [← DynamicObjectStore.lookup, hlookup] at hfound
      rw [recordAt, List.find?_map]
      exact congrArg (Option.map DynamicObjectRecord.object) hfound.symm
    · obtain ⟨left, right, hbefore, hafter⟩ := store.objects.exists_live_put slot { record with object }
      rw [hslot] at hbefore
      refine ⟨left.map DynamicObjectRecord.object, right.map DynamicObjectRecord.object, ?_, ?_⟩
      · rw [hbefore]
        simp
      · rw [hafter]
        simp

/-- A creation that succeeds inserts the record; its undo steps run only on the way to a failure. -/
theorem ensures_created (caller : ActiveUserProcess) (object : TypedObjectRecord) :
    Ensures (createTaskServiceObject caller object)
      (fun _ service' ↦ Created object service.taskServiceObjects service'.taskServiceObjects)
      (fun _ _ ↦ True) service := by
  have hquotas {α : Type} (step : Stateful StorageQuotaError StorageQuotaTable α) :
      Preserves (fun service' : ObjectService ↦ service'.objects = service.objects) (onQuotas step) :=
    Preserves.within fun _ _ h ↦ h
  rw [createTaskServiceObject, ensures_ite]
  refine ⟨fun _ ↦ trivial, fun _ ↦ ?_⟩
  rw [ensures_bind]
  refine (preserves_ensureStorageQuota hquotas _ service rfl).imp ?_
  intro _ service₁ h₁
  rw [ensures_bind]
  refine (hquotas _ service₁ h₁).imp ?_
  intro _ service₂ h₂
  have hfails (error : ObjectServiceError) (service : ObjectService) (undo : Program Unit)
      (post : Unit → ObjectService → Prop) :
      Ensures (undo >>= fun _ ↦ fail error) post (fun _ _ ↦ True) service := by
    rw [ensures_bind]
    exact ensures_of_forall (fun _ _ ↦ trivial) fun _ _ ↦ trivial
  rw [storeInShellWorkspace, ensures_bind, ensures_handle, ensures_bind, onObjects, ensures_within]
  refine (ensures_store_createObject service₂.objects object).mono ?_ fun _ _ _ ↦ hfails _ _ _ _
  intro _ objects hcreated
  rw [h₂] at hcreated
  -- What follows does not touch the store.
  have hrelationships (step : Stateful RelationshipError ObjectServiceRelationshipStore Unit) :
      Preserves (fun service : ObjectService ↦ service.objects = objects) (onRelationships step) :=
    Preserves.within fun _ _ h ↦ h
  have hnever (error : ObjectServiceError) (service : ObjectService) (_ : service.objects = objects) : True :=
    trivial
  rw [ensures_pure, ensures_bind, ensures_handle]
  refine (hrelationships _ _ rfl).mono ?_ fun _ _ _ ↦ ?_
  · intro _ service₃ h₃
    refine (hrelationships _).andThen hnever h₃ fun _ service₄ h₄ ↦ ?_
    simp only [takeTimestamp, onRevisions, ensures_bind, ensures_read, ensures_modify, ensures_pure,
      ensures_within]
    refine ensures_of_forall (fun _ _ ↦ ?_) fun _ _ ↦ trivial
    rw [taskServiceObjects, taskServiceObjects, h₄]
    exact hcreated
  · rw [ensures_bind]
    exact ensures_of_forall (fun _ _ ↦ hfails _ _ _ _) fun _ _ ↦ trivial

/-- A revision that succeeds exchanges the record. -/
theorem ensures_revised (caller : ActiveUserProcess) (object : TypedObjectRecord) :
    Ensures (reviseTaskServiceObject caller object)
      (fun _ service' ↦ ∃ old, Revised old object service.taskServiceObjects service'.taskServiceObjects)
      (fun _ _ ↦ True) service := by
  rw [reviseTaskServiceObject, ensures_ite]
  refine ⟨fun _ ↦ trivial, fun _ ↦ ?_⟩
  simp only [ensures_bind, ensures_read]
  refine ensures_ofExcept.mpr ⟨fun current _ ↦ ?_, fun _ _ ↦ trivial⟩
  rw [ensures_ite]
  refine ⟨fun _ ↦ trivial, fun _ ↦ ?_⟩
  rw [replaceRecord, ensures_staged, ensures_bind, onObjects, ensures_within]
  refine (ensures_store_replaceObject service.objects object).imp ?_
  rintro _ objects ⟨old, hrevised⟩
  simp only [ensures_bind, ensures_read]
  rw [onRevisions, ensures_within]
  exact ensures_of_forall (fun _ _ ↦ ⟨old, hrevised⟩) fun _ _ ↦ trivial

end ObjectService

section Steps

variable {objects : ObjectService} (caller : TaskCaller)

theorem ensures_createRecord (result : Except TaskServiceError TypedObjectRecord) :
    Ensures (createRecord caller result)
      (fun _ objects' ↦ ∃ record, result = .ok record ∧
        Created record objects.taskServiceObjects objects'.taskServiceObjects ∧
          (ObjectService.createTaskServiceObject caller.process record objects).2 = objects')
      (fun _ _ ↦ True) objects := by
  rw [createRecord, ensures_bind]
  refine ensures_ofExcept.mpr ⟨fun record hrecord ↦ ?_, fun _ _ ↦ trivial⟩
  rw [onObjectService, ensures_within]
  exact ((ObjectService.ensures_created caller.process record).and ensures_final).imp
    fun _ _ hcreated ↦ ⟨record, hrecord, hcreated⟩

theorem ensures_reviseRecord (result : Except TaskServiceError TypedObjectRecord) :
    Ensures (reviseRecord caller result)
      (fun _ objects' ↦ ∃ old record, result = .ok record ∧
        Revised old record objects.taskServiceObjects objects'.taskServiceObjects ∧
          (ObjectService.reviseTaskServiceObject caller.process record objects).2 = objects')
      (fun _ _ ↦ True) objects := by
  rw [reviseRecord, ensures_bind]
  refine ensures_ofExcept.mpr ⟨fun record hrecord ↦ ?_, fun _ _ ↦ trivial⟩
  rw [ensures_bind, onObjectService, ensures_within]
  refine ((ObjectService.ensures_revised caller.process record).and ensures_final).imp ?_
  rintro _ _ ⟨⟨old, hrevised⟩, hfinal⟩
  exact ⟨old, record, hrecord, hrevised, hfinal⟩

end Steps

namespace TaskService

variable {service : TaskService}

/-- A mutating call does to the objects what its staged program does, or leaves the service as it was. -/
theorem ensures_call {α : Type} {program : TaskProgram α} {post : α → ObjectService → Prop}
    (caller : TaskCaller) (token : PackedCapability) (requiredRights : UInt64)
    (h : Ensures program post (fun _ _ ↦ True) service.objects) :
    Ensures (validate caller token requiredRights >>= fun _ ↦ onStaged program)
      (fun value service' ↦ post value service'.objects) (fun _ service' ↦ service' = service) service := by
  simp only [validate, ensures_bind, ensures_read]
  refine ensures_ofExcept.mpr ⟨fun _ _ ↦ ?_, fun _ _ ↦ rfl⟩
  rw [onStaged, ensures_within, ensures_staged]
  exact h.mono (fun _ _ hpost ↦ hpost) fun _ _ _ ↦ rfl

/-- A condition on the objects that a mutating call keeps. -/
theorem holds_after_call {α : Type} {program : TaskProgram α} (holds : ObjectService → Prop)
    (caller : TaskCaller) (token : PackedCapability) (requiredRights : UInt64)
    (h : Ensures program (fun _ objects ↦ holds objects) (fun _ _ ↦ True) service.objects)
    (hsame : holds service.objects) :
    holds ((validate caller token requiredRights >>= fun _ ↦ onStaged program) service).2.objects := by
  rcases (ensures_call caller token requiredRights h).cases with ⟨_, -, hpost⟩ | ⟨_, -, heq⟩
  · exact hpost
  · rw [heq]
    exact hsame

/-- A grant only changes the authority. The pair is generalised so that no token is computed. -/
theorem objects_grantStewardProposalCapability (caller : TaskCaller) (service : TaskService) :
    (grantStewardProposalCapability caller service).2.objects = service.objects := by
  unfold grantStewardProposalCapability
  generalize service.authority.issueExtra caller stewardTaskRights taskCapabilityStewardDomain = granted
  cases granted
  rfl

/-- A read of the context returns the summary, which is recorded for the process of the steward. -/
theorem ensures_readContextSummary {post : ObjectService → Prop} (caller : TaskCaller)
    (token : PackedCapability)
    (h : Ensures (recordRelevanceOn caller (contextSummary service.objects)) (fun _ objects ↦ post objects)
      (fun _ _ ↦ True) service.objects) :
    Ensures (readContextSummary caller token)
      (fun summary service' ↦ summary = contextSummary service.objects ∧
        if caller = stewardProcess then post service'.objects else service' = service)
      (fun _ service' ↦ service' = service) service := by
  simp only [readContextSummary, validate, ensures_bind, ensures_read]
  refine ensures_ofExcept.mpr ⟨fun _ _ ↦ ?_, fun _ _ ↦ rfl⟩
  rw [ensures_ite]
  refine ⟨fun hsteward ↦ ?_, fun hother ↦ ⟨rfl, by rw [if_neg hother]⟩⟩
  rw [ensures_bind, onStaged, ensures_within, ensures_staged]
  exact h.mono (fun _ _ hpost ↦ ⟨rfl, by rwa [if_pos hsteward]⟩) fun _ _ _ ↦ rfl

/-- A read of the context keeps what the record of its summary keeps. -/
theorem holds_after_readContextSummary (holds : ObjectService → Prop) (caller : TaskCaller)
    (token : PackedCapability)
    (h : ∀ summary, Ensures (recordRelevanceOn caller summary) (fun _ objects ↦ holds objects)
      (fun _ _ ↦ True) service.objects) (hsame : holds service.objects) :
    holds (readContextSummary caller token service).2.objects := by
  rcases (ensures_readContextSummary caller token (h _)).cases with ⟨_, -, -, hpost⟩ | ⟨_, -, heq⟩
  · split_ifs at hpost with hsteward
    · exact hpost
    · rwa [hpost]
  · rwa [heq]

/-- A call that only reads keeps the objects. -/
theorem objects_read {α : Type} (caller : TaskCaller) (token : PackedCapability) (requiredRights : UInt64)
    (result : ObjectService → Except TaskServiceError α) (service : TaskService) :
    ((do
      validate caller token requiredRights
      let service ← Stateful.read
      ofExcept (result service.objects) : Program α) service).2.objects = service.objects := by
  suffices hread : Ensures _ (fun _ service' ↦ service'.objects = service.objects)
      (fun _ service' ↦ service'.objects = service.objects) service from hread.final
  simp only [validate, ensures_bind, ensures_read]
  refine ensures_ofExcept.mpr ⟨fun _ _ ↦ ?_, fun _ _ ↦ rfl⟩
  exact ensures_ofExcept.mpr ⟨fun _ _ ↦ rfl, fun _ _ ↦ rfl⟩

end TaskService

end Pythos.Core
