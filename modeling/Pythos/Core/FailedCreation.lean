import Pythos.Core.ObjectServiceAuthority

/-!
# Creations that fail

A creation charges the quota and takes an identity before it stores the object, and a step that fails is
undone by hand. The stored object, its blocks and the charge are given back exactly. The identity is not,
so that a note that does not fit leaves a gap; a note without room for its capability stays stored; and the
first object of the task service leaves the quota that was made for it.
-/

namespace Pythos.Core

open Foundation Shared Stateful

/-! ### Steps that are undone -/

namespace StorageQuotaTable

variable {serviceId : ServiceId} {blocks : UInt64} {table : StorageQuotaTable}

/-- The quota of a service has room for a charge. -/
def HasRoom (serviceId : ServiceId) (blocks : UInt64) (table : StorageQuotaTable) : Prop :=
  ∃ slot record, table.find serviceId = some (slot, record) ∧
    record.usedBlocks.toNat + blocks.toNat < 2 ^ 64 ∧ record.usedBlocks + blocks ≤ record.maxBlocks

/-- The quotas after a charge. -/
def Charges (serviceId : ServiceId) (blocks : UInt64) (table charged : StorageQuotaTable) : Prop :=
  ∃ slot record, table.find serviceId = some (slot, record) ∧
    record.usedBlocks.toNat + blocks.toNat < 2 ^ 64 ∧
      charged = table.put slot { record with usedBlocks := record.usedBlocks + blocks }

theorem ensures_chargeBlocks (serviceId : ServiceId) (blocks : UInt64) (table : StorageQuotaTable) :
    Ensures (chargeBlocks serviceId blocks)
      (fun _ charged ↦ table.HasRoom serviceId blocks ∧ Charges serviceId blocks table charged)
      (fun _ after ↦ ¬ table.HasRoom serviceId blocks ∧ after = table) table := by
  unfold chargeBlocks HasRoom
  rw [ensures_bind, ensures_read]
  cases hfind : table.find serviceId with
  | none => exact ensures_fail.mpr ⟨by simp, rfl⟩
  | some found =>
    obtain ⟨slot, record⟩ := found
    simp only [ensures_ite, ensures_fail, ensures_modify]
    refine ⟨fun hover ↦ ⟨?_, trivial⟩, fun hroom ↦ ⟨fun hfull ↦ ⟨?_, trivial⟩, fun hfits ↦ ⟨?_, ?_⟩⟩⟩
    · rintro ⟨_, _, hfound, hroom, -⟩
      cases hfound
      exact hover hroom
    · rintro ⟨_, _, hfound, -, hfits⟩
      cases hfound
      exact UInt64.not_le.mpr hfull hfits
    · exact ⟨slot, record, rfl, not_not.mp hroom, UInt64.not_lt.mp hfits⟩
    · exact ⟨slot, record, hfind, not_not.mp hroom, rfl⟩

/-- The release of a charge gives the quotas back as they were. -/
theorem Charges.release {charged : StorageQuotaTable} (h : Charges serviceId blocks table charged) :
    Ensures (releaseBlocks serviceId blocks) (fun _ after ↦ after = table)
      (fun _ _ ↦ False) charged := by
  obtain ⟨slot, record, hfind, hroom, rfl⟩ := h
  have hentry := (Table.lookup_eq_some hfind).1
  have hagain : (table.put slot { record with usedBlocks := record.usedBlocks + blocks }).find serviceId =
      some (slot, { record with usedBlocks := record.usedBlocks + blocks }) :=
    Table.lookup_put_of_some hfind (Table.lookup_eq_some hfind).2
  have hused : (record.usedBlocks + blocks).toNat = record.usedBlocks.toNat + blocks.toNat := by
    rw [UInt64.toNat_add, Nat.mod_eq_of_lt hroom]
  have henough : ¬ record.usedBlocks + blocks < blocks := by
    rw [UInt64.lt_iff_toNat_lt, hused]
    omega
  have hback : table.records.put slot (some record) = table.records :=
    hentry ▸ Table.put_getElem table.records slot
  unfold releaseBlocks
  rw [ensures_bind, ensures_read, hagain]
  simp only [ensures_ite, ensures_fail, ensures_modify]
  refine ⟨henough, fun _ ↦ ?_⟩
  rw [put, put, Table.put_put, UInt64.add_sub_cancel]
  exact congrArg mk hback

end StorageQuotaTable

/-- An extent that is freed as it was allocated gives the allocator back as it was. -/
theorem BlockAllocator.free_of_allocate {allocator allocator' : BlockAllocator}
    (hwell : allocator.WellFormed) {blockCount : UInt16} {extent : BlockExtent}
    (h : allocator.allocate blockCount = .ok (extent, allocator')) :
    allocator'.free extent = .ok allocator := by
  obtain ⟨hwell', hdisjoint, htaken, hbase, hcount, hvalid⟩ := allocate_eq_ok hwell h
  have hvalid' : allocator'.validateExtent extent = .ok () := by
    rwa [validateExtent, hcount, ← validateExtent]
  obtain ⟨freed, hfree, hwellFreed, hmembers, hbase', hcount'⟩ := free_of_valid hwell' hvalid'
  have hbitmap : freed.bitmap = allocator.bitmap := by
    refine members_injective ?_
    rw [hmembers, htaken, Finset.union_sdiff_cancel_right hdisjoint]
  have hsame : freed = allocator := by
    have hcommitted : freed.committedBitmap = allocator.committedBitmap := by
      rw [hwellFreed.committed_eq, hwell.committed_eq, hbitmap]
    cases freed
    cases allocator
    simp_all
  rw [hfree, hsame]

/-- The store takes an object: its identity is new, and there are a free slot and a free block. -/
def DynamicObjectStore.Fits (store : DynamicObjectStore) (objectId : ObjectId) : Prop :=
  objectId ∉ store.ids ∧ store.objects.freeIndex ≠ none ∧ ∃ block, store.allocator.FreeRun 1 block

/-- An object is created exactly when it fits, and its deletion gives the store back as it was. -/
theorem DynamicObjectStore.ensures_createObject_undone {store : DynamicObjectStore}
    (hwell : store.WellFormed) (object : TypedObjectRecord) :
    Ensures (createObject object)
      (fun _ created ↦ store.Fits object.objectId ∧ Ensures (deleteObject object.objectId)
        (fun _ after ↦ after = store) (fun _ _ ↦ False) created)
      (fun _ after ↦ ¬ store.Fits object.objectId ∧ after = store) store := by
  have hcases := BlockAllocator.allocate_cases hwell.wellFormed.blockCount_le
    (show 1 ≤ (1 : UInt16).toNat by decide)
  refine (ensures_createObject_slot store object).mono ?_ ?_
  · rintro extent ⟨allocator', objects'⟩ ⟨hnew, slot, hfree, hallocate, rfl⟩
    rw [hallocate] at hcases
    refine ⟨⟨hnew, hfree ▸ Option.some_ne_none slot, _, hcases.2.1⟩, ?_⟩
    have hback : store.objects.put slot none = store.objects :=
      Table.freeIndex_eq_some hfree ▸ Table.put_getElem store.objects slot
    have hfound : lookup ⟨allocator', store.objects.put slot (some { object, extent })⟩
        object.objectId = some (slot, { object, extent }) :=
      Table.lookup_put_of_none slot (lookup_eq_none_iff.mpr hnew) (decide_eq_true rfl)
    have hfreed : allocator'.free extent = .ok store.allocator :=
      BlockAllocator.free_of_allocate hwell.wellFormed hallocate
    unfold deleteObject
    rw [ensures_bind, ensures_read, hfound]
    simp only [ensures_bind, withAllocator, ensures_within,
      ensures_update, ensures_modify, hfreed, Except.map]
    refine ⟨fun value freed heq ↦ ?_, fun error heq ↦ by cases heq⟩
    obtain ⟨-, rfl⟩ := Prod.mk.inj (Except.ok.inj heq)
    rw [Table.put_put, hback]
  · rintro _ _ ⟨rfl, hcause⟩
    refine ⟨?_, rfl⟩
    rintro ⟨hnew, hfree, block, hrun⟩
    rcases hcause with hknown | hnone | ⟨error, hrefused⟩
    · exact hnew hknown
    · exact hfree hnone
    · rw [hrefused] at hcases
      exact hcases block hrun

/-! ### Creations -/

namespace ObjectService

variable {service : ObjectService} {records : List TypedObjectRecord}

/-- The store of the service with an object that can be taken out again. -/
theorem ensures_createObject_undone (h : Holds records service) (object : TypedObjectRecord) :
    Ensures (onObjects (DynamicObjectStore.createObject object))
      (fun _ created ↦ service.objects.Fits object.objectId ∧
        (onObjects (DynamicObjectStore.deleteObject object.objectId) created).2 = service)
      (fun _ after ↦ ¬ service.objects.Fits object.objectId ∧ after = service) service := by
  rw [onObjects, ensures_within]
  refine (DynamicObjectStore.ensures_createObject_undone h.store object).mono ?_ ?_
  · rintro _ objects ⟨hfits, hundone⟩
    have hdeleted : (DynamicObjectStore.deleteObject object.objectId objects).2 = service.objects :=
      (hundone.always fun _ _ hafter ↦ hafter).final
    refine ⟨hfits, ?_⟩
    rw [onObjects, within_snd, hdeleted]
  · rintro _ objects ⟨hfull, rfl⟩
    exact ⟨hfull, rfl⟩

theorem releaseBlocks_of_charges {quotas : StorageQuotaTable} {storageId : ServiceId}
    (h : quotas.Charges storageId 1 service.quotas) :
    (onQuotas (StorageQuotaTable.releaseBlocks storageId 1) service).2 = { service with quotas } := by
  have hreleased : (StorageQuotaTable.releaseBlocks storageId 1 service.quotas).2 = quotas :=
    (h.release.always fun _ _ hafter ↦ hafter).final
  rw [onQuotas, within_snd, hreleased]

/-- An object that the store takes is made known, unless it has the identity of a workspace. -/
theorem Tables.ensures_insertObject_root {object : TypedObjectRecord}
    (h : Tables service (object :: records) (idsOf records) (idsOf records) records)
    (hnew : object.objectId ∉ idsOf records) :
    Ensures (onRelationships (BoundedRelationshipStore.insertObject object))
      (fun _ _ ↦ object.objectId ∉ workspaceRoots) (fun _ _ ↦ object.objectId ∈ workspaceRoots)
      service := by
  rw [onRelationships, ensures_within]
  refine (BoundedRelationshipStore.ensures_insertObject service.relationships object).mono ?_ ?_
  · rintro _ _ ⟨hunknown, -⟩ hroot
    exact hunknown (h.known_perm.mem_iff.mpr (List.mem_append_left _ hroot))
  · rintro _ _ ⟨-, hknown | hfull⟩
    · exact (List.mem_append.mp (h.known_perm.mem_iff.mp hknown)).resolve_right hnew
    · -- the table has two slots more than the store, for the workspaces
      have hlength := h.known_perm.length_eq
      have hstored := h.length_stored_le
      rw [BoundedRelationshipStore.ids, List.length_map, List.length_append, idsOf, List.length_map]
        at hlength
      rw [List.length_cons] at hstored
      have hroots : workspaceRoots.length = 2 := rfl
      have hcapacity : objectServiceRelationshipObjects = maxDynamicObjects + 2 := rfl
      omega

/-- An object is stored exactly when it fits and has not the identity of a workspace. Otherwise it is given
back with its charge. The steps after it is made known cannot fail. -/
theorem ensures_storeInShellWorkspace_fits (h : Holds records service) {quotas : StorageQuotaTable}
    {storageId : ServiceId} (hcharges : quotas.Charges storageId 1 service.quotas)
    (caller : ActiveUserProcess) (object : TypedObjectRecord) :
    Ensures (storeInShellWorkspace storageId caller object)
      (fun _ _ ↦ service.objects.Fits object.objectId ∧ object.objectId ∉ workspaceRoots)
      (fun _ after ↦ ¬ (service.objects.Fits object.objectId ∧ object.objectId ∉ workspaceRoots) ∧
        after = { service with quotas }) service := by
  have hrelease := releaseBlocks_of_charges hcharges
  rw [storeInShellWorkspace, ensures_bind, ensures_handle, ensures_bind]
  refine ((Tables.createObject h object).and (ensures_createObject_undone h object)).mono ?_ ?_
  · rintro _ service₁ ⟨⟨h₁, hnew⟩, hfits, hundone⟩
    rw [ensures_pure, ensures_bind, ensures_handle]
    refine ((h₁.insertObject object).and (h₁.ensures_insertObject_root hnew)).mono ?_ ?_
    · rintro _ service₂ ⟨h₂, hroot⟩
      exact (h₂.placeAndRecord hnew List.mem_cons_self caller.serviceId).always
        fun _ _ _ ↦ ⟨hfits, hroot⟩
    · rintro error service₂ ⟨rfl, hroot⟩
      simp only [ensures_bind, ensures_attempt, ensures_fail]
      rw [hundone, hrelease]
      exact ⟨fun hboth ↦ hboth.2 hroot, rfl⟩
  · rintro error service₁ ⟨-, hfull, rfl⟩
    simp only [ensures_bind, ensures_attempt, ensures_fail]
    exact ⟨fun hboth ↦ hfull hboth.1, hrelease⟩

/-! #### Notes -/

/-- The service refuses a note before it takes an identity: it is no note, the caller may not write to the
workspace, or the quota has no room. -/
def RefusesNote (service : ObjectService) (caller : ActiveUserProcess) (workspace : PackedCapability)
    (kind : ObjectKind) : Prop :=
  kind ≠ .note ∨ service.validateWorkspace caller workspace .write ≠ .ok () ∨
    ¬ service.quotas.HasRoom caller.serviceId 1

/-- A stored note keeps the identity that it has taken, also if a step fails. -/
theorem storeInShellWorkspace_keepsIdentity (id : UInt64) (storageId : ServiceId)
    (caller : ActiveUserProcess) (object : TypedObjectRecord) :
    Preserves (fun service : ObjectService ↦ service.nextShellNoteId = id)
      (storeInShellWorkspace storageId caller object) := by
  have hobjects {α : Type} (step : Stateful DynamicObjectError DynamicObjectStore α) :
      Preserves (fun service ↦ service.nextShellNoteId = id) (onObjects step) :=
    Preserves.within fun _ _ h ↦ h
  have hrelease : Preserves (fun service ↦ service.nextShellNoteId = id)
      (onQuotas (StorageQuotaTable.releaseBlocks storageId 1)) :=
    Preserves.within fun _ _ h ↦ h
  refine (Preserves.handle ?_ ?_).bind fun _ ↦ (Preserves.handle ?_ ?_).bind fun _ ↦ ?_
  · exact (hobjects _).bind fun _ ↦ .pure _
  · exact fun error ↦ hrelease.attempt.bind fun _ ↦ .fail error
  · exact Preserves.within fun _ _ h ↦ h
  · exact fun error ↦ (hobjects _).attempt.bind fun _ ↦ hrelease.attempt.bind fun _ ↦ .fail error
  · refine Preserves.bind (Preserves.within fun _ _ h ↦ h) fun _ ↦ ?_
    exact Preserves.bind (fun _ h ↦ h) fun _ ↦ Preserves.within fun _ _ h ↦ h

/-- A note that fails is refused and leaves the service as it was, or has taken an identity. -/
theorem ensures_createObject_failed (caller : ActiveUserProcess) (workspace : PackedCapability)
    (kind : ObjectKind) :
    Ensures (createObject caller workspace kind) (fun _ _ ↦ True)
      (fun _ after ↦ (service.RefusesNote caller workspace kind ∧ after = service) ∨
        (¬ service.RefusesNote caller workspace kind ∧
          after.nextShellNoteId = service.nextShellNoteId + 1)) service := by
  rw [createObject, ensures_ite]
  refine ⟨fun hkind ↦ .inl ⟨.inl hkind, rfl⟩, fun hkind ↦ ?_⟩
  simp only [ensures_bind, ensures_read]
  refine ensures_ofExcept.mpr ⟨fun _ hvalid ↦ ?_, fun error hdenied ↦
    .inl ⟨.inr (.inl (by simp [hdenied])), rfl⟩⟩
  rw [onQuotas, ensures_within]
  refine (StorageQuotaTable.ensures_chargeBlocks caller.serviceId 1 service.quotas).mono ?_ ?_
  · rintro _ quotas ⟨hroom, -⟩
    have hnot : ¬ service.RefusesNote caller workspace kind := by
      rintro (h | h | h)
      · exact hkind h
      · exact h hvalid
      · exact h hroom
    simp only [takeNoteId, ensures_bind, ensures_read, ensures_modify, ensures_pure]
    refine (storeInShellWorkspace_keepsIdentity (service.nextShellNoteId + 1) caller.serviceId caller _
      _ rfl).mono ?_ fun _ _ hfailed ↦ .inr ⟨hnot, hfailed⟩
    intro _ stored hstored
    rw [grantObjectCapability, ensures_bind, onCapabilities, ensures_within]
    exact ensures_of_forall (fun _ _ ↦ trivial) fun _ _ ↦ .inr ⟨hnot, hstored⟩
  · rintro _ quotas ⟨hfull, rfl⟩
    exact .inl ⟨.inr (.inr hfull), rfl⟩

/-! #### Objects of the task service -/

/-- The task service has its quota, or there is no room for one. -/
def TaskQuotaSettled (service : ObjectService) : Prop :=
  match service.quotas.find taskServiceStorageId with
  | some (_, record) => UInt64.ofNat maxDynamicObjects ≤ record.maxBlocks
  | none => service.quotas.records.freeIndex = none

/-- The task service has a quota with room for a block, at the limit that it is raised to, or there is room
for a quota. -/
def TaskQuotaFits (service : ObjectService) : Prop :=
  match service.quotas.find taskServiceStorageId with
  | some (_, record) => record.usedBlocks < record.maxBlocks ∨
      record.usedBlocks < UInt64.ofNat maxDynamicObjects
  | none => service.quotas.records.freeIndex ≠ none

/-- A quota has room for a block below its limit. -/
theorem hasRoom_one_iff {quotas : StorageQuotaTable} {serviceId : ServiceId}
    {slot : Fin maxStorageQuotas} {record : StorageQuotaRecord}
    (hfind : quotas.find serviceId = some (slot, record)) :
    quotas.HasRoom serviceId 1 ↔ record.usedBlocks < record.maxBlocks := by
  have hstep : record.usedBlocks.toNat + (1 : UInt64).toNat < 2 ^ 64 →
      (record.usedBlocks + 1).toNat = record.usedBlocks.toNat + 1 := by
    intro hlt
    rw [UInt64.toNat_add]
    exact Nat.mod_eq_of_lt hlt
  have hmax := record.maxBlocks.toNat_lt
  rw [UInt64.lt_iff_toNat_lt]
  constructor
  · rintro ⟨_, _, hfound, hroom, hle⟩
    obtain ⟨rfl, rfl⟩ := Prod.mk.inj (Option.some.inj (hfind.symm.trans hfound))
    rw [UInt64.le_iff_toNat_le, hstep hroom] at hle
    omega
  · intro hlt
    have hroom : record.usedBlocks.toNat + (1 : UInt64).toNat < 2 ^ 64 := by
      rw [UInt64.toNat_one]
      omega
    refine ⟨slot, record, hfind, hroom, ?_⟩
    rw [UInt64.le_iff_toNat_le, hstep hroom]
    omega

theorem getElem_of_put_eq {quotas : StorageQuotaTable} {slot : Fin maxStorageQuotas}
    {record : StorageQuotaRecord} (h : quotas.put slot record = quotas) :
    quotas.records[slot] = some record := by
  rw [← Table.getElem_put_self quotas.records slot (some record)]
  exact congrArg (fun quotas : StorageQuotaTable ↦ quotas.records[slot]) h.symm

/-- The quota of the task service is made or raised unless it is settled. -/
theorem ensures_ensureTaskQuota (service : ObjectService) :
    Ensures (ensureStorageQuota taskServiceStorageId)
      (fun _ after ↦ (after = service ↔ service.TaskQuotaSettled) ∧
        (after.quotas.HasRoom taskServiceStorageId 1 ↔ service.TaskQuotaFits) ∧
          after = { service with quotas := after.quotas })
      (fun _ after ↦ after = service ∧ service.TaskQuotaSettled ∧ ¬ service.TaskQuotaFits) service := by
  have hchanged : ∀ quotas : StorageQuotaTable,
      { service with quotas } = service ↔ quotas = service.quotas := fun quotas ↦
    ⟨fun h ↦ congrArg ObjectService.quotas h, fun h ↦ by rw [h]⟩
  unfold ensureStorageQuota TaskQuotaSettled TaskQuotaFits
  rw [ensures_bind, ensures_read, StorageQuotaTable.usedBlocks]
  cases hfind : service.quotas.find taskServiceStorageId with
  | none =>
    simp only [onQuotas, ensures_within, StorageQuotaTable.register, ensures_bind,
      ensures_read, hfind, Option.isSome_none, Bool.false_eq_true, if_false]
    cases hfree : service.quotas.records.freeIndex with
    | none => exact ⟨rfl, rfl, fun h ↦ h rfl⟩
    | some slot =>
      have hmade : (service.quotas.put slot
          ⟨taskServiceStorageId, UInt64.ofNat maxDynamicObjects, 0⟩).find taskServiceStorageId =
            some (slot, ⟨taskServiceStorageId, UInt64.ofNat maxDynamicObjects, 0⟩) :=
        Table.lookup_put_of_none slot hfind (decide_eq_true rfl)
      simp only [ensures_modify, hchanged, reduceCtorEq, iff_false, hasRoom_one_iff hmade]
      refine ⟨fun hsame ↦ ?_, iff_of_true (by decide) (Option.some_ne_none slot), trivial⟩
      have hslot := getElem_of_put_eq hsame
      rw [Table.freeIndex_eq_some hfree] at hslot
      cases hslot
  | some found =>
    obtain ⟨slot, record⟩ := found
    simp only [onQuotas, ensures_within, StorageQuotaTable.ensureMinimumLimit,
      ensures_bind, ensures_read, hfind, ensures_ite, ensures_modify,
      ensures_pure, hchanged]
    refine ⟨fun hsmall ↦ ⟨?_, ?_, trivial⟩, fun hlarge ↦ ⟨?_, ?_, trivial⟩⟩
    · simp only [UInt64.not_le.mpr hsmall, iff_false]
      intro hsame
      have hslot := getElem_of_put_eq hsame
      rw [(Table.lookup_eq_some hfind).1, Option.some.injEq] at hslot
      rw [congrArg StorageQuotaRecord.maxBlocks hslot] at hsmall
      exact UInt64.lt_irrefl _ hsmall
    · have hraised : (service.quotas.put slot
          { record with maxBlocks := UInt64.ofNat maxDynamicObjects }).find taskServiceStorageId =
            some (slot, { record with maxBlocks := UInt64.ofNat maxDynamicObjects }) :=
        Table.lookup_put_of_some hfind (Table.lookup_eq_some hfind).2
      rw [hasRoom_one_iff hraised]
      exact ⟨.inr, fun hroom ↦ hroom.elim (UInt64.lt_trans · hsmall) id⟩
    · simpa using hlarge
    · rw [hasRoom_one_iff hfind]
      exact ⟨.inl, fun hroom ↦ hroom.elim id (UInt64.lt_of_lt_of_le · (UInt64.not_lt.mp hlarge))⟩

/-- The service stores an object of the task service: there is room in its quota and in the store, and the
identity is new and no workspace. -/
def FitsTaskObject (service : ObjectService) (objectId : ObjectId) : Prop :=
  service.TaskQuotaFits ∧ service.objects.Fits objectId ∧ objectId ∉ workspaceRoots

/-- An object of the task service is stored exactly when it fits. Otherwise the quota that was made or raised
for it stays. -/
theorem ensures_createTaskServiceObject_fits (h : Holds records service) (caller : ActiveUserProcess)
    (object : TypedObjectRecord) :
    Ensures (createTaskServiceObject caller object) (fun _ _ ↦ service.FitsTaskObject object.objectId)
      (fun _ after ↦
        (isTaskServiceKind object.objectKind = true → ¬ service.FitsTaskObject object.objectId) ∧
          (after = service ↔ isTaskServiceKind object.objectKind = false ∨ service.TaskQuotaSettled))
      service := by
  rw [createTaskServiceObject, ensures_ite]
  refine ⟨fun hkind ↦ ?_, fun hkind ↦ ?_⟩
  · have hother : isTaskServiceKind object.objectKind = false := by simpa using hkind
    simp [hother]
  have htask : isTaskServiceKind object.objectKind = true := not_not.mp hkind
  simp only [htask, Bool.true_eq_false, false_or, forall_const, ensures_bind]
  refine ((ensures_ensureTaskQuota service).and
    (preserves_ensureStorageQuota Holds.onQuotas _ service h)).mono ?_ ?_
  · rintro _ ensured ⟨⟨hsettled, hroom, hframe⟩, hensured⟩
    have hsame : ensured.objects = service.objects := by rw [hframe]
    rw [onQuotas, ensures_within]
    refine (StorageQuotaTable.ensures_chargeBlocks taskServiceStorageId 1 ensured.quotas).mono ?_ ?_
    · rintro _ charged ⟨hcharged, hcharges⟩
      have hholds : Holds records { ensured with quotas := charged } := hensured.frame rfl rfl rfl
      refine (ensures_storeInShellWorkspace_fits hholds hcharges caller object).mono ?_ ?_
      · rintro _ _ ⟨hfits, hroot⟩
        exact ⟨hroom.mp hcharged, hsame ▸ hfits, hroot⟩
      · rintro _ _ ⟨hnot, rfl⟩
        exact ⟨fun hfits ↦ hnot ⟨hsame.symm ▸ hfits.2.1, hfits.2.2⟩, hsettled⟩
    · rintro _ quotas ⟨hfull, rfl⟩
      exact ⟨fun hfits ↦ hfull (hroom.mpr hfits.1), hsettled⟩
  · rintro _ after ⟨⟨rfl, hsettled, hfull⟩, -⟩
    exact ⟨fun hfits ↦ hfull hfits.1, iff_of_true rfl hsettled⟩

/-- A creation that fails leaves no trace if and only if a note is refused before it takes an identity, or
the quota of the task service is settled. -/
theorem Reachable.failedCreation_iff (h : Reachable service) :
    (∀ caller workspace kind error, (createObject caller workspace kind service).1 = .error error →
      ((createObject caller workspace kind service).2 = service ↔
        service.RefusesNote caller workspace kind)) ∧
    ∀ caller object error, (createTaskServiceObject caller object service).1 = .error error →
      ((createTaskServiceObject caller object service).2 = service ↔
        isTaskServiceKind object.objectKind = false ∨ service.TaskQuotaSettled) := by
  constructor
  · intro caller workspace kind error herror
    rcases (ensures_createObject_failed caller workspace kind).of_error herror with
      ⟨hrefuses, hsame⟩ | ⟨hnot, hnext⟩
    · exact iff_of_true hsame hrefuses
    · refine iff_of_false (fun hsame ↦ ?_) hnot
      rw [hsame] at hnext
      simp at hnext
  · obtain ⟨records, hholds, -⟩ := h.agrees
    intro caller object error herror
    exact ((ensures_createTaskServiceObject_fits hholds caller object).of_error herror).2

/-- The shell may not create a task, and the first boot has no quota for the task service. -/
theorem seededService_failedCreation_iff :
    Reachable seededService ∧
      (createObject shellProcess (.fromParts 0 1) .task seededService).1 = .error .unsupportedKind ∧
      (createObject shellProcess (.fromParts 0 1) .task seededService).2 = seededService ∧
      (createTaskServiceObject shellProcess (.new ⟨1⟩ .note 1) seededService).1 =
        .error .unsupportedKind ∧
      (createTaskServiceObject shellProcess (.new ⟨1⟩ .note 1) seededService).2 = seededService := by
  have hreachable : Reachable seededService := .seeded newSeeded_eq
  obtain ⟨hnote, htask⟩ := hreachable.failedCreation_iff
  exact ⟨hreachable, rfl, (hnote _ _ _ _ rfl).mpr (.inl (by decide)), rfl, (htask _ _ _ rfl).mpr (.inl rfl)⟩

/-- Tasks take the blocks that the notes of the shell leave free. -/
def filledService : ObjectService :=
  seededService.performAll ((List.range 23).map fun index ↦
    .createTaskServiceObject shellProcess (.new ⟨UInt64.ofNat index⟩ .task 1))

/-- A note that does not fit takes an identity all the same, and a task with the identity of a note leaves
the quota that was made for it. -/
theorem failedCreation_leaves_trace :
    (Reachable filledService ∧
      (createObject shellProcess (.fromParts 0 1) .note filledService).1 =
        .error (.dynamicObject .objectTableFull) ∧
      (createObject shellProcess (.fromParts 0 1) .note filledService).2.nextShellNoteId =
        filledService.nextShellNoteId + 1) ∧
    Reachable seededService ∧
      (createTaskServiceObject shellProcess (.new externalNote .task 1) seededService).1 =
        .error (.dynamicObject .duplicateObject) ∧
      (createTaskServiceObject shellProcess (.new externalNote .task 1) seededService).2.quotas ≠
        seededService.quotas :=
  ⟨⟨(Reachable.seeded newSeeded_eq).performAll _, by decide +kernel, by decide +kernel⟩,
    .seeded newSeeded_eq, by decide +kernel, by decide +kernel⟩

end ObjectService

end Pythos.Core
