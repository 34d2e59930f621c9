import Pythos.Core.ObjectServiceAuthority

/-!
# Revising after a restart

A snapshot carries the timestamps of the revisions but not the clock that gave them: a restored service
counts from the tick after its seeding again. Every tick of the clock goes with a recorded revision, so
that it never wraps, and every revision but that of the external note is from a tick after the seeding
(`Clocked`). Revising an object needs a timestamp after the one of its current revision: no object that a
query lists after a restart can be revised.
-/

namespace Pythos.Core

open Foundation Shared Stateful

namespace ObjectService

variable {service : ObjectService} {caller : ActiveUserProcess}

/-! ### The clock -/

/-- The first tick of a boot, after the seeding. -/
def bootTick : UInt64 := seededService.nextTimestampTicks

/-- The clock has ticked at most once for every recorded revision, and the current revisions are from ticks
after the seeding, that of the external note apart. -/
structure ClockedAt (history : ObjectServiceRevisionHistory) (clock : UInt64) : Prop where
  wellFormed : history.WellFormed
  booted : bootTick ≤ clock
  counted : clock.toNat ≤ history.current.live.length + history.revisions.live.length + 1
  recent : ∀ current ∈ history.current.live,
    current.objectId = externalNote ∨ bootTick ≤ current.timestampTicks

namespace ClockedAt

variable {history : ObjectServiceRevisionHistory} {clock : UInt64}

/-- The tick of a revision that is recorded. The tables bound the number of ticks, so that the clock does
not wrap. -/
theorem tick (h : ClockedAt history clock) {history' : ObjectServiceRevisionHistory}
    (hwell : history'.WellFormed)
    (hgrown : history.current.live.length + history.revisions.live.length <
      history'.current.live.length + history'.revisions.live.length)
    (hcurrent : ∀ current ∈ history'.current.live,
      current ∈ history.current.live ∨ current.timestampTicks = clock) :
    ClockedAt history' (clock + 1) := by
  have hnext : (clock + 1).toNat = clock.toNat + 1 := by
    have hcapacity : objectServiceCurrentObjects + maxRevisions + 2 < 2 ^ 64 := by decide
    have hcurrents := history.current.length_live_le
    have hpriors := history.revisions.length_live_le
    have hcounted := h.counted
    rw [UInt64.toNat_add]
    exact Nat.mod_eq_of_lt (by simp; omega)
  have hcounted := h.counted
  refine ⟨hwell, ?_, by omega, fun current hmem ↦ ?_⟩
  · have hbooted := UInt64.le_iff_toNat_le.mp h.booted
    rw [UInt64.le_iff_toNat_le]
    omega
  · rcases hcurrent current hmem with hold | hnew
    · exact h.recent current hold
    · exact .inr (hnew ▸ h.booted)

theorem createObject (h : ClockedAt history clock) (object : TypedObjectRecord) (writer : ServiceId) :
    Ensures (BoundedRevisionHistory.createObject object clock writer)
      (fun _ history' ↦ ClockedAt history' (clock + 1)) (fun _ _ ↦ True) history := by
  refine (BoundedRevisionHistory.ensures_createObject object clock writer).imp ?_
  rintro _ history' ⟨hwell, hpriors, hcurrents⟩
  refine h.tick (hwell h.wellFormed) ?_ fun current hmem ↦ ?_
  · rw [hpriors, hcurrents.length_eq, List.length_cons]
    omega
  · rcases List.mem_cons.mp (hcurrents.mem_iff.mp hmem) with rfl | hold
    · exact .inr rfl
    · exact .inl hold

theorem updateObject (h : ClockedAt history clock) (object : TypedObjectRecord) (writer : ServiceId) :
    Ensures (BoundedRevisionHistory.updateObject object clock writer)
      (fun _ history' ↦ ClockedAt history' (clock + 1)) (fun _ _ ↦ True) history := by
  refine (BoundedRevisionHistory.ensures_updateObject (by decide) object clock writer).imp ?_
  rintro _ history' ⟨hwell, _, entry, rest, -, -, hold, -, hnew, hpriors⟩
  refine h.tick (hwell h.wellFormed) ?_ fun current hmem ↦ ?_
  · rw [hold.length_eq, hnew.length_eq, hpriors.length_eq, List.length_cons, List.length_cons,
      List.length_cons]
    omega
  · rcases List.mem_cons.mp (hnew.mem_iff.mp hmem) with rfl | hrest
    · exact .inr rfl
    · exact .inl (hold.mem_iff.mpr (List.mem_cons_of_mem _ hrest))

end ClockedAt

/-- The clock of the service, with its history. -/
def Clocked (service : ObjectService) : Prop :=
  ClockedAt service.revisions service.nextTimestampTicks

namespace Clocked

variable {α : Type} {records : List TypedObjectRecord}

theorem onObjects (step : Stateful DynamicObjectError DynamicObjectStore α) :
    Preserves Clocked (onObjects step) :=
  Preserves.within fun _ _ h ↦ h

theorem onRelationships (step : Stateful RelationshipError ObjectServiceRelationshipStore α) :
    Preserves Clocked (onRelationships step) :=
  Preserves.within fun _ _ h ↦ h

theorem onQuotas (step : Stateful StorageQuotaError StorageQuotaTable α) :
    Preserves Clocked (onQuotas step) :=
  Preserves.within fun _ _ h ↦ h

theorem onCapabilities (step : Stateful CapabilityError CapabilityTable α) :
    Preserves Clocked (onCapabilities step) :=
  Preserves.within fun _ _ h ↦ h

theorem finalGrant (objectId : ObjectId) : Preserves Clocked (do
    let objectCapability ← grantObjectCapability caller objectId
    pure { objectId, revision := 1, objectCapability : ObjectCreateResult }) :=
  (preserves_grantObjectCapability onCapabilities _ _).bind fun _ ↦ .pure _

theorem firstRevision (h : service.Clocked) (object : TypedObjectRecord) (writer : ServiceId) :
    Ensures (do
        let timestamp ← takeTimestamp
        onRevisions (BoundedRevisionHistory.createObject object timestamp writer))
      (fun _ ↦ Clocked) (fun _ _ ↦ True) service := by
  simp only [takeTimestamp, ObjectService.onRevisions, ensures_bind, ensures_read, ensures_modify,
    ensures_pure, ensures_within]
  exact ClockedAt.createObject h object writer

/-- A store that succeeds ends with a first revision, and one that fails has not come to it. -/
theorem storeInShellWorkspace (h : service.Clocked) (hholds : Holds records service)
    (storageId : ServiceId) (object : TypedObjectRecord) :
    Ensures (storeInShellWorkspace storageId caller object) (fun _ ↦ Clocked) (fun _ ↦ Clocked)
      service := by
  rw [ObjectService.storeInShellWorkspace, ensures_bind, ensures_handle, ensures_bind]
  refine ((Tables.createObject hholds object).and (onObjects _ service h)).mono ?_ ?_
  · rintro _ service₁ ⟨⟨hholds₁, hnew⟩, h₁⟩
    rw [ensures_pure, ensures_bind, ensures_handle]
    refine ((hholds₁.insertObject object).and (onRelationships _ service₁ h₁)).mono ?_ ?_
    · rintro _ service₂ ⟨hholds₂, h₂⟩
      have hrecorded := (onRelationships (BoundedRelationshipStore.addRelationship
        (belongsTo object.objectId shellWorkspaceObjectId))).andThen (fun _ _ _ ↦ trivial) h₂
          fun _ _ h₃ ↦ h₃.firstRevision object caller.serviceId
      refine ((hholds₂.placeAndRecord hnew List.mem_cons_self caller.serviceId).and hrecorded).mono
        (fun _ _ hboth ↦ hboth.2) fun _ _ hboth ↦ hboth.1.elim
    · rintro error service₂ ⟨-, h₂⟩
      simp only [ensures_bind, ensures_attempt, ensures_fail]
      exact (onQuotas _ _ (onObjects _ _ h₂).final).final
  · rintro error service₁ ⟨-, h₁⟩
    simp only [ensures_bind, ensures_attempt, ensures_fail]
    exact (onQuotas _ _ h₁).final

theorem phases : Phases Clocked Clocked fun _ ↦ True where
  objects := fun _ h ↦ h
  quotas := fun _ h ↦ h
  noteId := fun _ h ↦ h
  insert := fun _ ↦ onRelationships _
  place := fun _ ↦ onRelationships _
  breaks := fun _ ↦ trivial
  create object writer _ h := h.firstRevision object writer
  update object writer _ h := by
    simp only [ObjectService.onRevisions, ensures_bind, ensures_read, ensures_modify, ensures_pure,
      ensures_within]
    exact ClockedAt.updateObject h object writer

theorem perform (h : service.Clocked) (hholds : Holds records service) (operation : Operation) :
    (operation.perform service).Clocked := by
  have hquotas {α : Type} (step : Stateful StorageQuotaError StorageQuotaTable α) :
      Preserves (fun service ↦ Holds records service ∧ service.Clocked) (ObjectService.onQuotas step) :=
    Preserves.within fun _ _ h ↦ ⟨h.1.frame rfl rfl rfl, h.2⟩
  have hnoteId : Preserves (fun service ↦ Holds records service ∧ service.Clocked) takeNoteId :=
    fun _ h ↦ ⟨h.1.frame rfl rfl rfl, h.2⟩
  have hleft (error : ObjectServiceError) (service : ObjectService)
      (h : Holds records service ∧ service.Clocked) : service.Clocked := h.2
  cases operation with
  | createObject caller workspace kind =>
    suffices hkept : Ensures (ObjectService.createObject caller workspace kind) (fun _ ↦ Clocked)
        (fun _ ↦ Clocked) service from hkept.final
    rw [ObjectService.createObject, ensures_ite]
    refine ⟨fun _ ↦ h, fun _ ↦ ?_⟩
    refine Preserves.read.andThen hleft ⟨hholds, h⟩ fun _ _ h ↦ ?_
    refine (Preserves.ofExcept _).andThen hleft h fun _ _ h ↦ ?_
    refine (hquotas _).andThen hleft h fun _ _ h ↦ ?_
    refine hnoteId.andThen hleft h fun objectId _ h ↦ ?_
    rw [ensures_bind]
    exact (h.2.storeInShellWorkspace h.1 _ _).next fun _ _ h ↦ finalGrant objectId _ h
  | createTaskServiceObject caller object =>
    suffices hkept : Ensures (ObjectService.createTaskServiceObject caller object)
        (fun _ ↦ Clocked) (fun _ ↦ Clocked) service from hkept.final
    rw [ObjectService.createTaskServiceObject, ensures_ite]
    refine ⟨fun _ ↦ h, fun _ ↦ ?_⟩
    refine (preserves_ensureStorageQuota hquotas _).andThen hleft ⟨hholds, h⟩ fun _ _ h ↦ ?_
    exact (hquotas _).andThen hleft h fun _ _ h ↦ h.2.storeInShellWorkspace h.1 _ _
  | createPackageObject caller objectId | createSchemaDefinitionObject caller objectId =>
    exact (phases.createInternalObject h (fun _ ↦ h) finalGrant _).final
  | createPackageDefinedObject caller authority input =>
    exact (phases.createPackageDefinedObject h (fun _ ↦ h) finalGrant authority input).final
  | reviseField caller objectCapability objectId fieldId value =>
    exact (phases.reviseField h objectCapability objectId fieldId value).final
  | reviseTaskServiceObject caller object => exact (phases.reviseTaskServiceObject h object).final
  | queryObjects caller workspace kind =>
    exact (preserves_queryObjects onCapabilities caller workspace kind service h).final
  | grantWorkspaceCapability caller =>
    exact (preserves_grantWorkspaceCapability onQuotas onCapabilities caller service h).final

end Clocked

theorem Reachable.clocked (h : Reachable service) : service.Clocked := by
  induction h with
  | seeded hseeded =>
    obtain ⟨records, hholds, -⟩ := newSeeded_agrees hseeded
    obtain rfl := Except.ok.inj (newSeeded_eq.symm.trans hseeded)
    exact ⟨hholds.history, UInt64.le_refl _, by decide +kernel, by decide +kernel⟩
  | restored generation hreachable hrestored ih =>
    obtain ⟨records, hholds, hexternal⟩ := hreachable.agrees
    obtain ⟨restored', hfrom, -, -, -, hrevisions, -⟩ :=
      fromSnapshot_encodeSnapshot hreachable.agrees generation
    have hticks := (bootRuntime_of_fromSnapshot hrestored).2.2.2.2
    obtain rfl := Except.ok.inj (hfrom.symm.trans hrestored)
    rw [Clocked, hrevisions, hticks]
    refine ⟨ih.wellFormed, UInt64.le_refl _, ?_, ih.recent⟩
    rw [← hholds.revisions_ids.mem_iff] at hexternal
    have hone := List.length_pos_of_mem hexternal
    rw [BoundedRevisionHistory.ids, List.length_map] at hone
    have htwo : seededService.nextTimestampTicks.toNat = 2 := by decide +kernel
    omega
  | performed operation hreachable ih =>
    obtain ⟨records, hholds, -⟩ := hreachable.agrees
    exact ih.perform hholds operation

/-! ### The restart -/

/-- A capability that was granted is valid. -/
theorem GrantsTo.validateObject {table : CapabilityTable} {grants : List ObjectListEntry}
    {entry : ObjectListEntry} {rights : RightsMask}
    (h : GrantsTo table caller.serviceId grants service.capabilities)
    (hentry : entry ∈ grants) (hrights : objectRights.contains rights = true) :
    service.validateObject caller entry.capability ⟨entry.objectId⟩ rights = .ok () := by
  have hvalid : service.capabilities.validate caller.serviceId (unpackCapability entry.capability)
      ⟨entry.objectId⟩ rights = .ok () :=
    CapabilityTable.validate_eq_ok_iff.mpr ⟨_, h.held entry hentry, rfl, rfl, rfl, rfl, hrights⟩
  rw [ObjectService.validateObject, validateCapabilityResource, hvalid]

/-- A revision that comes too late is made, stored and then refused by the history. -/
theorem ensures_reviseField_late {objectCapability : PackedCapability} {objectId : ObjectId}
    {fieldId : UInt16} {value : Bytes} {current : RevisionRecord} {revised : TypedObjectRecord}
    (hvalid : service.validateObject caller objectCapability objectId .write = .ok ())
    (hcurrent : service.currentRecord objectId = .ok current)
    (hrevised : revisedRecord objectId current fieldId value = .ok revised)
    (hstored : objectId ∈ service.objects.ids)
    (hlate : service.nextTimestampTicks ≤ current.timestampTicks) :
    Ensures (reviseField caller objectCapability objectId fieldId value) (fun _ _ ↦ False)
      (fun error _ ↦ error = .revision .nonMonotonicTimestamp) service := by
  have hid : revised.objectId = objectId := pushNewField_objectId hrevised
  obtain ⟨found, hfound⟩ := Option.ne_none_iff_exists'.mp
    (mt DynamicObjectStore.lookup_eq_none_iff.mp (not_not.mpr hstored))
  obtain ⟨slot, entry, hlookup, rfl⟩ := currentRecord_eq_ok_iff.mp hcurrent
  rw [revisedRecord] at hrevised
  simp only [reviseField, ensures_bind, ensures_read, hvalid, hcurrent, ensures_ofExcept_ok, hrevised]
  rw [replaceRecord, ensures_staged, ensures_bind, onObjects, ensures_within,
    DynamicObjectStore.replaceObject, ensures_bind, ensures_read, hid, hfound]
  simp only [ensures_modify, ensures_bind, ensures_read, onRevisions, ensures_within,
    BoundedRevisionHistory.updateObject, hid, hlookup]
  exact ensures_ite.mpr ⟨fun _ ↦ rfl, fun hearly ↦ absurd hlate hearly⟩

/-- Every revision that succeeds before a restart fails after it, through every capability that a query
returns for the object. -/
theorem Reachable.reviseField_restart_fails (h : Reachable service)
    {objectCapability : PackedCapability} {objectId : ObjectId} {fieldId : UInt16} {value : Bytes}
    {revision : UInt64}
    (hrevise : (reviseField caller objectCapability objectId fieldId value service).1 = .ok revision) :
    ∃ restored, fromSnapshot service.encodeSnapshot = .ok restored ∧
      ∀ (caller' : ActiveUserProcess) (workspace : PackedCapability) (kind : ObjectKind)
        (entries : Vector ObjectListEntry maxQueryResults) (entry : ObjectListEntry),
        (queryObjects caller' workspace kind restored).1 = .ok entries → entry ∈ entries.toList →
        entry ≠ ⟨0, ⟨0⟩⟩ → entry.objectId = objectId.raw →
          (reviseField caller' entry.capability objectId fieldId value
            (queryObjects caller' workspace kind restored).2).1 =
              .error (.revision .nonMonotonicTimestamp) := by
  obtain ⟨restored, hfrom, -, -, -, hrevisions, -⟩ :=
    fromSnapshot_encodeSnapshot h.agrees service.generation
  have hticks := (bootRuntime_of_fromSnapshot hfrom).2.2.2.2
  refine ⟨restored, hfrom, fun caller' workspace kind entries entry hquery hentry hused hid ↦ ?_⟩
  have hensures : Ensures (queryObjects caller' workspace kind) _ _ restored :=
    ensures_queryObjects workspace
  obtain ⟨-, found, hfound, hlists⟩ := hensures.of_ok hquery
  have hmem := ((hfound entry).2 hentry).resolve_right hused
  have hsame : (⟨entry.objectId⟩ : ObjectId) = objectId := congrArg ObjectId.mk hid
  have hvalid := hlists.grants.validateObject hmem (show objectRights.contains .write = true by decide)
  rw [hsame] at hvalid
  generalize (queryObjects caller' workspace kind restored).2 = queried at hlists hvalid ⊢
  -- the object is not the external note, and has its record of before the restart
  obtain ⟨records, hsealed⟩ := (Reachable.restored service.generation h hfrom).exists_sealed
  obtain ⟨record, hrecord, hrecordId, hlisted⟩ := hlists.listed entry hmem
  have hne : objectId ≠ externalNote := by
    rw [← hsame, hrecordId]
    exact hsealed.ne_of_isListed hlisted
  obtain ⟨records', hholds, -⟩ := h.agrees
  obtain ⟨-, current, revised, -, hcurrent, hrevised, -⟩ :=
    (ensures_reviseField hholds caller objectCapability objectId fieldId value).of_ok hrevise
  obtain ⟨slot, live, hlookup, rfl⟩ := currentRecord_eq_ok_iff.mp hcurrent
  obtain ⟨hslot, hliveId⟩ := BoundedRevisionHistory.lookup_eq_some hlookup
  have hrecent : bootTick ≤ live.timestampTicks :=
    (h.clocked.recent live (Table.mem_live_iff.mpr ⟨slot, hslot⟩)).resolve_left (hliveId ▸ hne)
  have hcurrent' : queried.currentRecord objectId = .ok live.asRevision := by
    rw [hlists.frame, ← hcurrent, currentRecord, hrevisions, ← currentRecord]
  have hstored : objectId ∈ queried.objects.ids := by
    rw [hlists.frame, ← hsame, hrecordId]
    exact List.mem_map_of_mem hrecord
  have hlate : queried.nextTimestampTicks ≤ live.timestampTicks := by
    rw [hlists.frame]
    exact hticks ▸ hrecent
  rcases (ensures_reviseField_late hvalid hcurrent' hrevised hstored hlate).cases with
    ⟨_, -, hfalse⟩ | ⟨error, herror, rfl⟩
  · exact hfalse.elim
  · exact herror

/-- The shell has created a note. -/
def notedService : ObjectService :=
  (Operation.createObject shellProcess (.fromParts 0 1) .note).perform seededService

theorem notedService_reviseField_restart_fails :
    (reviseField shellProcess (.fromParts 1 1) ⟨firstShellNoteId⟩ fieldText secretText
        notedService).1 = .ok 2 ∧
      ∃ restored, fromSnapshot notedService.encodeSnapshot = .ok restored ∧
        ∀ (caller' : ActiveUserProcess) (workspace : PackedCapability) (kind : ObjectKind)
          (entries : Vector ObjectListEntry maxQueryResults) (entry : ObjectListEntry),
          (queryObjects caller' workspace kind restored).1 = .ok entries →
          entry ∈ entries.toList → entry ≠ ⟨0, ⟨0⟩⟩ → entry.objectId = firstShellNoteId →
            (reviseField caller' entry.capability ⟨firstShellNoteId⟩ fieldText secretText
              (queryObjects caller' workspace kind restored).2).1 =
                .error (.revision .nonMonotonicTimestamp) := by
  have hrevise : (reviseField shellProcess (.fromParts 1 1) ⟨firstShellNoteId⟩ fieldText secretText
      notedService).1 = .ok 2 := by decide +kernel
  exact ⟨hrevise, Reachable.reviseField_restart_fails (.performed _ (.seeded newSeeded_eq)) hrevise⟩

/-- The service that boots from the snapshot of the shell's note. -/
def rebootedService : ObjectService :=
  (fromSnapshot notedService.encodeSnapshot).toOption.getD notedService

/-- The shell could revise its note before the restart, lists it afterwards, and cannot revise it any
more: its timestamp is not older than the clock that started again. -/
theorem rebootedService_frozen :
    Reachable notedService ∧
      (reviseField shellProcess (.fromParts 1 1) ⟨firstShellNoteId⟩ fieldText secretText
        notedService).1 = .ok 2 ∧
      fromSnapshot notedService.encodeSnapshot = .ok rebootedService ∧
      ((queryObjects shellProcess (.fromParts 0 1) .note rebootedService).1.toOption.map
        fun entries ↦ entries.toList.head?) = some (some ⟨firstShellNoteId, .fromParts 1 1⟩) ∧
      (reviseField shellProcess (.fromParts 1 1) ⟨firstShellNoteId⟩ fieldText secretText
        (queryObjects shellProcess (.fromParts 0 1) .note rebootedService).2).1 =
          .error (.revision .nonMonotonicTimestamp) :=
  ⟨.performed _ (.seeded newSeeded_eq), by decide +kernel, by decide +kernel, by decide +kernel,
    by decide +kernel⟩

/-! ### Listing -/

/-- A query returns exactly the objects of the kind in the shell workspace, each with a capability that the
inspection accepts. -/
def ListsAll (service : ObjectService) (caller : ActiveUserProcess) (workspace : PackedCapability)
    (kind : ObjectKind) : Prop :=
  ∃ found service', queryObjects caller workspace kind service = (.ok (padResults found), service') ∧
    found.length ≤ maxQueryResults ∧ found.map (·.objectId) =
      (service.objects.objects.live.filter (service.isListed kind)).map (·.object.objectId.raw) ∧
    ∀ entry ∈ found, (service'.inspectObject caller entry.capability ⟨entry.objectId⟩).isOk = true

/-- A query that lists all objects of a kind has room for them. -/
theorem ListsAll.length_le {workspace : PackedCapability} {kind : ObjectKind}
    (h : service.ListsAll caller workspace kind) :
    (service.objects.objects.live.filter (service.isListed kind)).length ≤ maxQueryResults := by
  obtain ⟨found, service', -, hlength, hids, -⟩ := h
  have hsame := congrArg List.length hids
  rw [List.length_map, List.length_map] at hsame
  exact hsame ▸ hlength

/-- In every state with room for what the query grants, a query lists all objects of a kind if and only if
they are no more than it has room for. -/
theorem Reachable.listsAll_iff (h : Reachable service) {workspace : PackedCapability} {kind : ObjectKind}
    (hvalid : service.validateWorkspace caller workspace .read = .ok ())
    (hfits : service.QueryFits caller kind) :
    service.ListsAll caller workspace kind ↔
      (service.objects.objects.live.filter (service.isListed kind)).length ≤ maxQueryResults := by
  refine ⟨ListsAll.length_le, fun hfew ↦ ?_⟩
  have hquery : Ensures (queryObjects caller workspace kind) _ _ service :=
    ensures_queryObjects_of_fits fun _ ↦ hfits
  unfold Ensures at hquery
  split at hquery
  · next entries service' hresult =>
    obtain ⟨found, rfl, hids, hlists⟩ := hquery
    rw [listedIds, List.take_of_length_le hfew] at hids
    have hlength := congrArg List.length hids
    rw [List.length_map, List.length_map] at hlength
    refine ⟨found, service', hresult, hlength.trans_le hfew, hids, fun entry hentry ↦ ?_⟩
    obtain ⟨records, htables, -⟩ := h.agrees
    obtain ⟨record, hrecord, hid, -⟩ := hlists.listed entry hentry
    have hmem : (⟨entry.objectId⟩ : ObjectId) ∈ service.revisions.ids := by
      rw [htables.revisions_ids.mem_iff, ← htables.objects_ids.mem_iff, hid]
      exact List.mem_map_of_mem hrecord
    obtain ⟨found, hfound⟩ := Option.ne_none_iff_exists'.mp
      (mt BoundedRevisionHistory.lookup_eq_none_iff.mp (not_not.mpr hmem))
    have hcurrent : service'.currentRecord ⟨entry.objectId⟩ = .ok found.2.asRevision := by
      rw [hlists.frame]
      exact currentRecord_eq_ok_iff.mpr ⟨_, _, hfound, rfl⟩
    rw [inspectObject, hlists.grants.validateObject hentry (by decide), ok_bind, hcurrent]
    rfl
  · exact absurd hvalid hquery.2

theorem listsAll_createNote : (createNote.perform seededService).ListsAll shellProcess (.fromParts 0 1) .note :=
  (Reachable.listsAll_iff (.performed createNote (.seeded newSeeded_eq)) (by decide +kernel)
    (by unfold QueryFits; decide +kernel)).mpr (by decide +kernel)

/-- Two services with the workspace create nine notes. -/
def nineNotes : List Operation :=
  List.replicate 8 createNote ++ [.grantWorkspaceCapability (otherProcess 3),
    .createObject (otherProcess 3) (.fromParts 9 1) .note]

/-- One of nine notes is not listed. -/
theorem nineNotes_not_listed : Reachable (seededService.performAll nineNotes) ∧
    (seededService.performAll nineNotes).validateWorkspace shellProcess (.fromParts 0 1) .read = .ok () ∧
    (seededService.performAll nineNotes).QueryFits shellProcess .note ∧
    ¬ (seededService.performAll nineNotes).ListsAll shellProcess (.fromParts 0 1) .note := by
  refine ⟨(Reachable.seeded newSeeded_eq).performAll nineNotes, by decide +kernel,
    by unfold QueryFits; decide +kernel, ?_⟩
  have hnine : maxQueryResults < ((seededService.performAll nineNotes).objects.objects.live.filter
      ((seededService.performAll nineNotes).isListed .note)).length := by decide +kernel
  exact fun hlists ↦ absurd hlists.length_le (not_le.mpr hnine)

end ObjectService

end Pythos.Core
