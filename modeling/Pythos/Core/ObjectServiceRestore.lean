import Pythos.Core.ObjectServiceTables

/-!
# Boot and restore of the object service

A fresh service is seeded with the two workspace roots and a note in the external workspace, and its
tables agree. A service whose tables agree is restored from its snapshot: the store and the history come
back as they were, slot by slot, and the relationships come back up to the order of their slots.
-/

namespace Pythos.Core

open Foundation Shared Stateful

namespace ObjectService

/-! ### Boot -/

/-- The tables of the service are the given ones. -/
def HasTables (objects : DynamicObjectStore) (relationships : ObjectServiceRelationshipStore)
    (revisions : ObjectServiceRevisionHistory) (service : ObjectService) : Prop :=
  service.objects = objects ∧ service.relationships = relationships ∧ service.revisions = revisions

theorem preserves_initializeRuntimeAuthority (objects : DynamicObjectStore)
    (relationships : ObjectServiceRelationshipStore) (revisions : ObjectServiceRevisionHistory) :
    Preserves (HasTables objects relationships revisions) initializeRuntimeAuthority := by
  have hquotas (step : Stateful StorageQuotaError StorageQuotaTable Unit) :
      Preserves (HasTables objects relationships revisions) (onQuotas step) :=
    Preserves.within fun _ _ h ↦ h
  have hcapabilities (step : Stateful CapabilityError CapabilityTable CapabilityHandle) :
      Preserves (HasTables objects relationships revisions) (onCapabilities step) :=
    Preserves.within fun _ _ h ↦ h
  refine (Preserves.ofExcept _).bind fun services ↦ ?_
  refine Preserves.bind (fun _ h ↦ h) fun _ ↦ ?_
  refine Preserves.read.bind fun service ↦ ?_
  refine (hcapabilities _).bind fun handle ↦ ?_
  refine Preserves.bind (fun _ h ↦ h) fun _ ↦ ?_
  exact (hquotas _).bind fun _ ↦ hquotas _

/-- A relationship store that knows exactly the workspace roots. -/
theorem ensures_insertWorkspaceRoots :
    Ensures insertWorkspaceRoots
      (fun _ store ↦ store.ids.Perm workspaceRoots ∧ store.relationships = Table.empty)
      (fun _ _ ↦ False) BoundedRelationshipStore.new := by
  rw [insertWorkspaceRoots, ensures_bind]
  refine (BoundedRelationshipStore.ensures_insertObject _ _).mono ?_ ?_
  · rintro _ store ⟨-, hlive, hsame⟩
    rw [BoundedRelationshipStore.new, Table.live_empty] at hlive
    have hids : store.ids = [shellWorkspaceObjectId] := by
      rw [BoundedRelationshipStore.ids, List.perm_singleton.mp hlive]
      rfl
    refine (BoundedRelationshipStore.ensures_insertObject _ _).mono ?_ ?_
    · rintro _ store' ⟨-, hlive', hsame'⟩
      refine ⟨?_, hsame'.trans hsame⟩
      have hperm := hlive'.map TypedObjectRecord.objectId
      rw [List.map_cons] at hperm
      refine hperm.trans ?_
      change (externalWorkspaceObjectId :: store.ids).Perm _
      rw [hids]
      exact List.Perm.swap _ _ _
    · rintro _ store' ⟨-, hknown | hfull⟩
      · rw [hids, List.mem_singleton] at hknown
        exact absurd hknown (by decide)
      · rw [hlive.length_eq] at hfull
        exact absurd hfull (by decide)
  · rintro _ store ⟨-, hknown | hfull⟩
    · simp [BoundedRelationshipStore.ids, BoundedRelationshipStore.new] at hknown
    · simp [BoundedRelationshipStore.new, objectServiceRelationshipObjects] at hfull

theorem new_objects_eq_ok {objects : DynamicObjectStore}
    (h : DynamicObjectStore.new objectServiceBaseSector objectServiceBlockCount = .ok objects) :
    objects.WellFormed ∧ objects.objects = Table.empty ∧
      objects.allocator.baseSector = objectServiceBaseSector ∧
        objects.allocator.blockCount = objectServiceBlockCount := by
  unfold DynamicObjectStore.new at h
  cases hnew : BlockAllocator.new objectServiceBaseSector objectServiceBlockCount with
  | error error =>
    rw [hnew] at h
    cases h
  | ok allocator =>
    rw [hnew] at h
    obtain rfl := Except.ok.inj h
    obtain ⟨hwell, rfl⟩ := BlockAllocator.new_eq_ok hnew
    refine ⟨⟨hwell, ?_, ?_, ?_, ?_⟩, rfl, rfl, rfl⟩ <;> simp

/-- The tables agree after the external note is seeded over the workspace roots. -/
theorem ensures_seedExternalNote {service : ObjectService} (h : Tables service [] [] [] []) :
    Ensures seedExternalNote (fun _ service' ↦ service'.Agrees) (fun _ _ ↦ True) service := by
  rw [seedExternalNote, ensures_bind, ensures_ofExcept]
  refine ⟨fun external hexternal ↦ ?_, fun _ _ ↦ trivial⟩
  have hid : external.objectId = externalNote := pushNewField_objectId hexternal
  simp only [ensures_bind, ensures_read]
  have hcharge : Preserves (fun service ↦ Tables service [] [] [] [])
      (onQuotas (StorageQuotaTable.chargeBlocks service.intruderCaller.serviceId 1)) :=
    Preserves.within fun _ _ h ↦ h.frame rfl rfl rfl
  refine (hcharge service h).imp ?_
  intro _ service₁ h₁
  refine (h₁.createObject external).imp ?_
  rintro _ service₂ ⟨h₂, hnew⟩
  refine (h₂.insertObject external).imp ?_
  intro _ service₃ h₃
  have hmem : externalNote ∈ idsOf [external] := List.mem_singleton.mpr hid.symm
  have hroot : externalWorkspaceObjectId ∈ workspaceRoots := List.mem_cons_of_mem _ List.mem_cons_self
  refine (h₃.addRelationship List.mem_cons_self hnew (by decide) hroot).always ?_
  intro _ service₄ h₄
  have hfirst := h₄.firstRevision hnew service₄.intruderCaller.serviceId
  simp only [takeTimestamp, ensures_bind, ensures_read, ensures_modify, ensures_pure] at hfirst ⊢
  exact hfirst.always fun _ _ h₅ ↦ ⟨[external], h₅, hmem⟩

theorem ensures_seed {objects : DynamicObjectStore}
    (hobjects : DynamicObjectStore.new objectServiceBaseSector objectServiceBlockCount = .ok objects) :
    Ensures seed (fun _ service ↦ service.Agrees) (fun _ _ ↦ True) (unseeded objects) := by
  obtain ⟨hwell, hempty, hlayout⟩ := new_objects_eq_ok hobjects
  rw [seed, ensures_bind]
  refine (preserves_initializeRuntimeAuthority objects BoundedRelationshipStore.new
    BoundedRevisionHistory.new _ ⟨rfl, rfl, rfl⟩).imp ?_
  rintro _ service ⟨rfl, hrelationships, hrevisions⟩
  rw [ensures_bind, seedWorkspaceRoots, onRelationships, ensures_within, hrelationships]
  refine ensures_insertWorkspaceRoots.always ?_
  rintro _ relationships ⟨hids, hnone⟩
  refine ensures_seedExternalNote ⟨hwell, hlayout, ?_, ?_, ?_, ?_, ?_, ?_, ?_⟩
  · rw [hempty, Table.live_empty, List.map_nil]
  · exact hids.nodup_iff.mpr (by decide)
  · rwa [List.append_nil]
  · rw [hnone, Table.live_empty]
    exact List.nodup_nil
  · rw [hnone, Table.live_empty]
    exact List.forall_mem_nil _
  · rw [hrevisions]
    exact Gapless.nil
  · rw [hrevisions]
    exact List.Perm.refl _

theorem newSeeded_agrees {service : ObjectService} (h : newSeeded = .ok service) :
    service.Agrees := by
  unfold newSeeded at h
  cases hobjects : DynamicObjectStore.new objectServiceBaseSector objectServiceBlockCount with
  | error error =>
    rw [hobjects] at h
    cases h
  | ok objects =>
    rw [hobjects] at h
    exact (ensures_seed hobjects).build_eq_ok h

theorem exists_newSeeded : ∃ service, newSeeded = .ok service := by
  have hok : newSeeded.isOk = true := by decide +kernel
  cases h : newSeeded with
  | ok service => exact ⟨service, rfl⟩
  | error error =>
    rw [h] at hok
    cases hok

/-! ### Restore -/

@[simp] theorem decodeObject_encodeObject (record : DynamicObjectRecord) :
    decodeObject (encodeObject record) = record := by
  unfold decodeObject encodeObject
  simp

variable {service : ObjectService}

theorem restoreDynamicObjects_encodeSnapshot (h : service.Agrees) (generation : UInt64) :
    restoreDynamicObjects { service.encodeSnapshot with generation } = .ok service.objects := by
  obtain ⟨records, htables, -⟩ := h
  have hfits : ∀ record ∈ Table.live service.encodeSnapshot.objects,
      record.extentStart.toNat < 2 ^ 16 := by
    intro record hrecord
    rw [encodeSnapshot, Table.live_map] at hrecord
    obtain ⟨stored, -, rfl⟩ := List.mem_map.mp hrecord
    exact stored.extent.startBlock.toNat_lt
  have hdecoded : service.encodeSnapshot.objects.map (Option.map decodeObject) =
      service.objects.objects := by
    ext slot hslot : 1
    simp [encodeSnapshot, Function.comp_def]
  have hrestored := DynamicObjectStore.restoreFromRecords_of_wellFormed htables.store
  rw [htables.layout.1, htables.layout.2] at hrestored
  rw [restoreDynamicObjects, if_pos (by simpa using hfits)]
  have hbitmap : service.encodeSnapshot.allocatedBitmap = service.objects.allocatorBitmap := rfl
  simp only [hdecoded, hbitmap, hrestored]

theorem restoreRevisions_encodeSnapshot (h : service.Agrees) (generation : UInt64) :
    restoreRevisions { service.encodeSnapshot with generation } = .ok service.revisions := by
  obtain ⟨records, htables, -⟩ := h
  have hrestored := BoundedRevisionHistory.restoreFromRecords_of_wellFormed htables.history
  unfold restoreRevisions
  change (match BoundedRevisionHistory.restoreFromRecords service.revisions.currentRecords
    service.revisions.revisions with
    | .error error => _
    | .ok history => _) = _
  rw [hrestored]

/-- The objects of a snapshot are made known one after the other. -/
theorem ensures_restoreObjectsLoop :
    ∀ (records : List ObjectExtentRecord) (store : ObjectServiceRelationshipStore)
      (known : List ObjectId), store.ids.Perm known →
        ((records.map fun record ↦ record.object.objectId) ++ known).Nodup →
        records.length + known.length ≤ objectServiceRelationshipObjects →
          Ensures (restoreObjectsLoop records)
            (fun _ store' ↦
              store'.ids.Perm ((records.map fun record ↦ record.object.objectId) ++ known) ∧
                store'.relationships = store.relationships)
            (fun _ _ ↦ False) store
  | [], store, known, hknown, _, _ => ⟨hknown, rfl⟩
  | record :: rest, store, known, hknown, hnodup, hroom => by
    rw [List.map_cons, List.cons_append, List.nodup_cons] at hnodup
    rw [List.length_cons] at hroom
    rw [restoreObjectsLoop, ensures_bind, relationshipStep, ensures_within]
    refine (BoundedRelationshipStore.ensures_insertObject store record.object).mono ?_ ?_
    · rintro _ store₁ ⟨-, hlive, hsame⟩
      have hknown₁ : store₁.ids.Perm (record.object.objectId :: known) :=
        (hlive.map TypedObjectRecord.objectId).trans (hknown.cons _)
      have hloop := ensures_restoreObjectsLoop rest store₁ (record.object.objectId :: known) hknown₁
        (by rwa [List.nodup_middle, List.nodup_cons]) (by rw [List.length_cons]; omega)
      refine hloop.next fun _ store₂ ⟨hids, hrelationships⟩ ↦ ⟨?_, hrelationships.trans hsame⟩
      exact hids.trans List.perm_middle
    · rintro _ store₁ ⟨-, hthere | hfull⟩
      · exact hnodup.1 (List.mem_append_right _ (hknown.mem_iff.mp hthere))
      · have hlength := hknown.length_eq
        rw [BoundedRelationshipStore.ids, List.length_map] at hlength
        exact absurd (hfull.trans hlength.le) (by omega)

/-- The relationship of a snapshot entry. -/
def relationshipOf (record : WorkspaceRelationshipRecord) : ObjectRelationship :=
  belongsTo record.objectId record.workspaceId

/-- The relationships of a snapshot between known objects are added one after the other. -/
theorem ensures_restoreRelationshipsLoop :
    ∀ (records : List WorkspaceRelationshipRecord) (store : ObjectServiceRelationshipStore)
      (added : List ObjectRelationship), store.relationships.live.Perm added →
        (∀ record ∈ records, record.objectId ∈ store.ids ∧ record.workspaceId ∈ store.ids) →
        (records.map relationshipOf ++ added).Nodup →
        records.length + added.length ≤ objectServiceRelationships →
          Ensures (restoreRelationshipsLoop records)
            (fun _ store' ↦ store'.objects = store.objects ∧
              store'.relationships.live.Perm (records.map relationshipOf ++ added))
            (fun _ _ ↦ False) store
  | [], store, added, hadded, _, _, _ => ⟨rfl, hadded⟩
  | record :: rest, store, added, hadded, hknown, hnodup, hroom => by
    obtain ⟨hobject, hworkspace⟩ := hknown record List.mem_cons_self
    rw [List.map_cons, List.cons_append, List.nodup_cons] at hnodup
    rw [List.length_cons] at hroom
    rw [restoreRelationshipsLoop, ensures_bind, ensures_read, ensures_ite]
    refine ⟨fun hunknown ↦ ?_, fun _ ↦ ?_⟩
    · simp only [BoundedRelationshipStore.containsObject_eq_true_iff] at hunknown
      exact (hunknown.elim (fun h ↦ h hobject) fun h ↦ h hworkspace).elim
    · rw [ensures_bind, relationshipStep, ensures_within]
      refine (BoundedRelationshipStore.ensures_addRelationship store
        (belongsTo record.objectId record.workspaceId)).mono ?_ ?_
      · rintro _ store₁ ⟨hobjects, hlive⟩
        have hids : store₁.ids = store.ids := by
          rw [BoundedRelationshipStore.ids, hobjects]
          rfl
        have hloop := ensures_restoreRelationshipsLoop rest store₁ (relationshipOf record :: added)
          (hlive.trans (hadded.cons _))
          (fun other hother ↦ hids ▸ hknown other (List.mem_cons_of_mem _ hother))
          (by rwa [List.nodup_middle, List.nodup_cons]) (by rw [List.length_cons]; omega)
        refine hloop.next fun _ store₂ hrest ↦ ⟨hrest.1.trans hobjects, ?_⟩
        exact hrest.2.trans List.perm_middle
      · rintro _ store₁ ⟨-, hsource | htarget | hthere | hfull⟩
        · exact hsource hobject
        · exact htarget hworkspace
        · exact hnodup.1 (List.mem_append_right _ (hadded.mem_iff.mp hthere))
        · exact absurd (hfull.trans hadded.length_eq.le) (by omega)

/-! ### The relationships of a snapshot -/

namespace Tables

variable {records : List TypedObjectRecord}

/-- The query for the workspace of an object finds its relationship. -/
theorem queryFirst_eq_some_iff {stored recorded : List TypedObjectRecord} {known placed : List ObjectId}
    (h : Tables service stored known placed recorded) {relationship : ObjectRelationship}
    {objectId : ObjectId} :
    service.relationships.queryFirst objectId .belongsTo = some relationship ↔
      relationship ∈ service.relationships.relationships.live ∧ relationship.source = objectId := by
  constructor
  · intro hquery
    obtain ⟨hmem, hsource, -⟩ := BoundedRelationshipStore.queryFirst_eq_some hquery
    exact ⟨hmem, hsource⟩
  · rintro ⟨hmem, rfl⟩
    cases hquery : service.relationships.queryFirst relationship.source .belongsTo with
    | none =>
      have hnone := BoundedRelationshipStore.queryFirst_eq_none_iff.mp hquery relationship hmem
      exact absurd ⟨rfl, (h.placed_mem relationship hmem).2.1⟩ hnone
    | some found =>
      obtain ⟨hfound, hsource, -⟩ := BoundedRelationshipStore.queryFirst_eq_some hquery
      rw [List.inj_on_of_nodup_map h.sources hfound hmem hsource]

/-- The snapshot holds the relationships of the service. -/
theorem encodeSnapshot_relationships
    (h : Tables service records (idsOf records) (idsOf records) records) :
    ((Table.live service.encodeSnapshot.workspaceRelationships).map relationshipOf).Perm
      service.relationships.relationships.live := by
  have hencoded : (Table.live service.encodeSnapshot.workspaceRelationships).map relationshipOf =
      service.objects.ids.filterMap fun objectId ↦
        service.relationships.queryFirst objectId .belongsTo := by
    rw [encodeSnapshot, Table.live_bind, DynamicObjectStore.ids, List.filterMap_map,
      List.map_filterMap]
    refine List.filterMap_congr fun record _ ↦ ?_
    rw [encodeRelationship, Option.map_map, Function.comp_apply]
    cases hquery : service.relationships.queryFirst record.object.objectId .belongsTo with
    | none => rfl
    | some relationship =>
      obtain ⟨-, -, hkind⟩ := BoundedRelationshipStore.queryFirst_eq_some hquery
      have hsame : belongsTo relationship.source relationship.target = relationship := by
        rw [belongsTo, ← hkind]
      exact congrArg some hsame
  have hnodup : (service.objects.ids.filterMap fun objectId ↦
      service.relationships.queryFirst objectId .belongsTo).Nodup := by
    refine h.store.distinct.filterMap fun first second relationship hfirst hsecond ↦ ?_
    exact (h.queryFirst_eq_some_iff.mp hfirst).2.symm.trans (h.queryFirst_eq_some_iff.mp hsecond).2
  rw [hencoded, List.perm_ext_iff_of_nodup hnodup h.sources.of_map]
  intro relationship
  rw [List.mem_filterMap]
  constructor
  · rintro ⟨objectId, -, hquery⟩
    exact (h.queryFirst_eq_some_iff.mp hquery).1
  · intro hmem
    refine ⟨relationship.source, ?_, h.queryFirst_eq_some_iff.mpr ⟨hmem, rfl⟩⟩
    exact h.objects_ids.mem_iff.mpr (h.placed_mem relationship hmem).1

end Tables

/-- The relationship store that a snapshot rebuilds. -/
theorem ensures_restoreRelationships {records : List TypedObjectRecord}
    (h : Tables service records (idsOf records) (idsOf records) records) :
    Ensures (do
        relationshipStep insertWorkspaceRoots
        restoreObjectsLoop (Table.live service.encodeSnapshot.objects)
        restoreRelationshipsLoop (Table.live service.encodeSnapshot.workspaceRelationships))
      (fun _ relationships ↦ relationships.ids.Perm (workspaceRoots ++ service.objects.ids) ∧
        relationships.relationships.live.Perm service.relationships.relationships.live)
      (fun _ _ ↦ False) BoundedRelationshipStore.new := by
  have hobjects : (Table.live service.encodeSnapshot.objects).map
      (fun record ↦ record.object.objectId) = service.objects.ids := by
    rw [encodeSnapshot, Table.live_map, List.map_map]
    rfl
  have hrelationships := h.encodeSnapshot_relationships
  have hall : (service.objects.ids ++ workspaceRoots).Perm service.relationships.ids :=
    List.perm_append_comm.trans ((h.objects_ids.append_left _).trans h.known_perm.symm)
  rw [ensures_bind, relationshipStep, ensures_within]
  refine ensures_insertWorkspaceRoots.next ?_
  rintro _ store ⟨hids, hnone⟩
  rw [ensures_bind]
  have hnodup : ((Table.live service.encodeSnapshot.objects).map
      (fun record ↦ record.object.objectId) ++ workspaceRoots).Nodup := by
    rw [hobjects]
    exact hall.nodup_iff.mpr h.known_nodup
  have hroom : (Table.live service.encodeSnapshot.objects).length + workspaceRoots.length ≤
      objectServiceRelationshipObjects :=
    Nat.add_le_add_right (Table.length_live_le _) 2
  refine (ensures_restoreObjectsLoop _ store workspaceRoots hids hnodup hroom).next ?_
  rintro _ store₁ ⟨hids₁, hsame⟩
  rw [hobjects] at hids₁
  have hknown : ∀ record ∈ Table.live service.encodeSnapshot.workspaceRelationships,
      record.objectId ∈ store₁.ids ∧ record.workspaceId ∈ store₁.ids := by
    intro record hrecord
    obtain ⟨hsource, -, htarget⟩ := h.placed_mem (relationshipOf record)
      (hrelationships.mem_iff.mp (List.mem_map_of_mem hrecord))
    rw [hids₁.mem_iff, hids₁.mem_iff, List.mem_append, List.mem_append]
    exact ⟨Or.inl (h.objects_ids.mem_iff.mpr hsource), Or.inr htarget⟩
  refine (ensures_restoreRelationshipsLoop _ store₁ [] ?_ hknown ?_ ?_).next ?_
  · rw [hsame, hnone, Table.live_empty]
  · rw [List.append_nil, hrelationships.nodup_iff]
    exact h.sources.of_map
  · exact Table.length_live_le _
  · rintro _ store₂ ⟨hobjects₂, hlive₂⟩
    rw [List.append_nil] at hlive₂
    refine ⟨?_, hlive₂.trans hrelationships⟩
    rw [BoundedRelationshipStore.ids, hobjects₂]
    exact hids₁.trans List.perm_append_comm

/-- A service whose tables agree is restored from its snapshot under any generation. -/
theorem fromSnapshot_encodeSnapshot (h : service.Agrees) (generation : UInt64) :
    ∃ restored, fromSnapshot { service.encodeSnapshot with generation } = .ok restored ∧
      restored.Agrees ∧ restored.objects = service.objects ∧
        restored.relationships.relationships.live.Perm service.relationships.relationships.live ∧
          restored.revisions = service.revisions ∧ restored.generation = generation ∧
            restored.nextShellNoteId = restoredNoteId service.encodeSnapshot := by
  obtain ⟨seeded, hseeded⟩ := exists_newSeeded
  have hobjects := restoreDynamicObjects_encodeSnapshot h generation
  have hrevisions := restoreRevisions_encodeSnapshot h generation
  obtain ⟨records, htables, hexternal⟩ := h
  obtain ⟨relationships, hrelationships, hids, hlive⟩ :=
    (ensures_restoreRelationships htables).exists_build
  have hrestored : restoreRelationships { service.encodeSnapshot with generation } =
      .ok relationships := hrelationships
  have hperm : relationships.ids.Perm (workspaceRoots ++ idsOf records) :=
    hids.trans (htables.objects_ids.append_left _)
  have happly : Ensures
      (applySnapshotPreservingRuntimeAuthority { service.encodeSnapshot with generation })
      (fun _ restored ↦ restored = { seeded with
        objects := service.objects, relationships, revisions := service.revisions
        generation, nextShellNoteId := restoredNoteId service.encodeSnapshot })
      (fun _ _ ↦ False) seeded := by
    simp only [applySnapshotPreservingRuntimeAuthority, ensures_bind, hobjects, hrestored,
      hrevisions, ensures_ofExcept, ensures_modify]
    simp
    rfl
  obtain ⟨restored, hbuild, rfl⟩ := happly.exists_build
  have hfrom : fromSnapshot { service.encodeSnapshot with generation } = build
      (applySnapshotPreservingRuntimeAuthority { service.encodeSnapshot with generation }) seeded := by
    rw [fromSnapshot, hseeded, ok_bind]
  refine ⟨_, hfrom.trans hbuild, ⟨records, ?_, hexternal⟩, rfl, hlive, rfl, rfl, rfl⟩
  refine ⟨htables.store, htables.layout, htables.stored_perm, ?_, hperm, ?_, ?_, htables.history,
    htables.recorded_perm⟩
  · exact hperm.nodup_iff.mpr (htables.known_perm.nodup_iff.mp htables.known_nodup)
  · exact (hlive.map _).nodup_iff.mpr htables.sources
  · exact fun relationship hmem ↦ htables.placed_mem relationship (hlive.mem_iff.mp hmem)

end ObjectService

end Pythos.Core
