import Pythos.Core.ObjectServicePhases

/-!
# Capabilities of the object service

What the operations do to the capability table. An operation that creates an object grants one capability
as its last step, a query grants one for each entry that it returns, and the others leave the table as it
is. A failed creation grants nothing; a failed query may leave grants behind that it did not return.
-/

namespace Pythos.Core

open Foundation Shared Stateful

namespace ObjectService

/-! ### Grants -/

/-- The table after grants to a holder: the granted entries are there, the others are kept, and there is
no other one. -/
structure GrantsTo (table : CapabilityTable) (holder : ServiceId) (grants : List ObjectListEntry)
    (table' : CapabilityTable) : Prop where
  held : ∀ grant ∈ grants, table'.entryAt grant.capability.slot =
    some (CapabilityTable.activeEntry holder ⟨grant.objectId⟩ objectRights grant.capability.generation)
  kept : ∀ slot entry, table.entryAt slot = some entry → table'.entryAt slot = some entry
  added : ∀ slot entry, table'.entryAt slot = some entry →
    table.entryAt slot = some entry ∨ ∃ grant ∈ grants, slot = grant.capability.slot

namespace GrantsTo

variable {table table' table'' : CapabilityTable} {holder : ServiceId}
  {grants grants' : List ObjectListEntry}

theorem nil (table : CapabilityTable) (holder : ServiceId) : GrantsTo table holder [] table where
  held := nofun
  kept := fun _ _ h ↦ h
  added := fun _ _ h ↦ Or.inl h

theorem append (h : GrantsTo table holder grants table') (h' : GrantsTo table' holder grants' table'') :
    GrantsTo table holder (grants ++ grants') table'' where
  held := by
    intro grant hgrant
    rcases List.mem_append.mp hgrant with hfirst | hsecond
    · exact h'.kept _ _ (h.held grant hfirst)
    · exact h'.held grant hsecond
  kept := fun slot entry hold ↦ h'.kept slot entry (h.kept slot entry hold)
  added := by
    intro slot entry hheld
    rcases h'.added slot entry hheld with hmiddle | ⟨grant, hgrant, hslot⟩
    · rcases h.added slot entry hmiddle with hold | ⟨grant, hgrant, hslot⟩
      · exact Or.inl hold
      · exact Or.inr ⟨grant, List.mem_append_left _ hgrant, hslot⟩
    · exact Or.inr ⟨grant, List.mem_append_right _ hgrant, hslot⟩

/-- A new entry is the one of a grant. -/
theorem entry_cases (h : GrantsTo table holder grants table') {slot : UInt32} {entry : CapabilityEntry}
    (hheld : table'.entryAt slot = some entry) :
    table.entryAt slot = some entry ∨ ∃ grant ∈ grants,
      slot = grant.capability.slot ∧ entry = CapabilityTable.activeEntry holder ⟨grant.objectId⟩
        objectRights grant.capability.generation := by
  refine (h.added slot entry hheld).imp_right ?_
  rintro ⟨grant, hgrant, rfl⟩
  exact ⟨grant, hgrant, rfl, Option.some.inj (hheld.symm.trans (h.held grant hgrant))⟩

theorem of_granted {resource : ResourceId} {handle : CapabilityHandle}
    (h : CapabilityTable.Granted table holder resource objectRights handle table') :
    GrantsTo table holder [⟨resource.raw, packCapability handle⟩] table' where
  held := by
    intro grant hgrant
    obtain rfl := List.mem_singleton.mp hgrant
    simp only [packCapability, PackedCapability.slot_fromParts, PackedCapability.generation_fromParts]
    exact h.held
  kept := h.kept
  added := by
    intro slot entry hheld
    refine (h.added slot entry hheld).imp_right fun hslot ↦
      ⟨_, List.mem_singleton_self _, hslot.trans ?_⟩
    exact (PackedCapability.slot_fromParts _ _).symm

end GrantsTo

/-- The service has the capability table and the workspace of another one. -/
def SameAuthority (before service : ObjectService) : Prop :=
  service.capabilities = before.capabilities ∧ service.shellWorkspace = before.shellWorkspace

theorem phases_sameAuthority (before : ObjectService) :
    Phases (SameAuthority before) (SameAuthority before) (SameAuthority before) :=
  Stable.phases ⟨fun _ h ↦ h, fun _ h ↦ h, fun _ h ↦ h, fun _ ↦ Preserves.within fun _ _ h ↦ h,
    fun _ ↦ Preserves.within fun _ _ h ↦ h⟩ fun _ _ h ↦ h

section Grants

variable {service : ObjectService} (caller : ActiveUserProcess)

/-- A holder has a capability of an object. -/
def holdsGrant (table : CapabilityTable) (holder : ServiceId) (objectId : ObjectId) : Bool :=
  table.entries.live.any (CapabilityTable.grants holder ⟨objectId.raw⟩ objectRights)

/-- A grant of an object changes the capability table alone. It takes at most one entry, and none when
the holder has the capability; it fails when it would need one and there is none left. -/
theorem ensures_grantObjectCapability (service : ObjectService) (objectId : ObjectId) :
    Ensures (grantObjectCapability caller objectId)
      (fun capability service' ↦ GrantsTo service.capabilities caller.serviceId
        [⟨objectId.raw, capability⟩] service'.capabilities ∧
          service' = { service with capabilities := service'.capabilities } ∧
          service'.capabilities.entries.live.length ≤ service.capabilities.entries.live.length +
            if holdsGrant service.capabilities caller.serviceId objectId then 0 else 1)
      (fun _ service' ↦ service' = service ∧
        capabilityTableSlots ≤ service.capabilities.entries.live.length ∧
          holdsGrant service.capabilities caller.serviceId objectId = false) service := by
  rw [grantObjectCapability, ensures_bind, onCapabilities, ensures_within]
  refine (CapabilityTable.ensures_grant service.capabilities caller.serviceId ⟨objectId.raw⟩
    objectRights).mono ?_ ?_
  · intro handle table hgranted
    exact ⟨GrantsTo.of_granted hgranted, rfl, hgranted.length_le⟩
  · rintro error table ⟨rfl, hfull⟩
    exact ⟨rfl, hfull⟩

/-- The last step of a creation, after steps that left the authority as it was. -/
theorem ensures_finalGrant {before : ObjectService} (h : SameAuthority before service)
    (objectId : ObjectId) (revision : UInt64) :
    Ensures (do
        let objectCapability ← grantObjectCapability caller objectId
        pure { objectId, revision, objectCapability : ObjectCreateResult })
      (fun result service' ↦ GrantsTo before.capabilities caller.serviceId
        [⟨result.objectId.raw, result.objectCapability⟩] service'.capabilities ∧
          service'.shellWorkspace = before.shellWorkspace)
      (fun _ service' ↦ SameAuthority before service') service := by
  rw [ensures_bind]
  refine (ensures_grantObjectCapability caller service objectId).mono ?_ ?_
  · rintro capability service' ⟨hgrants, hsame, -⟩
    rw [h.1] at hgrants
    refine ⟨hgrants, ?_⟩
    rw [hsame]
    exact h.2
  · rintro error service' ⟨rfl, -⟩
    exact h

/-- A creation of an object grants the capability that it returns, and nothing when it fails. -/
def GrantsResult (service : ObjectService) (program : Program ObjectCreateResult) : Prop :=
  Ensures program
    (fun result service' ↦ GrantsTo service.capabilities caller.serviceId
      [⟨result.objectId.raw, result.objectCapability⟩] service'.capabilities ∧
        service'.shellWorkspace = service.shellWorkspace)
    (fun _ service' ↦ SameAuthority service service') service

theorem createObject_grants (workspace : PackedCapability) (kind : ObjectKind) :
    GrantsResult caller service (createObject caller workspace kind) :=
  (phases_sameAuthority service).createObject ⟨rfl, rfl⟩ (fun _ _ h ↦ h)
    (fun objectId _ h ↦ ensures_finalGrant caller h objectId 1) workspace kind

theorem createInternalObject_grants (object : TypedObjectRecord) :
    GrantsResult caller service (createInternalObject caller object) :=
  (phases_sameAuthority service).createInternalObject ⟨rfl, rfl⟩ (fun _ ↦ ⟨rfl, rfl⟩)
    (fun objectId _ h ↦ ensures_finalGrant caller h objectId 1) object

theorem createPackageDefinedObject_grants (authority : PackedCapability)
    (input : PackageDefinedCreateInput) :
    GrantsResult caller service (createPackageDefinedObject caller authority input) :=
  (phases_sameAuthority service).createPackageDefinedObject ⟨rfl, rfl⟩ (fun _ ↦ ⟨rfl, rfl⟩)
    (fun objectId _ h ↦ ensures_finalGrant caller h objectId 1) authority input

theorem grantWorkspaceCapability_grants :
    Ensures (grantWorkspaceCapability caller)
      (fun capability service' ↦ GrantsTo service.capabilities caller.serviceId
        [⟨service.shellWorkspace.raw, capability⟩] service'.capabilities ∧
          service'.shellWorkspace = service.shellWorkspace)
      (fun _ service' ↦ SameAuthority service service') service := by
  have hgrant {service₁ : ObjectService} (h : SameAuthority service service₁) :
      Ensures (do
          let service ← Stateful.read
          let handle ← onCapabilities
            (CapabilityTable.grant caller.serviceId service.shellWorkspace workspaceRights)
          pure (packCapability handle) : Program PackedCapability)
        (fun capability service' ↦ GrantsTo service.capabilities caller.serviceId
          [⟨service.shellWorkspace.raw, capability⟩] service'.capabilities ∧
            service'.shellWorkspace = service.shellWorkspace)
        (fun _ service' ↦ SameAuthority service service') service₁ := by
    rw [ensures_bind, ensures_read, ensures_bind, onCapabilities, ensures_within, h.2]
    refine (CapabilityTable.ensures_grant service₁.capabilities caller.serviceId
      service.shellWorkspace workspaceRights).mono ?_ ?_
    · intro handle table hgranted
      exact ⟨h.1 ▸ GrantsTo.of_granted hgranted, rfl⟩
    · rintro error table ⟨rfl, -⟩
      exact ⟨h.1, rfl⟩
  have hsame : SameAuthority service service := ⟨rfl, rfl⟩
  rw [grantWorkspaceCapability, ensures_bind, ensures_read]
  rcases service.quotas.usedBlocks caller.serviceId with error | used
  · cases error with
    | unknownService =>
      rw [ensures_bind]
      exact ((phases_sameAuthority service).onQuotas _ _ hsame).next fun _ _ h ↦ hgrant h
    | _ => exact hsame
  · exact hgrant hsame

/-! ### Queries -/

/-- `query_objects` lists a record of the kind that belongs to the shell workspace. -/
def isListed (service : ObjectService) (kind : ObjectKind) (record : DynamicObjectRecord) : Bool :=
  record.object.objectKind = kind ∧
    service.objectBelongsToWorkspace record.object.objectId shellWorkspaceObjectId

/-- The entries that a query adds to its results are granted, and are those of listed records. -/
structure Lists (service : ObjectService) (kind : ObjectKind) (records : List DynamicObjectRecord)
    (found : List ObjectListEntry) (service' : ObjectService) : Prop where
  grants : GrantsTo service.capabilities caller.serviceId found service'.capabilities
  frame : service' = { service with capabilities := service'.capabilities }
  listed : ∀ entry ∈ found, ∃ record ∈ records,
    entry.objectId = record.object.objectId.raw ∧ service.isListed kind record = true

variable {caller} {kind : ObjectKind} {records : List DynamicObjectRecord}

theorem Lists.nil : Lists caller service kind records [] service where
  grants := .nil _ _
  frame := rfl
  listed := nofun

variable {record : DynamicObjectRecord} {table : CapabilityTable}

theorem Lists.skip {found : List ObjectListEntry} {service' : ObjectService}
    (h : Lists caller service kind records found service') :
    Lists caller service kind (record :: records) found service' where
  grants := h.grants
  frame := h.frame
  listed := by
    intro entry hentry
    obtain ⟨other, hother, hrest⟩ := h.listed entry hentry
    exact ⟨other, List.mem_cons_of_mem _ hother, hrest⟩

theorem Lists.cons {found : List ObjectListEntry} {middle service' : ObjectService}
    {capability : PackedCapability} (hgrant : GrantsTo service.capabilities caller.serviceId
      [⟨record.object.objectId.raw, capability⟩] middle.capabilities)
    (hmiddle : middle = { service with capabilities := middle.capabilities })
    (hlisted : service.isListed kind record = true)
    (h : Lists caller middle kind records found service') :
    Lists caller service kind (record :: records)
      (⟨record.object.objectId.raw, capability⟩ :: found) service' where
  grants := hgrant.append h.grants
  frame := by
    have hframe := h.frame
    rwa [hmiddle] at hframe
  listed := by
    intro entry hentry
    rcases List.mem_cons.mp hentry with rfl | hrest
    · exact ⟨record, List.mem_cons_self, rfl, hlisted⟩
    · obtain ⟨other, hother, hid, hmatch⟩ := h.listed entry hrest
      rw [hmiddle] at hmatch
      exact ⟨other, List.mem_cons_of_mem _ hother, hid, hmatch⟩

theorem entryAt_of_mem_live {entry : CapabilityEntry} (h : entry ∈ table.entries.live) :
    ∃ slot, table.entryAt slot = some entry := by
  obtain ⟨slot, hslot⟩ := Table.mem_live_iff.mp h
  exact ⟨UInt32.ofNat slot, (CapabilityTable.entryAt_ofSlot slot).trans hslot⟩

theorem mem_live_of_entryAt {entry : CapabilityEntry} {slot : UInt32}
    (h : table.entryAt slot = some entry) : entry ∈ table.entries.live := by
  obtain ⟨hlt, hentry⟩ := CapabilityTable.entryAt_eq_some h
  exact Table.mem_live_iff.mpr ⟨⟨slot.toNat, hlt⟩, hentry⟩

/-- Grants take no capability away. -/
theorem GrantsTo.holdsGrant_mono {table' : CapabilityTable} {holder : ServiceId}
    {grants : List ObjectListEntry} (h : GrantsTo table holder grants table') {objectId : ObjectId}
    (hheld : holdsGrant table holder objectId = true) :
    holdsGrant table' holder objectId = true := by
  obtain ⟨entry, hentry, htest⟩ := List.any_eq_true.mp hheld
  obtain ⟨slot, hslot⟩ := entryAt_of_mem_live hentry
  exact List.any_eq_true.mpr ⟨entry, mem_live_of_entryAt (h.kept slot entry hslot), htest⟩

/-- The number of new capabilities that a query needs for the remaining records. -/
def queryDemand (service : ObjectService) (caller : ActiveUserProcess) (kind : ObjectKind)
    (records : List DynamicObjectRecord) (room : ℕ) : ℕ :=
  (((records.filter (service.isListed kind)).take room).filter fun record ↦
    ¬ holdsGrant service.capabilities caller.serviceId record.object.objectId).length

theorem queryDemand_skip {room : ℕ} (h : service.isListed kind record = false) :
    service.queryDemand caller kind (record :: records) room =
      service.queryDemand caller kind records room := by
  rw [queryDemand, List.filter_cons_of_neg (by simp [h]), queryDemand]

theorem queryDemand_listed {room : ℕ} (h : service.isListed kind record = true) :
    service.queryDemand caller kind (record :: records) (room + 1) =
      service.queryDemand caller kind records room +
        if holdsGrant service.capabilities caller.serviceId record.object.objectId then 0 else 1 := by
  rw [queryDemand, List.filter_cons_of_pos h, List.take_succ_cons, List.filter_cons, queryDemand]
  split_ifs <;> simp_all

/-- Grants do not raise the demand. -/
theorem queryDemand_le {middle : ObjectService} {grants : List ObjectListEntry}
    (hgrant : GrantsTo service.capabilities caller.serviceId grants middle.capabilities)
    (hmiddle : middle = { service with capabilities := middle.capabilities })
    (records : List DynamicObjectRecord) (room : ℕ) :
    middle.queryDemand caller kind records room ≤ service.queryDemand caller kind records room := by
  have hlisted : middle.isListed kind = service.isListed kind := by
    rw [hmiddle]
    rfl
  rw [queryDemand, queryDemand, hlisted]
  refine (List.monotone_filter_right _ fun record hlacking ↦ ?_).length_le
  simp only [decide_eq_true_eq] at hlacking ⊢
  exact fun hheld ↦ hlacking (hgrant.holdsGrant_mono hheld)

/-- The identities that a query lists of the remaining records. -/
def listedIds (service : ObjectService) (kind : ObjectKind) (records : List DynamicObjectRecord) (room : ℕ) :
    List UInt64 :=
  ((records.filter (service.isListed kind)).take room).map (·.object.objectId.raw)

/-- A query grants capabilities of listed records and changes nothing else. When it returns, its results
are the granted ones, and it fails only when the capability table has no room for what it grants. -/
theorem ensures_queryLoop (slots : List (Option DynamicObjectRecord))
    (results : List ObjectListEntry) (service : ObjectService)
    (hresults : results.length ≤ maxQueryResults) :
    Ensures (queryLoop caller kind slots results)
      (fun results' service' ↦ results'.length ≤ maxQueryResults ∧ ∃ found,
        results' = results ++ found ∧ found.map (·.objectId) =
          service.listedIds kind slots.reduceOption (maxQueryResults - results.length) ∧
          Lists caller service kind slots.reduceOption found service')
      (fun _ service' ↦ (∃ found, Lists caller service kind slots.reduceOption found service') ∧
        capabilityTableSlots <
          service.queryDemand caller kind slots.reduceOption (maxQueryResults - results.length) +
            service.capabilities.entries.live.length) service := by
  induction slots generalizing results service with
  | nil => exact ⟨hresults, [], (List.append_nil _).symm, by simp [listedIds], .nil⟩
  | cons slot rest ih =>
    have hdone (hroom : ¬ results.length < maxQueryResults) (records : List DynamicObjectRecord) :
        [] = service.listedIds kind records (maxQueryResults - results.length) := by
      rw [Nat.sub_eq_zero_of_le (not_lt.mp hroom)]
      rfl
    cases slot with
    | none =>
      rw [queryLoop, ensures_ite]
      exact ⟨fun _ ↦ ih results service hresults,
        fun hroom ↦ ⟨hresults, [], (List.append_nil _).symm, hdone hroom _, .nil⟩⟩
    | some record =>
      rw [queryLoop, ensures_ite]
      refine ⟨fun hroom ↦ ?_, fun hroom ↦ ⟨hresults, [], (List.append_nil _).symm, hdone hroom _, .nil⟩⟩
      rw [ensures_bind, ensures_read, ensures_ite, List.reduceOption_cons_of_some]
      refine ⟨fun hmatch ↦ ?_, fun hmatch ↦ ?_⟩
      · obtain ⟨room, hlength⟩ := Nat.exists_eq_add_of_lt hroom
        have hfirst : maxQueryResults - results.length = room + 1 := by omega
        have hlisted : service.isListed kind record = true := decide_eq_true hmatch
        rw [ensures_bind, hfirst, queryDemand_listed hlisted]
        refine (ensures_grantObjectCapability caller service record.object.objectId).mono ?_ ?_
        · rintro capability middle ⟨hgrant, hmiddle, hentries⟩
          have hcount : (results ++ [(⟨record.object.objectId.raw, capability⟩ :
              ObjectListEntry)]).length = results.length + 1 := List.length_append
          refine (ih _ middle (by omega)).mono ?_ ?_
          · rintro results' service' ⟨hbound, found, rfl, hids, hlists⟩
            refine ⟨hbound, ⟨record.object.objectId.raw, capability⟩ :: found, ?_, ?_, ?_⟩
            · rw [List.append_assoc, List.singleton_append]
            · rw [hmiddle, show maxQueryResults - _ = room by omega] at hids
              rw [listedIds, List.filter_cons_of_pos hlisted, List.take_succ_cons, List.map_cons, List.map_cons,
                hids]
              rfl
            · exact hlists.cons hgrant hmiddle hlisted
          · rintro error service' ⟨⟨found, hlists⟩, hdemand⟩
            refine ⟨⟨_, hlists.cons hgrant hmiddle hlisted⟩, ?_⟩
            have hless : middle.queryDemand caller kind rest.reduceOption room ≤
                service.queryDemand caller kind rest.reduceOption room :=
              queryDemand_le hgrant hmiddle _ _
            rw [show maxQueryResults - _ = room by omega] at hdemand
            omega
        · rintro error middle ⟨rfl, hfull, hlacking⟩
          refine ⟨⟨[], .nil⟩, ?_⟩
          rw [hlacking]
          simp only [Bool.false_eq_true, if_false]
          omega
      · rw [queryDemand_skip (decide_eq_false hmatch)]
        refine (ih results service hresults).mono ?_ ?_
        · rintro results' service' ⟨hbound, found, hfound, hids, hlists⟩
          refine ⟨hbound, found, hfound, ?_, hlists.skip⟩
          rw [hids, listedIds, listedIds, List.filter_cons_of_neg (by simpa [isListed] using hmatch)]
        · rintro error service' ⟨⟨found, hlists⟩, hdemand⟩
          exact ⟨⟨found, hlists.skip⟩, hdemand⟩

/-- The entries of a query are those that were found, and empty ones. -/
theorem mem_padResults {results : List ObjectListEntry} (h : results.length ≤ maxQueryResults)
    (entry : ObjectListEntry) :
    (entry ∈ results → entry ∈ (padResults results).toList) ∧
      (entry ∈ (padResults results).toList → entry ∈ results ∨ entry = ⟨0, ⟨0⟩⟩) := by
  constructor
  · intro hentry
    obtain ⟨index, hindex, rfl⟩ := List.mem_iff_getElem.mp hentry
    rw [padResults, Vector.toList_ofFn, List.mem_ofFn]
    exact ⟨⟨index, by omega⟩, by simp [hindex]⟩
  · intro hentry
    rw [padResults, Vector.toList_ofFn, List.mem_ofFn] at hentry
    obtain ⟨index, rfl⟩ := hentry
    cases hfound : results[index.val]? with
    | none => exact Or.inr rfl
    | some found => exact Or.inl (List.mem_of_getElem? hfound)

theorem ensures_queryObjects (workspace : PackedCapability) :
    Ensures (queryObjects caller workspace kind)
      (fun entries service' ↦
        service.validateWorkspace caller workspace .read = .ok () ∧ ∃ found,
          (∀ entry, (entry ∈ found → entry ∈ entries.toList) ∧
            (entry ∈ entries.toList → entry ∈ found ∨ entry = ⟨0, ⟨0⟩⟩)) ∧
          Lists caller service kind service.objects.objects.live found service')
      (fun _ service' ↦ ∃ found,
        Lists caller service kind service.objects.objects.live found service') service := by
  rw [queryObjects, ensures_bind, ensures_read, ensures_bind]
  refine ensures_ofExcept.mpr ⟨fun _ hvalid ↦ ?_, fun _ _ ↦ ⟨[], .nil⟩⟩
  rw [ensures_bind]
  refine (ensures_queryLoop service.objects.objects.toList [] service (Nat.zero_le _)).mono ?_
    fun _ _ hfailed ↦ hfailed.1
  rintro results service' ⟨hlength, found, hfound, -, hlists⟩
  obtain rfl : results = found := hfound
  exact ⟨hvalid, results, mem_padResults hlength, hlists⟩

/-! ### Queries that fit -/

/-- The records that a query has to grant a new capability for. -/
def ungranted (service : ObjectService) (caller : ActiveUserProcess) (kind : ObjectKind) :
    List DynamicObjectRecord :=
  ((service.objects.objects.live.filter (service.isListed kind)).take maxQueryResults).filter
    fun record ↦ ¬ holdsGrant service.capabilities caller.serviceId record.object.objectId

/-- The capability table has room for what a query grants. -/
def QueryFits (service : ObjectService) (caller : ActiveUserProcess) (kind : ObjectKind) : Prop :=
  (service.ungranted caller kind).length + service.capabilities.entries.live.length ≤
    capabilityTableSlots

/-- A query of a caller with the workspace capability returns when the capability table has room. It lists
the first records of the kind. -/
theorem ensures_queryObjects_of_fits {workspace : PackedCapability}
    (hfits : service.validateWorkspace caller workspace .read = .ok () →
      service.QueryFits caller kind) :
    Ensures (queryObjects caller workspace kind)
      (fun entries service' ↦ ∃ found, entries = padResults found ∧
        found.map (·.objectId) = service.listedIds kind service.objects.objects.live maxQueryResults ∧
        Lists caller service kind service.objects.objects.live found service')
      (fun _ service' ↦ service' = service ∧ service.validateWorkspace caller workspace .read ≠ .ok ())
      service := by
  rw [queryObjects, ensures_bind, ensures_read, ensures_bind]
  refine ensures_ofExcept.mpr ⟨fun _ hvalid ↦ ?_, fun _ herror ↦ ⟨rfl, by rw [herror]; exact nofun⟩⟩
  rw [ensures_bind]
  refine (ensures_queryLoop service.objects.objects.toList [] service (Nat.zero_le _)).mono ?_
    fun _ _ hfailed ↦ absurd (hfits hvalid) (not_le.mpr hfailed.2)
  rintro results service' ⟨-, found, hfound, hids, hlists⟩
  exact ⟨found, congrArg padResults hfound, hids, hlists⟩

end Grants

/-! ### Boot -/

/-- A service has the authority and the clock of the seeded one. -/
def BootRuntime (service : ObjectService) : Prop :=
  service.capabilities = seededService.capabilities ∧
    service.shellWorkspace = seededService.shellWorkspace ∧
    service.shellCaller = seededService.shellCaller ∧
    service.shellWorkspaceCapability = seededService.shellWorkspaceCapability ∧
    service.nextTimestampTicks = seededService.nextTimestampTicks

theorem bootRuntime_of_newSeeded {service : ObjectService} (h : newSeeded = .ok service) :
    service.BootRuntime := by
  obtain rfl : seededService = service := Except.ok.inj (newSeeded_eq.symm.trans h)
  exact ⟨rfl, rfl, rfl, rfl, rfl⟩

/-- A snapshot brings back the tables alone: authority and clock start again as at the first boot. -/
theorem bootRuntime_of_fromSnapshot {snapshot : ObjectServiceSnapshot} {restored : ObjectService}
    (h : fromSnapshot snapshot = .ok restored) : restored.BootRuntime := by
  rw [fromSnapshot, newSeeded_eq, ok_bind] at h
  have happly : Preserves BootRuntime (applySnapshotPreservingRuntimeAuthority snapshot) := by
    refine (Preserves.ofExcept _).bind fun _ ↦ ?_
    refine Preserves.bind (fun _ hservice ↦ hservice) fun _ ↦ ?_
    refine (Preserves.ofExcept _).bind fun _ ↦ ?_
    refine Preserves.bind (fun _ hservice ↦ hservice) fun _ ↦ ?_
    refine (Preserves.ofExcept _).bind fun _ ↦ ?_
    exact fun _ hservice ↦ hservice
  exact (happly seededService (bootRuntime_of_newSeeded newSeeded_eq)).build_eq_ok h

end ObjectService

end Pythos.Core
