import Pythos.Core.ObjectServiceGrants

/-!
# Authority over objects

A ledger records the capabilities that the calls of a boot returned, and to whom. As long as every query
finds room for what it grants, the capability table holds nothing that is not in the ledger, so an object
is read or revised only through a capability that its caller got for it, and the workspace is listed and
filled only through the workspace capability of the caller. A query that runs out of room fails after it
has granted part of its entries; those are in the table although no call returned them.

The note of the external workspace is out of reach in every state: no capability is ever granted for it,
and its record stays what it was seeded with.
-/

namespace Pythos.Core

open Foundation Shared Stateful

namespace ObjectService

/-! ### The ledger of a boot -/

/-- A capability of an object that a call returned. -/
structure ObjectGrant where
  holder : ServiceId
  capability : PackedCapability
  objectId : ObjectId
  deriving DecidableEq

/-- A capability of the shell workspace that a call returned. -/
structure WorkspaceGrant where
  holder : ServiceId
  capability : PackedCapability
  deriving DecidableEq

structure Ledger where
  objects : List ObjectGrant
  workspaces : List WorkspaceGrant
  deriving DecidableEq

/-- The ledger of a service that has just booted: the shell has the workspace. -/
def Ledger.boot (service : ObjectService) : Ledger where
  objects := []
  workspaces := [⟨service.shellCaller.serviceId, service.shellWorkspaceCapability⟩]

def Ledger.append (ledger issued : Ledger) : Ledger where
  objects := ledger.objects ++ issued.objects
  workspaces := ledger.workspaces ++ issued.workspaces

/-- What a creation returns. -/
def issuedBy (caller : ActiveUserProcess) : Except ObjectServiceError ObjectCreateResult → Ledger
  | .ok result => ⟨[⟨caller.serviceId, result.objectCapability, result.objectId⟩], []⟩
  | .error _ => ⟨[], []⟩

/-- The capabilities that a call returns. -/
def Operation.issued (service : ObjectService) : Operation → Ledger
  | .createObject caller workspace kind =>
    issuedBy caller (ObjectService.createObject caller workspace kind service).1
  | .createPackageObject caller objectId =>
    issuedBy caller (ObjectService.createPackageObject caller objectId service).1
  | .createSchemaDefinitionObject caller objectId =>
    issuedBy caller (ObjectService.createSchemaDefinitionObject caller objectId service).1
  | .createPackageDefinedObject caller authority input =>
    issuedBy caller (ObjectService.createPackageDefinedObject caller authority input service).1
  | .queryObjects caller workspace kind =>
    match (ObjectService.queryObjects caller workspace kind service).1 with
    | .ok entries =>
      ⟨entries.toList.map fun entry ↦ ⟨caller.serviceId, entry.capability, ⟨entry.objectId⟩⟩, []⟩
    | .error _ => ⟨[], []⟩
  | .grantWorkspaceCapability caller =>
    match (ObjectService.grantWorkspaceCapability caller service).1 with
    | .ok capability => ⟨[], [⟨caller.serviceId, capability⟩]⟩
    | .error _ => ⟨[], []⟩
  | _ => ⟨[], []⟩

/-- A query finds room in the capability table for what it grants. -/
def Operation.Fits (service : ObjectService) : Operation → Prop
  | .queryObjects caller workspace kind =>
    service.validateWorkspace caller workspace .read = .ok () → service.QueryFits caller kind
  | _ => True

/-- The runs in which every query fits, with the ledger of the current boot. -/
inductive BootRun : ObjectService → Ledger → Prop
  | seeded {service : ObjectService} (h : newSeeded = .ok service) :
      BootRun service (Ledger.boot service)
  | restored {service restored : ObjectService} {ledger : Ledger} (generation : UInt64)
      (h : BootRun service ledger)
      (hrestored : fromSnapshot { service.encodeSnapshot with generation } = .ok restored) :
      BootRun restored (Ledger.boot restored)
  | performed {service : ObjectService} {ledger : Ledger} (operation : Operation)
      (h : BootRun service ledger) (hfits : operation.Fits service) :
      BootRun (operation.perform service) (ledger.append (operation.issued service))

theorem BootRun.reachable {service : ObjectService} {ledger : Ledger} (h : BootRun service ledger) :
    Reachable service := by
  induction h with
  | seeded hseeded => exact .seeded hseeded
  | restored generation _ hrestored ih => exact .restored generation ih hrestored
  | performed operation _ _ ih => exact .performed operation ih

/-! ### The external note -/

/-- The record that the external note is seeded with. -/
def externalRecord : TypedObjectRecord :=
  (pushNewField (.new externalNote .note 1) fieldText 1 secretText).toOption.getD
    (.new externalNote .note 1)

theorem externalRecord_objectId : externalRecord.objectId = externalNote := by decide +kernel

theorem externalRecord_objectKind : externalRecord.objectKind = .note := by decide +kernel

/-- The external note alone belongs to the external workspace. -/
def Placed (service : ObjectService) : Prop :=
  (∀ relationship ∈ service.relationships.relationships.live,
    relationship.target = externalWorkspaceObjectId → relationship.source = externalNote) ∧
  belongsTo externalNote externalWorkspaceObjectId ∈ service.relationships.relationships.live

theorem stable_placed : Stable Placed where
  objects := fun _ h ↦ h
  quotas := fun _ h ↦ h
  noteId := fun _ h ↦ h
  insert := by
    intro object service h
    rw [onRelationships, ensures_within]
    refine (BoundedRelationshipStore.ensures_insertObject service.relationships object).mono ?_ ?_
    · rintro _ relationships ⟨-, -, hsame⟩
      rw [Placed, hsame]
      exact h
    · rintro _ relationships ⟨rfl, -⟩
      exact h
  place := by
    intro objectId service h
    rw [onRelationships, ensures_within]
    refine (BoundedRelationshipStore.ensures_addRelationship service.relationships
      (belongsTo objectId shellWorkspaceObjectId)).mono ?_ ?_
    · rintro _ relationships ⟨-, hlive⟩
      refine ⟨fun relationship hmem htarget ↦ ?_, ?_⟩
      · rcases List.mem_cons.mp (hlive.mem_iff.mp hmem) with rfl | hold
        · exact absurd htarget (show shellWorkspaceObjectId ≠ externalWorkspaceObjectId by decide)
        · exact h.1 relationship hold htarget
      · exact hlive.mem_iff.mpr (List.mem_cons_of_mem _ h.2)
    · rintro _ relationships ⟨rfl, -⟩
      exact h

/-- An entry of the capability table is for the shell workspace or for a stored object other than the
external note. -/
def Confined (service : ObjectService) : Prop :=
  ∀ slot entry, service.capabilities.entryAt slot = some entry →
    entry.resource = ⟨shellWorkspaceObjectId.raw⟩ ∨ ∃ objectId ∈ service.objects.ids,
      entry.resource = ⟨objectId.raw⟩ ∧ objectId ≠ externalNote

/-- The external note has the record that it was seeded with, and nobody has a capability of it. -/
structure Sealed (records : List TypedObjectRecord) (service : ObjectService) : Prop where
  holds : Holds records service
  external : externalRecord ∈ records
  placed : service.Placed
  workspace : service.shellWorkspace = ⟨shellWorkspaceObjectId.raw⟩
  confined : service.Confined

namespace Sealed

variable {service : ObjectService} {records : List TypedObjectRecord}

theorem external_mem (h : Sealed records service) : externalNote ∈ idsOf records := by
  rw [← externalRecord_objectId]
  exact List.mem_map_of_mem h.external

/-- A stored object is no workspace root. -/
theorem not_root (h : Sealed records service) {objectId : ObjectId}
    (hmem : objectId ∈ service.objects.ids) : objectId ∉ workspaceRoots := by
  have hnodup := h.holds.known_perm.nodup_iff.mp h.holds.known_nodup
  rw [h.holds.objects_ids.mem_iff] at hmem
  exact fun hroot ↦ (List.nodup_append.mp hnodup).2.2 objectId hroot objectId hmem rfl

/-- A query does not list the external note. -/
theorem ne_of_isListed (h : Sealed records service) {kind : ObjectKind}
    {record : DynamicObjectRecord} (hlisted : service.isListed kind record = true) :
    record.object.objectId ≠ externalNote := by
  intro heq
  have hquery : service.relationships.queryFirst externalNote .belongsTo =
      some (belongsTo externalNote externalWorkspaceObjectId) :=
    (Tables.queryFirst_eq_some_iff h.holds).mpr ⟨h.placed.2, rfl⟩
  have hshell := (of_decide_eq_true hlisted).2
  rw [heq, objectBelongsToWorkspace, hquery] at hshell
  exact absurd (of_decide_eq_true hshell)
    (show externalWorkspaceObjectId ≠ shellWorkspaceObjectId by decide)

/-- The identity of the record at the head of the list is stored. -/
theorem mem_ids_of_cons {service' : ObjectService} {object : TypedObjectRecord}
    (h : Holds (object :: records) service') : object.objectId ∈ service'.objects.ids :=
  h.objects_ids.mem_iff.mpr List.mem_cons_self

end Sealed

/-! ### Grants of a call -/

/-- The caller of an operation. -/
def Operation.caller : Operation → ActiveUserProcess
  | .createObject caller _ _ | .createTaskServiceObject caller _ | .createPackageObject caller _
  | .createSchemaDefinitionObject caller _ | .createPackageDefinedObject caller _ _
  | .reviseField caller _ _ _ _ | .reviseTaskServiceObject caller _ | .queryObjects caller _ _
  | .grantWorkspaceCapability caller => caller

/-- The entries that a call adds to the capability table: for stored objects other than the external
note, returned to the caller if the call fits, and for the shell workspace, returned to the caller. -/
structure CallGrants (service : ObjectService) (operation : Operation)
    (objects workspaces : List ObjectListEntry) : Prop where
  grants : GrantsTo service.capabilities operation.caller.serviceId (objects ++ workspaces)
    (operation.perform service).capabilities
  workspace : (operation.perform service).shellWorkspace = service.shellWorkspace
  workspaces_issued : ∀ grant ∈ workspaces, grant.objectId = shellWorkspaceObjectId.raw ∧
    (⟨operation.caller.serviceId, grant.capability⟩ : WorkspaceGrant) ∈
      (operation.issued service).workspaces
  objects_stored : ∀ grant ∈ objects,
    (⟨grant.objectId⟩ : ObjectId) ∈ (operation.perform service).objects.ids ∧
      (⟨grant.objectId⟩ : ObjectId) ≠ externalNote
  objects_issued : operation.Fits service → ∀ grant ∈ objects,
    (⟨operation.caller.serviceId, grant.capability, ⟨grant.objectId⟩⟩ : ObjectGrant) ∈
      (operation.issued service).objects

section Calls

variable {service : ObjectService} {records : List TypedObjectRecord}

variable {operation : Operation}

/-- A call that leaves the authority as it was. -/
theorem CallGrants.of_same (h : SameAuthority service (operation.perform service)) :
    CallGrants service operation [] [] where
  grants := by
    rw [h.1]
    exact .nil _ _
  workspace := h.2
  workspaces_issued := nofun
  objects_stored := nofun
  objects_issued := nofun

section

variable (h : Sealed records service)

include h

/-- A creation grants its result alone, which is a new object. -/
theorem Sealed.callGrants_creation {program : Program ObjectCreateResult}
    (hperform : operation.perform service = (program service).2)
    (hissued : operation.issued service = issuedBy operation.caller (program service).1)
    (hgrants : GrantsResult operation.caller service program)
    (hcreates : Ensures program (fun result service' ↦
      result.objectId ∉ idsOf records ∧ result.objectId ∈ service'.objects.ids)
      (fun _ _ ↦ True) service) :
    ∃ objects workspaces, CallGrants service operation objects workspaces := by
  rcases (hgrants.and hcreates).cases with
    ⟨result, hresult, ⟨hgrant, hworkspace⟩, hnew, hmem⟩ | ⟨error, -, hsame, -⟩
  · rw [← hperform] at hgrant hworkspace hmem
    refine ⟨[_], [], hgrant, hworkspace, nofun, List.forall_mem_singleton.mpr ⟨hmem, fun heq ↦ hnew ?_⟩,
      fun _ ↦ List.forall_mem_singleton.mpr ?_⟩
    · obtain heq : result.objectId = externalNote := heq
      rw [heq]
      exact h.external_mem
    · rw [hissued, hresult]
      exact List.mem_singleton_self _
  · rw [← hperform] at hsame
    exact ⟨[], [], .of_same hsame⟩

theorem Sealed.callGrants_internal {object : TypedObjectRecord}
    (hperform : operation.perform service =
      (createInternalObject operation.caller object service).2)
    (hissued : operation.issued service =
      issuedBy operation.caller (createInternalObject operation.caller object service).1) :
    ∃ objects workspaces, CallGrants service operation objects workspaces := by
  refine h.callGrants_creation hperform hissued (createInternalObject_grants _ _)
    ((ensures_createInternalObject h.holds _ _).imp ?_)
  rintro result service' ⟨hid, hnew, hholds⟩
  rw [hid]
  exact ⟨hnew, mem_ids_of_cons hholds⟩

theorem Sealed.callGrants_query (caller : ActiveUserProcess) (workspace : PackedCapability)
    (kind : ObjectKind) :
    ∃ objects workspaces,
      CallGrants service (.queryObjects caller workspace kind) objects workspaces := by
  have hstored {found : List ObjectListEntry} {service' : ObjectService}
      (hlists : Lists caller service kind service.objects.objects.live found service') :
      ∀ grant ∈ found, (⟨grant.objectId⟩ : ObjectId) ∈ service'.objects.ids ∧
        (⟨grant.objectId⟩ : ObjectId) ≠ externalNote := by
    intro grant hgrant
    obtain ⟨record, hrecord, hid, hlisted⟩ := hlists.listed grant hgrant
    rw [hid, hlists.frame]
    exact ⟨List.mem_map_of_mem hrecord, h.ne_of_isListed hlisted⟩
  have hall {found : List ObjectListEntry} (hlists : Lists caller service kind
      service.objects.objects.live found (queryObjects caller workspace kind service).2)
      (hissued : Operation.Fits service (.queryObjects caller workspace kind) →
        ∀ grant ∈ found, (⟨caller.serviceId, grant.capability, ⟨grant.objectId⟩⟩ : ObjectGrant) ∈
          (Operation.issued service (.queryObjects caller workspace kind)).objects) :
      CallGrants service (.queryObjects caller workspace kind) found [] := by
    have hworkspace : (queryObjects caller workspace kind service).2.shellWorkspace =
        service.shellWorkspace := by rw [hlists.frame]
    refine ⟨?_, hworkspace, nofun, hstored hlists, hissued⟩
    rw [List.append_nil]
    exact hlists.grants
  have hquery : Ensures (queryObjects caller workspace kind) _ _ service :=
    ensures_queryObjects workspace
  by_cases hfits : Operation.Fits service (.queryObjects caller workspace kind)
  · -- a query that fits returns all that it grants
    rcases (hquery.and (ensures_queryObjects_of_fits hfits)).cases with
      ⟨entries, hentries, ⟨-, found, hfound, hlists⟩, -⟩ | ⟨error, -, -, hsame, -⟩
    · refine ⟨found, [], hall hlists fun _ grant hgrant ↦ ?_⟩
      rw [Operation.issued, hentries]
      exact List.mem_map_of_mem ((hfound grant).1 hgrant)
    · refine ⟨[], [], .of_same ?_⟩
      rw [Operation.perform, hsame]
      exact ⟨rfl, rfl⟩
  · rcases hquery.cases with ⟨entries, -, -, found, -, hlists⟩ | ⟨error, -, found, hlists⟩
    · exact ⟨found, [], hall hlists fun h ↦ absurd h hfits⟩
    · exact ⟨found, [], hall hlists fun h ↦ absurd h hfits⟩

theorem Sealed.callGrants_workspace (caller : ActiveUserProcess) :
    ∃ objects workspaces,
      CallGrants service (.grantWorkspaceCapability caller) objects workspaces := by
  have hgrant : Ensures (grantWorkspaceCapability caller) _ _ service :=
    grantWorkspaceCapability_grants caller
  rcases hgrant.cases with ⟨capability, hcapability, hgrants, hworkspace⟩ | ⟨error, -, hsame⟩
  · refine ⟨[], _, hgrants, hworkspace, fun grant hin ↦ ?_, nofun, nofun⟩
    obtain rfl := List.mem_singleton.mp hin
    refine ⟨congrArg ResourceId.raw h.workspace, ?_⟩
    rw [Operation.issued, hcapability]
    exact List.mem_singleton_self _
  · exact ⟨[], [], .of_same hsame⟩

/-- What any call adds to the capability table. -/
theorem Sealed.callGrants (operation : Operation) :
    ∃ objects workspaces, CallGrants service operation objects workspaces := by
  have hsame : SameAuthority service service := ⟨rfl, rfl⟩
  have hphases := phases_sameAuthority service
  cases operation with
  | createObject caller workspace kind =>
    refine h.callGrants_creation rfl rfl (createObject_grants caller workspace kind)
      ((ensures_createObject h.holds caller workspace kind).imp ?_)
    rintro result service' ⟨hnew, hholds⟩
    exact ⟨hnew, mem_ids_of_cons hholds⟩
  | createTaskServiceObject caller object =>
    exact ⟨[], [], .of_same (hphases.createTaskServiceObject hsame object).final⟩
  | createPackageObject caller objectId | createSchemaDefinitionObject caller objectId =>
    exact h.callGrants_internal rfl rfl
  | createPackageDefinedObject caller authority input =>
    refine h.callGrants_creation rfl rfl (createPackageDefinedObject_grants caller authority input)
      ((ensures_createPackageDefinedObject h.holds caller authority input).imp ?_)
    rintro result service' ⟨object, hobject, hnew, hholds⟩
    refine ⟨hnew, ?_⟩
    rw [← packageDefinedRecord_objectId hobject]
    exact mem_ids_of_cons hholds
  | reviseField caller objectCapability objectId fieldId value =>
    exact ⟨[], [], .of_same (hphases.reviseField hsame objectCapability objectId fieldId value).final⟩
  | reviseTaskServiceObject caller object =>
    exact ⟨[], [], .of_same (hphases.reviseTaskServiceObject hsame object).final⟩
  | queryObjects caller workspace kind => exact h.callGrants_query caller workspace kind
  | grantWorkspaceCapability caller => exact h.callGrants_workspace caller

end

end Calls

/-! ### The external note is out of reach -/

section External

variable {service : ObjectService} {records records' : List TypedObjectRecord}

/-- A valid capability of a resource has an entry in the table. -/
theorem entry_of_validateCapabilityResource {caller : ActiveUserProcess}
    {capability : PackedCapability} {resource : ResourceId} {rights : RightsMask}
    (h : service.validateCapabilityResource caller capability resource rights = .ok ()) :
    ∃ entry, service.capabilities.entryAt capability.slot = some entry ∧
      .fromParts capability.slot entry.generation = capability ∧ entry.holder = caller.serviceId ∧
        entry.resource = resource := by
  unfold validateCapabilityResource at h
  cases hvalid : service.capabilities.validate caller.serviceId (unpackCapability capability)
    resource rights with
  | error error =>
    rw [hvalid] at h
    cases h
  | ok _ =>
    obtain ⟨entry, hentry, hgeneration, -, hholder, hresource, -⟩ :=
      CapabilityTable.validate_eq_ok_iff.mp hvalid
    refine ⟨entry, hentry, ?_, hholder, hresource⟩
    rw [hgeneration]
    exact PackedCapability.fromParts_slot_generation capability

theorem eq_of_resource_eq {first second : ObjectId}
    (h : (⟨first.raw⟩ : ResourceId) = ⟨second.raw⟩) : first = second :=
  congrArg ObjectId.mk (congrArg ResourceId.raw h)

/-- Nobody has a capability of the external note. -/
theorem Sealed.not_validateObject (h : Sealed records service) (caller : ActiveUserProcess)
    (capability : PackedCapability) (rights : RightsMask) :
    service.validateObject caller capability externalNote rights ≠ .ok () := by
  intro hvalid
  obtain ⟨entry, hentry, -, -, hresource⟩ := entry_of_validateCapabilityResource hvalid
  rcases h.confined _ _ hentry with hshell | ⟨objectId, -, hid, hne⟩
  · rw [hresource] at hshell
    exact absurd (eq_of_resource_eq hshell) (by decide)
  · rw [hresource] at hid
    exact hne (eq_of_resource_eq hid).symm

/-- No call changes the record of the external note. -/
theorem Sealed.external_step (h : Sealed records service) {operation : Operation}
    (hchange : RecordChange service records operation records') : externalRecord ∈ records' := by
  have hreplaced {current : TypedObjectRecord} {rest : List TypedObjectRecord}
      (hperm : records.Perm (current :: rest)) (hne : externalRecord ≠ current) :
      externalRecord ∈ rest :=
    (List.mem_cons.mp (hperm.mem_iff.mp h.external)).resolve_left hne
  cases hchange with
  | kept => exact h.external
  | revised hvalid hcurrent hrevised hperm =>
    refine List.mem_cons_of_mem _ (hreplaced hperm fun heq ↦ ?_)
    have hid := (h.holds.mem_of_currentRecord hcurrent).2
    rw [← heq, externalRecord_objectId] at hid
    exact h.not_validateObject _ _ _ (hid ▸ hvalid)
  | revisedTask hkind hcurrent hsame hperm =>
    refine List.mem_cons_of_mem _ (hreplaced hperm fun heq ↦ ?_)
    rw [← hsame, ← heq, externalRecord_objectKind] at hkind
    cases hkind
  | _ => exact List.mem_cons_of_mem _ h.external

/-- Every call keeps the external note out of reach. -/
theorem Sealed.perform (h : Sealed records service) (operation : Operation) :
    ∃ records', RecordChange service records operation records' ∧
      Sealed records' (operation.perform service) := by
  obtain ⟨records', hchange, hholds⟩ := h.holds.perform operation
  obtain ⟨objects, workspaces, hcall⟩ := h.callGrants operation
  refine ⟨records', hchange, hholds, h.external_step hchange,
    (stable_placed.phases fun _ _ hplaced ↦ hplaced).perform (fun _ hplaced ↦ hplaced) h.placed operation,
    hcall.workspace.trans h.workspace, fun slot entry hentry ↦ ?_⟩
  rcases hcall.grants.entry_cases hentry with hold | ⟨grant, hgrant, -, rfl⟩
  · refine (h.confined slot entry hold).imp_right ?_
    rintro ⟨objectId, hmem, hrest⟩
    refine ⟨objectId, ?_, hrest⟩
    rw [hholds.objects_ids.mem_iff]
    exact hchange.ids_subset h.holds (h.holds.objects_ids.mem_iff.mp hmem)
  · rcases List.mem_append.mp hgrant with hobject | hworkspace
    · obtain ⟨hmem, hne⟩ := hcall.objects_stored grant hobject
      exact Or.inr ⟨⟨grant.objectId⟩, hmem, rfl, hne⟩
    · exact Or.inl (congrArg ResourceId.mk (hcall.workspaces_issued grant hworkspace).1)

/-- After a boot the shell workspace is the only resource that is granted. -/
theorem entry_of_bootRuntime (h : service.BootRuntime) {slot : UInt32} {entry : CapabilityEntry}
    (hentry : service.capabilities.entryAt slot = some entry) :
    entry.resource = ⟨shellWorkspaceObjectId.raw⟩ ∧
      (⟨entry.holder, .fromParts slot entry.generation⟩ : WorkspaceGrant) ∈
        (Ledger.boot service).workspaces := by
  obtain ⟨hcapabilities, -, hcaller, hcapability, -⟩ := h
  have hgrant : seededService.capabilities = (CapabilityTable.grant seededService.shellCaller.serviceId
      ⟨shellWorkspaceObjectId.raw⟩ workspaceRights CapabilityTable.new).2 := by decide +kernel
  have hhandle : (CapabilityTable.grant seededService.shellCaller.serviceId
      ⟨shellWorkspaceObjectId.raw⟩ workspaceRights CapabilityTable.new).1 =
        .ok (unpackCapability seededService.shellWorkspaceCapability) := by decide +kernel
  rcases (CapabilityTable.ensures_grant CapabilityTable.new seededService.shellCaller.serviceId
    ⟨shellWorkspaceObjectId.raw⟩ workspaceRights).cases with ⟨handle, hok, hgranted⟩ | ⟨_, herror, -⟩
  · obtain rfl := Except.ok.inj (hok.symm.trans hhandle)
    rw [hcapabilities, hgrant] at hentry
    rcases hgranted.added slot entry hentry with hold | rfl
    · rw [CapabilityTable.entryAt_new] at hold
      cases hold
    · obtain rfl := Option.some.inj (hentry.symm.trans hgranted.held)
      refine ⟨rfl, ?_⟩
      rw [Ledger.boot, hcaller, hcapability]
      refine List.mem_singleton.mpr (congrArg (WorkspaceGrant.mk _) ?_)
      exact PackedCapability.fromParts_slot_generation _
  · rw [hhandle] at herror
    cases herror

theorem sealed_of_boot (h : service.BootRuntime) (hholds : Holds records service)
    (hexternal : externalRecord ∈ records) (hplaced : service.Placed) : Sealed records service where
  holds := hholds
  external := hexternal
  placed := hplaced
  workspace := by
    rw [h.2.1]
    decide +kernel
  confined := fun _ _ hentry ↦ Or.inl (entry_of_bootRuntime h hentry).1

/-- The external note is out of reach in every reachable state. -/
theorem Reachable.exists_sealed (h : Reachable service) : ∃ records, Sealed records service := by
  induction h with
  | seeded hseeded =>
    obtain ⟨records, hholds, -⟩ := newSeeded_agrees hseeded
    refine ⟨records, sealed_of_boot (bootRuntime_of_newSeeded hseeded) hholds ?_ ?_⟩
    · rw [← hholds.stored_perm.mem_iff]
      obtain rfl := Except.ok.inj (newSeeded_eq.symm.trans hseeded)
      decide +kernel
    · obtain rfl := Except.ok.inj (newSeeded_eq.symm.trans hseeded)
      constructor
      · decide +kernel
      · decide +kernel
  | restored generation hreachable hrestored ih =>
    obtain ⟨records, hsealed⟩ := ih
    obtain ⟨restored', hfrom, ⟨records', hholds', -⟩, hobjects, hrelationships, -⟩ :=
      fromSnapshot_encodeSnapshot hreachable.agrees generation
    have hruntime := bootRuntime_of_fromSnapshot hrestored
    rw [hfrom] at hrestored
    obtain rfl := Except.ok.inj hrestored
    refine ⟨records', sealed_of_boot hruntime hholds' ?_ ?_⟩
    · rw [← hholds'.stored_perm.mem_iff, hobjects, hsealed.holds.stored_perm.mem_iff]
      exact hsealed.external
    · exact ⟨fun relationship hmem ↦ hsealed.placed.1 relationship (hrelationships.mem_iff.mp hmem),
        hrelationships.mem_iff.mpr hsealed.placed.2⟩
  | performed operation _ ih =>
    obtain ⟨records, hsealed⟩ := ih
    obtain ⟨records', -, hsealed'⟩ := hsealed.perform operation
    exact ⟨records', hsealed'⟩

/-- The records of an object, in the store and with a current revision. -/
def contentOf (service : ObjectService) (objectId : ObjectId) :
    List TypedObjectRecord × List TypedObjectRecord :=
  ((service.objects.objects.live.map DynamicObjectRecord.object).filter fun object ↦
      object.objectId = objectId,
    (service.revisions.current.live.map CurrentObject.object).filter fun object ↦
      object.objectId = objectId)

theorem Sealed.contentOf_external (h : Sealed records service) :
    service.contentOf externalNote = ([externalRecord], [externalRecord]) := by
  have hfilter {objects : List TypedObjectRecord} (hperm : objects.Perm records) :
      objects.filter (fun object ↦ object.objectId = externalNote) = [externalRecord] := by
    rw [← externalRecord_objectId]
    refine filter_eq_singleton ?_ (hperm.mem_iff.mpr h.external)
    exact (hperm.map TypedObjectRecord.objectId).nodup_iff.mpr h.holds.nodup_idsOf
  rw [contentOf, hfilter h.holds.stored_perm, hfilter h.holds.recorded_perm]

/-- The external note alone belongs to the external workspace. -/
theorem Sealed.eq_external (h : Sealed records service) {objectId : ObjectId}
    (hbelongs : service.objectBelongsToWorkspace objectId externalWorkspaceObjectId = true) :
    objectId = externalNote := by
  unfold objectBelongsToWorkspace at hbelongs
  cases hquery : service.relationships.queryFirst objectId .belongsTo with
  | none =>
    rw [hquery] at hbelongs
    cases hbelongs
  | some relationship =>
    rw [hquery] at hbelongs
    obtain ⟨hmem, hsource, -⟩ := BoundedRelationshipStore.queryFirst_eq_some hquery
    exact hsource.symm.trans (h.placed.1 relationship hmem (of_decide_eq_true hbelongs))

/-- The state after a sequence of calls. -/
def performAll (service : ObjectService) (operations : List Operation) : ObjectService :=
  operations.foldl (fun service operation ↦ operation.perform service) service

theorem Reachable.performAll (h : Reachable service) (operations : List Operation) :
    Reachable (service.performAll operations) := by
  induction operations generalizing service with
  | nil => exact h
  | cons operation rest ih => exact ih (.performed operation h)

/-- Nobody reads or revises an object. -/
def OutOfReach (service : ObjectService) (objectId : ObjectId) : Prop :=
  ∀ (caller : ActiveUserProcess) (capability : PackedCapability),
    service.inspectObject caller capability objectId = .error .denied ∧
      service.history caller capability objectId = .error .denied ∧
      ∀ (fieldId : UInt16) (value : Bytes),
        (reviseField caller capability objectId fieldId value service).1 = .error .denied

theorem validateObject_eq_error {caller : ActiveUserProcess} {capability : PackedCapability}
    {objectId : ObjectId} {rights : RightsMask}
    (h : service.validateObject caller capability objectId rights ≠ .ok ()) :
    service.validateObject caller capability objectId rights = .error .denied := by
  unfold validateObject validateCapabilityResource at h ⊢
  split at h
  · exact absurd rfl h
  · rfl

theorem Sealed.outOfReach (h : Sealed records service) : service.OutOfReach externalNote := by
  intro caller capability
  have hdenied (rights : RightsMask) :
      service.validateObject caller capability externalNote rights = .error .denied :=
    validateObject_eq_error (h.not_validateObject caller capability rights)
  refine ⟨?_, ?_, fun fieldId value ↦ ?_⟩
  · rw [inspectObject, hdenied]
    rfl
  · rw [history, hdenied]
    rfl
  · have hfails : Ensures (reviseField caller capability externalNote fieldId value)
        (fun _ _ ↦ False) (fun error _ ↦ error = .denied) service := by
      rw [reviseField, ensures_bind, ensures_read, hdenied, ensures_bind]
      exact ensures_ofExcept.mpr
        ⟨fun _ hok ↦ (by cases hok), fun _ herror ↦ (Except.error.inj herror).symm⟩
    rcases hfails.cases with ⟨_, -, hfalse⟩ | ⟨error, herror, rfl⟩
    · exact hfalse.elim
    · exact herror

end External

/-! ### The authority of callers -/

/-- Who reads, revises, lists and creates has got the capability for it in this boot, and the objects of
the external workspace are neither read nor changed by any calls. -/
structure Authorised (service : ObjectService) (ledger : Ledger) : Prop where
  inspect : ∀ caller capability objectId inspection,
    service.inspectObject caller capability objectId = .ok inspection →
      ⟨caller.serviceId, capability, objectId⟩ ∈ ledger.objects
  history : ∀ caller capability objectId revision,
    service.history caller capability objectId = .ok revision →
      ⟨caller.serviceId, capability, objectId⟩ ∈ ledger.objects
  revise : ∀ caller capability objectId fieldId value revision,
    (reviseField caller capability objectId fieldId value service).1 = .ok revision →
      ⟨caller.serviceId, capability, objectId⟩ ∈ ledger.objects
  query : ∀ caller workspace kind entries,
    (queryObjects caller workspace kind service).1 = .ok entries →
      ⟨caller.serviceId, workspace⟩ ∈ ledger.workspaces
  create : ∀ caller workspace kind result,
    (createObject caller workspace kind service).1 = .ok result →
      ⟨caller.serviceId, workspace⟩ ∈ ledger.workspaces
  createDefined : ∀ caller workspace input result,
    (createPackageDefinedObject caller workspace input service).1 = .ok result →
      ⟨caller.serviceId, workspace⟩ ∈ ledger.workspaces
  external : ∀ objectId,
    service.objectBelongsToWorkspace objectId externalWorkspaceObjectId = true →
      ∀ operations, (service.performAll operations).OutOfReach objectId ∧
        (service.performAll operations).contentOf objectId = service.contentOf objectId

section Authority

variable {service : ObjectService} {ledger : Ledger} {records : List TypedObjectRecord}

/-- Every entry of the capability table was returned to its holder. -/
def Recorded (service : ObjectService) (ledger : Ledger) : Prop :=
  ∀ slot entry, service.capabilities.entryAt slot = some entry →
    (entry.resource = ⟨shellWorkspaceObjectId.raw⟩ ∧
      ⟨entry.holder, .fromParts slot entry.generation⟩ ∈ ledger.workspaces) ∨
    ∃ objectId ∈ service.objects.ids, entry.resource = ⟨objectId.raw⟩ ∧
      ⟨entry.holder, .fromParts slot entry.generation, objectId⟩ ∈ ledger.objects

theorem Recorded.perform (h : service.Recorded ledger) (hsealed : Sealed records service)
    {operation : Operation} (hfits : operation.Fits service) :
    (operation.perform service).Recorded (ledger.append (operation.issued service)) := by
  obtain ⟨records', hchange, hsealed'⟩ := hsealed.perform operation
  obtain ⟨objects, workspaces, hcall⟩ := hsealed.callGrants operation
  intro slot entry hentry
  rcases hcall.grants.entry_cases hentry with hold | ⟨grant, hgrant, rfl, rfl⟩
  · rcases h slot entry hold with ⟨hresource, hmem⟩ | ⟨objectId, hstored, hresource, hmem⟩
    · exact Or.inl ⟨hresource, List.mem_append_left _ hmem⟩
    · refine Or.inr ⟨objectId, ?_, hresource, List.mem_append_left _ hmem⟩
      rw [hsealed'.holds.objects_ids.mem_iff]
      exact hchange.ids_subset hsealed.holds (hsealed.holds.objects_ids.mem_iff.mp hstored)
  · have hcapability : PackedCapability.fromParts grant.capability.slot
        (CapabilityTable.activeEntry operation.caller.serviceId ⟨grant.objectId⟩ objectRights
          grant.capability.generation).generation = grant.capability :=
      PackedCapability.fromParts_slot_generation _
    rw [hcapability]
    rcases List.mem_append.mp hgrant with hobject | hworkspace
    · exact Or.inr ⟨⟨grant.objectId⟩, (hcall.objects_stored grant hobject).1, rfl,
        List.mem_append_right _ (hcall.objects_issued hfits grant hobject)⟩
    · obtain ⟨hid, hissued⟩ := hcall.workspaces_issued grant hworkspace
      exact Or.inl ⟨congrArg ResourceId.mk hid, List.mem_append_right _ hissued⟩

theorem BootRun.recorded (h : BootRun service ledger) : service.Recorded ledger := by
  induction h with
  | seeded hseeded =>
    exact fun _ _ hentry ↦ Or.inl (entry_of_bootRuntime (bootRuntime_of_newSeeded hseeded) hentry)
  | restored generation _ hrestored _ =>
    exact fun _ _ hentry ↦
      Or.inl (entry_of_bootRuntime (bootRuntime_of_fromSnapshot hrestored) hentry)
  | performed operation hrun hfits ih =>
    obtain ⟨records, hsealed⟩ := hrun.reachable.exists_sealed
    exact ih.perform hsealed hfits

variable {caller : ActiveUserProcess} {workspace : PackedCapability}

/-- A valid capability of a stored object was returned to its holder for that object. -/
theorem Recorded.of_validateObject (h : service.Recorded ledger) (hsealed : Sealed records service)
    {capability : PackedCapability} {objectId : ObjectId} {rights : RightsMask}
    {current : RevisionRecord}
    (hvalid : service.validateObject caller capability objectId rights = .ok ())
    (hcurrent : service.currentRecord objectId = .ok current) :
    ⟨caller.serviceId, capability, objectId⟩ ∈ ledger.objects := by
  obtain ⟨entry, hentry, hcapability, hholder, hresource⟩ :=
    entry_of_validateCapabilityResource hvalid
  rcases h _ _ hentry with ⟨hshell, -⟩ | ⟨objectId', -, hid, hmem⟩
  · -- the workspace root has no revisions
    obtain ⟨hstored, hsame⟩ := hsealed.holds.mem_of_currentRecord hcurrent
    rw [hresource] at hshell
    have hids : objectId ∈ service.objects.ids := by
      rw [hsealed.holds.objects_ids.mem_iff, ← hsame]
      exact List.mem_map_of_mem hstored
    rw [eq_of_resource_eq hshell] at hids
    exact absurd List.mem_cons_self (hsealed.not_root hids)
  · rw [hresource] at hid
    rwa [hholder, hcapability, ← eq_of_resource_eq hid] at hmem

/-- A valid capability of the shell workspace was returned to its holder. -/
theorem Recorded.of_validateWorkspace (h : service.Recorded ledger)
    (hsealed : Sealed records service) {rights : RightsMask}
    (hvalid : service.validateWorkspace caller workspace rights = .ok ()) :
    ⟨caller.serviceId, workspace⟩ ∈ ledger.workspaces := by
  obtain ⟨entry, hentry, hcapability, hholder, hresource⟩ :=
    entry_of_validateCapabilityResource hvalid
  rw [hsealed.workspace] at hresource
  rcases h _ _ hentry with ⟨-, hmem⟩ | ⟨objectId, hstored, hid, -⟩
  · rwa [hholder, hcapability] at hmem
  · rw [hresource] at hid
    rw [← eq_of_resource_eq hid] at hstored
    exact absurd List.mem_cons_self (hsealed.not_root hstored)

/-- What follows a check runs only if the check passed. -/
theorem ensures_checked {α : Type} {check : Except ObjectServiceError Unit}
    {next : Unit → Program α} :
    Ensures (ofExcept check >>= next) (fun _ _ ↦ check = .ok ()) (fun _ _ ↦ True) service := by
  rw [ensures_bind]
  exact ensures_ofExcept.mpr
    ⟨fun _ hok ↦ ensures_of_forall (fun _ _ ↦ hok) fun _ _ ↦ trivial, fun _ _ ↦ trivial⟩

/-- In every state of a run whose queries fit, callers have the authority for what they do. -/
theorem BootRun.authorised (h : BootRun service ledger) : service.Authorised ledger := by
  obtain ⟨records, hsealed⟩ := h.reachable.exists_sealed
  have hrecorded := h.recorded
  refine ⟨?_, ?_, ?_, ?_, ?_, ?_, ?_⟩
  · intro caller capability objectId inspection hinspect
    obtain ⟨_, hvalid, hrest⟩ := bind_eq_ok_iff.mp hinspect
    obtain ⟨current, hcurrent, -⟩ := bind_eq_ok_iff.mp hrest
    exact hrecorded.of_validateObject hsealed hvalid hcurrent
  · intro caller capability objectId revision hhistory
    obtain ⟨_, hvalid, hrest⟩ := bind_eq_ok_iff.mp hhistory
    obtain ⟨current, hcurrent, -⟩ := bind_eq_ok_iff.mp hrest
    exact hrecorded.of_validateObject hsealed hvalid hcurrent
  · intro caller capability objectId fieldId value revision hrevise
    obtain ⟨hvalid, current, revised, rest, hcurrent, -⟩ :=
      (ensures_reviseField hsealed.holds caller capability objectId fieldId value).of_ok hrevise
    exact hrecorded.of_validateObject hsealed hvalid hcurrent
  · intro caller workspace kind entries hquery
    have hensures : Ensures (queryObjects caller workspace kind) _ _ service :=
      ensures_queryObjects workspace
    exact hrecorded.of_validateWorkspace hsealed (hensures.of_ok hquery).1
  · intro caller workspace kind result hcreate
    have hchecked : Ensures (createObject caller workspace kind)
        (fun _ _ ↦ service.validateWorkspace caller workspace .write = .ok ()) (fun _ _ ↦ True)
          service := ensures_ite.mpr ⟨fun _ ↦ trivial, fun _ ↦ ensures_checked⟩
    exact hrecorded.of_validateWorkspace hsealed (hchecked.of_ok hcreate)
  · intro caller workspace input result hcreate
    have hchecked : Ensures (createPackageDefinedObject caller workspace input) _ _ service :=
      ensures_checked
    exact hrecorded.of_validateWorkspace hsealed (hchecked.of_ok hcreate)
  · intro objectId hbelongs operations
    obtain rfl := hsealed.eq_external hbelongs
    obtain ⟨records', hsealed'⟩ := (h.reachable.performAll operations).exists_sealed
    exact ⟨hsealed'.outOfReach, hsealed'.contentOf_external.trans hsealed.contentOf_external.symm⟩

end Authority

/-- The shell creates a note. -/
def createNote : Operation := .createObject shellProcess (.fromParts 0 1) .note

/-- The shell lists its notes. -/
def listNotes : Operation := .queryObjects shellProcess (.fromParts 0 1) .note

theorem listNotes_authorised :
    (listNotes.issued (createNote.perform seededService)).objects.head? =
        some ⟨⟨1⟩, .fromParts 1 1, ⟨firstShellNoteId⟩⟩ ∧
      (listNotes.perform (createNote.perform seededService)).Authorised
        (((Ledger.boot seededService).append (createNote.issued seededService)).append
          (listNotes.issued (createNote.perform seededService))) := by
  have hfits : (createNote.perform seededService).QueryFits shellProcess .note := by
    unfold QueryFits
    decide +kernel
  exact ⟨by decide +kernel, BootRun.authorised (.performed listNotes
    (.performed createNote (.seeded newSeeded_eq) trivial) fun _ ↦ hfits)⟩

/-- A process of another service. -/
def otherProcess (service : UInt64) : ActiveUserProcess := ⟨⟨service⟩, 0, 0⟩

/-- The shell creates eight notes, which three other services list. The last one runs out of room. -/
def crowdedListing : List Operation :=
  List.replicate 8 createNote ++
    [.grantWorkspaceCapability (otherProcess 3),
      .queryObjects (otherProcess 3) (.fromParts 9 1) .note,
      .grantWorkspaceCapability (otherProcess 4),
      .queryObjects (otherProcess 4) (.fromParts 18 1) .note,
      .grantWorkspaceCapability (otherProcess 2),
      .queryObjects (otherProcess 2) (.fromParts 27 1) .note]

/-- The ledger after a sequence of calls. -/
def Ledger.after (service : ObjectService) (ledger : Ledger) : List Operation → Ledger
  | [] => ledger
  | operation :: rest =>
    after (operation.perform service) (ledger.append (operation.issued service)) rest

/-- The last service reads the first note through a capability that no call returned. -/
theorem crowdedListing_not_authorised :
    Reachable (seededService.performAll crowdedListing) ∧
      ((seededService.performAll crowdedListing).inspectObject (otherProcess 2) (.fromParts 28 1)
        ⟨firstShellNoteId⟩).toOption.isSome = true ∧
      ⟨⟨2⟩, .fromParts 28 1, ⟨firstShellNoteId⟩⟩ ∉
        (Ledger.after seededService (Ledger.boot seededService) crowdedListing).objects :=
  ⟨(Reachable.seeded newSeeded_eq).performAll crowdedListing, by decide +kernel, by decide +kernel⟩

end ObjectService

end Pythos.Core
