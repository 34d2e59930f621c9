import Pythos.Core.PackageService

/-!
# Launching a package

A launch resolves an export, finds a supplied grant for each requirement recorded for it, has a validator
accept the grant, and records a runtime context for the caller. Requirements are recorded in two places: in
the registry, from manifests and snapshots, and in the service, while it runs. The registry keeps the import
slots of one export apart, and a requirement that the service records is compared with both places. A
registry that takes the place of another is not compared with the requirements of the service, so that two
grants can go to one import slot. As long as no such registry declares a slot that the service has recorded
for the export, every launch grants the least authority (`leastAuthority_of_eachStep`).
-/

namespace Pythos.Core

open Foundation Shared Stateful

structure PackageLaunchGrant where
  requirementId : UInt16
  capability : PackedCapability
  deriving DecidableEq

structure PackageLaunchRequest where
  caller : ActiveUserProcess
  namespaceRoot : UInt64
  locator : Bytes
  suppliedGrants : List PackageLaunchGrant
  deriving DecidableEq

structure PackageLaunchResolvedGrant where
  supplied : PackageLaunchGrant
  graphImportSlot : UInt16
  deriving DecidableEq

structure PackageLaunchResult where
  exported : PackageRegistryExportRecord
  grants : List PackageLaunchResolvedGrant
  deriving DecidableEq

/-- `PackageLaunchGrantValidator`: the decision about a grant for a requirement of the caller. -/
abbrev PackageLaunchGrantValidator :=
  ActiveUserProcess → PackageLaunchRequirement → PackageLaunchGrant → Except PackageStatus Unit

def PackageRegistryRequirementRecord.toLaunchRequirement (record : PackageRegistryRequirementRecord) :
    PackageLaunchRequirement where
  requirementId := record.requirementId
  graphImportSlot := record.graphImportSlot
  resource := ⟨record.resourceId⟩
  rights := ⟨record.rightsMask⟩

namespace PackageService

def packageExportKindTool : UInt16 := 1

def ensureLaunchableExport (exported : PackageRegistryExportRecord) : Except PackageStatus Unit :=
  if exported.exportKind ≠ packageExportKindTool then .error .badRequest else .ok ()

def findSuppliedLaunchGrant (requirement : PackageLaunchRequirement)
    (suppliedGrants : List PackageLaunchGrant) : Option PackageLaunchGrant :=
  suppliedGrants.find? fun supplied ↦ supplied.requirementId = requirement.requirementId

def validateAndAppendLaunchRequirement (request : PackageLaunchRequest)
    (validator : PackageLaunchGrantValidator) (grants : List PackageLaunchResolvedGrant)
    (requirement : PackageLaunchRequirement) :
    Except PackageStatus (List PackageLaunchResolvedGrant) :=
  if grants.length ≥ maxRequirementRecords then .error .quotaDenied
  else
    match findSuppliedLaunchGrant requirement request.suppliedGrants with
    | none => .error .requiredGrantMissing
    | some supplied => do
      validator request.caller requirement supplied
      .ok (grants ++ [⟨supplied, requirement.graphImportSlot⟩])

/-- The requirements of an export: those of the registry with its locator, then those that the service
recorded for it. -/
def recordedRequirements (service : PackageService) (exported : PackageRegistryExportRecord) :
    List PackageLaunchRequirement :=
  ((service.registry.requirementRecords.filter (·.matchesExport exported)).map
      PackageRegistryRequirementRecord.toLaunchRequirement) ++
    ((service.launchRequirements.filter (·.exported = exported)).map
      PackageLaunchRequirementRecord.requirement)

def validateLaunchAuthority (service : PackageService) (request : PackageLaunchRequest)
    (validator : PackageLaunchGrantValidator) (exported : PackageRegistryExportRecord) :
    Except PackageStatus PackageLaunchResult := do
  let grants ← (service.recordedRequirements exported).foldlM
    (validateAndAppendLaunchRequirement request validator) []
  .ok { exported, grants }

def PackageRuntimeContextRecord.of (process : ActiveUserProcess)
    (exported : PackageRegistryExportRecord) : PackageRuntimeContextRecord where
  serviceId := process.serviceId
  principalId := process.principalId
  programDigest := process.programDigest
  exported

/-- A context that is already there is replaced by itself. -/
def recordRuntimeContext (process : ActiveUserProcess) (exported : PackageRegistryExportRecord) :
    PackageProgram Unit :=
  Stateful.update fun service ↦
    let record := PackageRuntimeContextRecord.of process exported
    if record ∈ service.runtimeContexts then .ok ((), service)
    else if service.runtimeContexts.length ≥ maxRequirementRecords then .error .quotaDenied
    else .ok ((), { service with runtimeContexts := service.runtimeContexts ++ [record] })

def launchWithValidator (request : PackageLaunchRequest) (validator : PackageLaunchGrantValidator) :
    PackageProgram PackageLaunchResult := do
  let service ← Stateful.read
  if request.suppliedGrants.length > maxRequirementRecords then fail .badRequest
  else
    let exported ← ofExcept (service.resolveExport request.namespaceRoot request.locator)
    ofExcept (ensureLaunchableExport exported)
    let launch ← ofExcept (service.validateLaunchAuthority request validator exported)
    recordRuntimeContext request.caller launch.exported
    pure launch

/-- The requirement has the identity or the import slot of another. -/
def clashes (requirement : PackageLaunchRequirement) (other : PackageLaunchRequirement) : Bool :=
  other.requirementId = requirement.requirementId ∨
    other.graphImportSlot = requirement.graphImportSlot

def recordLaunchRequirement (namespaceRoot : UInt64) (locator : Bytes)
    (requirement : PackageLaunchRequirement) : PackageProgram Unit := do
  let service ← Stateful.read
  let exported ← ofExcept (service.resolveExport namespaceRoot locator)
  if service.launchRequirements.length ≥ maxRequirementRecords then fail .quotaDenied
  else if (service.launchRequirements.filter (·.exported = exported)).any
      (clashes requirement ·.requirement) then fail .duplicateStableName
  else if (service.registry.requirementRecords.filter (·.matchesExport exported)).any
      (clashes requirement ·.toLaunchRequirement) then fail .duplicateStableName
  else
    Stateful.modify fun service ↦
      { service with launchRequirements := service.launchRequirements ++ [⟨exported, requirement⟩] }

/-! ### What a launch grants -/

/-- A grant answers a requirement: it was supplied for it, the validator accepts it for the caller on the
resource and the rights of the requirement, and it goes to the import slot of the requirement. -/
def Answers (request : PackageLaunchRequest) (validator : PackageLaunchGrantValidator)
    (requirement : PackageLaunchRequirement) (grant : PackageLaunchResolvedGrant) : Prop :=
  grant.supplied ∈ request.suppliedGrants ∧
    grant.supplied.requirementId = requirement.requirementId ∧
    validator request.caller requirement grant.supplied = .ok () ∧
    grant.graphImportSlot = requirement.graphImportSlot

variable {request : PackageLaunchRequest} {validator : PackageLaunchGrantValidator}

variable {grants : List PackageLaunchResolvedGrant} {requirements : List PackageLaunchRequirement}

theorem validateAndAppendLaunchRequirement_eq_ok {grants' : List PackageLaunchResolvedGrant}
    {requirement : PackageLaunchRequirement}
    (h : validateAndAppendLaunchRequirement request validator grants requirement = .ok grants') :
    ∃ grant, grants' = grants ++ [grant] ∧ Answers request validator requirement grant := by
  unfold validateAndAppendLaunchRequirement at h
  split_ifs at h
  cases hfind : findSuppliedLaunchGrant requirement request.suppliedGrants with
  | none => simp [hfind] at h
  | some supplied =>
    simp only [hfind] at h
    cases hvalid : validator request.caller requirement supplied with
    | error error => simp [hvalid, bind, Except.bind] at h
    | ok accepted =>
      simp only [hvalid, bind, Except.bind, Except.ok.injEq] at h
      have hid := List.find?_some hfind
      refine ⟨⟨supplied, requirement.graphImportSlot⟩, h.symm, List.mem_of_find?_eq_some hfind, ?_,
        hvalid, rfl⟩
      simpa using hid

/-- The loop over the requirements appends one answer for each of them, in their order. -/
theorem foldlM_validateAndAppend_eq_ok {grants' : List PackageLaunchResolvedGrant}
    (h : requirements.foldlM (validateAndAppendLaunchRequirement request validator) grants =
      .ok grants') :
    ∃ answers, grants' = grants ++ answers ∧
      List.Forall₂ (Answers request validator) requirements answers := by
  induction requirements generalizing grants with
  | nil =>
    refine ⟨[], ?_, .nil⟩
    simpa [pure, Except.pure, eq_comm] using h
  | cons requirement requirements ih =>
    rw [List.foldlM_cons] at h
    cases hstep : validateAndAppendLaunchRequirement request validator grants requirement with
    | error error => simp [hstep, bind, Except.bind] at h
    | ok middle =>
      simp only [hstep, bind, Except.bind] at h
      obtain ⟨grant, rfl, hgrant⟩ := validateAndAppendLaunchRequirement_eq_ok hstep
      obtain ⟨answers, rfl, hanswers⟩ := ih h
      exact ⟨grant :: answers, by simp, .cons hgrant hanswers⟩

theorem validateLaunchAuthority_eq_ok {service : PackageService}
    {exported : PackageRegistryExportRecord} {result : PackageLaunchResult}
    (h : service.validateLaunchAuthority request validator exported = .ok result) :
    result.exported = exported ∧
      List.Forall₂ (Answers request validator) (service.recordedRequirements exported)
        result.grants := by
  unfold validateLaunchAuthority at h
  cases hloop : (service.recordedRequirements exported).foldlM
      (validateAndAppendLaunchRequirement request validator) [] with
  | error error => simp [hloop, bind, Except.bind] at h
  | ok grants =>
    simp only [hloop, bind, Except.bind, Except.ok.injEq] at h
    subst h
    obtain ⟨answers, hanswers, hall⟩ := foldlM_validateAndAppend_eq_ok hloop
    rw [List.nil_append] at hanswers
    exact ⟨rfl, hanswers ▸ hall⟩

/-- The answers have the import slots of the requirements. -/
theorem map_graphImportSlot_of_answers
    (h : List.Forall₂ (Answers request validator) requirements grants) :
    grants.map (·.graphImportSlot) = requirements.map (·.graphImportSlot) := by
  induction h with
  | nil => rfl
  | cons hgrant _ ih => rw [List.map_cons, List.map_cons, hgrant.2.2.2, ih]

theorem exists_answer_of_mem {requirement : PackageLaunchRequirement}
    (h : List.Forall₂ (Answers request validator) requirements grants)
    (hmem : requirement ∈ requirements) : ∃ grant, Answers request validator requirement grant := by
  induction h with
  | nil => cases hmem
  | @cons _ grant _ _ hgrant _ ih =>
    rcases List.mem_cons.mp hmem with rfl | hmem
    · exact ⟨grant, hgrant⟩
    · exact ih hmem

/-- A launch grants the least authority: one grant for each recorded requirement of the export, and no two
grants for one import slot. -/
def LeastAuthority (service : PackageService) (request : PackageLaunchRequest)
    (validator : PackageLaunchGrantValidator) (result : PackageLaunchResult) : Prop :=
  service.resolveExport request.namespaceRoot request.locator = .ok result.exported ∧
    List.Forall₂ (Answers request validator) (service.recordedRequirements result.exported)
      result.grants ∧
    (result.grants.map (·.graphImportSlot)).Nodup

/-- The steps of a launch that returns, and of one that fails. -/
theorem ensures_launchWithValidator (service : PackageService) :
    Ensures (launchWithValidator request validator)
      (fun result service' ↦
        service.resolveExport request.namespaceRoot request.locator = .ok result.exported ∧
          List.Forall₂ (Answers request validator) (service.recordedRequirements result.exported)
            result.grants ∧
          ∃ runtimeContexts, service' = { service with runtimeContexts })
      (fun _ service' ↦ service' = service) service := by
  unfold launchWithValidator
  rw [ensures_bind, ensures_read]
  split_ifs
  · exact ensures_fail.mpr rfl
  rw [ensures_bind, ensures_ofExcept]
  refine ⟨fun exported hexport ↦ ?_, fun _ _ ↦ rfl⟩
  rw [ensures_bind, ensures_ofExcept]
  refine ⟨fun launchable _ ↦ ?_, fun _ _ ↦ rfl⟩
  rw [ensures_bind, ensures_ofExcept]
  refine ⟨fun launch hlaunch ↦ ?_, fun _ _ ↦ rfl⟩
  obtain ⟨rfl, hanswers⟩ := validateLaunchAuthority_eq_ok hlaunch
  unfold recordRuntimeContext
  rw [ensures_bind, ensures_update]
  refine ⟨fun _ service' hrecord ↦ ⟨hexport, hanswers, ?_⟩, fun _ _ ↦ rfl⟩
  simp only at hrecord
  split_ifs at hrecord
  · cases hrecord
    exact ⟨_, rfl⟩
  · cases hrecord
    exact ⟨_, rfl⟩

/-! ### Histories -/

/-- An operation of the service with its arguments. -/
inductive Operation
  | install (install : PackageInstall)
  | publishInstallCandidate (snapshot : PackageRegistry) (generation : PackageRegistryGeneration)
  | disable (packageObjectId transactionId : UInt64) (generation : PackageRegistryGeneration)
  | uninstall (packageObjectId transactionId : UInt64) (generation : PackageRegistryGeneration)
  | reconcileSchemaReferences (objects : ObjectService)
  | recover (snapshot : PackageRegistry) (objects : Option ObjectService)
  | restoreFromStorage (snapshot : PackageRegistry)
  | recordLaunchRequirement (namespaceRoot : UInt64) (locator : Bytes) (requirement : PackageLaunchRequirement)
  | launch (request : PackageLaunchRequest) (validator : PackageLaunchGrantValidator)

/-- The service behind an operation, which may fail. -/
def perform (service : PackageService) : Operation → PackageService
  | .install install => (PackageService.install install service).2
  | .publishInstallCandidate snapshot generation =>
    (PackageService.publishInstallCandidate snapshot generation service).2
  | .disable packageObjectId transactionId generation =>
    (PackageService.disable packageObjectId transactionId generation service).2
  | .uninstall packageObjectId transactionId generation =>
    (PackageService.uninstall packageObjectId transactionId generation service).2
  | .reconcileSchemaReferences objects => (reconcileSchemaReferencesFromObjectService objects service).2
  | .recover snapshot objects => (PackageService.recover snapshot objects service).2
  | .restoreFromStorage snapshot => (PackageService.restoreFromStorage snapshot service).2
  | .recordLaunchRequirement namespaceRoot locator requirement =>
    (PackageService.recordLaunchRequirement namespaceRoot locator requirement service).2
  | .launch request validator => (launchWithValidator request validator service).2

/-- The service recorded no requirement of the same export for the import slot. -/
def Unclaimed (service : PackageService) (requirement : PackageRegistryRequirementRecord) : Prop :=
  ∀ record ∈ service.launchRequirements, requirement.matchesExport record.exported = true →
    requirement.graphImportSlot ≠ record.requirement.graphImportSlot

/-- The requirements that a manifest declares. -/
def declaredRequirements (artifact : PackageArtifactV0) : List PackageRegistryRequirementRecord :=
  (artifact.manifest.filter (·.recordType = manifestRecordCapabilityRequirement)).filterMap fun record ↦
    (manifestRequirement record).toOption

/-- The requirements that an operation brings into the registry beside those that the service has recorded,
which a restore forgets. -/
def Operation.introduced : Operation → List PackageRegistryRequirementRecord
  | .install staged => declaredRequirements staged.artifact
  | .publishInstallCandidate snapshot _ | .recover snapshot _ => snapshot.requirementRecords
  | _ => []

/-- No requirement that an operation brings into the registry takes an import slot that the service has
recorded for its export. -/
def Admits (service : PackageService) (operation : Operation) : Prop :=
  ∀ requirement ∈ operation.introduced, service.Unclaimed requirement

instance (service : PackageService) (requirement : PackageRegistryRequirementRecord) :
    Decidable (service.Unclaimed requirement) :=
  inferInstanceAs (Decidable (∀ record ∈ service.launchRequirements, _ → _))

instance (service : PackageService) (operation : Operation) : Decidable (service.Admits operation) :=
  inferInstanceAs (Decidable (∀ requirement ∈ operation.introduced, service.Unclaimed requirement))

/-- No two requirements recorded for one export take the same import slot. -/
structure SlotsApart (service : PackageService) : Prop where
  registry : service.registry.SlotsApart
  launches : service.launchRequirements.Pairwise fun first second ↦ first.exported = second.exported →
    first.requirement.graphImportSlot ≠ second.requirement.graphImportSlot
  between : ∀ requirement ∈ service.registry.requirementRecords, service.Unclaimed requirement

namespace SlotsApart

variable {service : PackageService}

theorem newEmpty : PackageService.newEmpty.SlotsApart where
  registry := List.Pairwise.nil
  launches := List.Pairwise.nil
  between _ h := (List.not_mem_nil h).elim

/-- The requirements of an export name different import slots. -/
theorem nodup (h : service.SlotsApart) (exported : PackageRegistryExportRecord) :
    ((service.recordedRequirements exported).map (·.graphImportSlot)).Nodup := by
  rw [List.nodup_iff_pairwise_ne, List.pairwise_map, recordedRequirements, List.pairwise_append,
    List.pairwise_map, List.pairwise_map]
  refine ⟨?_, ?_, ?_⟩
  · refine (List.Pairwise.filter _ h.registry).imp_of_mem fun {first second} hfirst hsecond hslots ↦ ?_
    have hfirst := (List.mem_filter.mp hfirst).2
    have hsecond := (List.mem_filter.mp hsecond).2
    simp only [PackageRegistryRequirementRecord.matchesExport, decide_eq_true_eq] at hfirst hsecond
    refine hslots ?_
    simp [PackageRegistryRequirementRecord.matchesExportForRequirementIdentity, hfirst, hsecond]
  · refine (List.Pairwise.filter _ h.launches).imp_of_mem fun {first second} hfirst hsecond hslots ↦ ?_
    have hfirst := of_decide_eq_true (List.mem_filter.mp hfirst).2
    have hsecond := of_decide_eq_true (List.mem_filter.mp hsecond).2
    exact hslots (hfirst.trans hsecond.symm)
  · intro first hfirst second hsecond
    obtain ⟨requirement, hrequirement, rfl⟩ := List.mem_map.mp hfirst
    obtain ⟨record, hrecord, rfl⟩ := List.mem_map.mp hsecond
    obtain ⟨hmem, hmatches⟩ := List.mem_filter.mp hrequirement
    obtain ⟨hmem', hexported⟩ := List.mem_filter.mp hrecord
    obtain rfl := of_decide_eq_true hexported
    exact h.between requirement hmem record hmem' hmatches

/-- A change of the registry that declares unclaimed import slots. -/
theorem changeRegistry (h : service.SlotsApart) {declared : Set PackageRegistryRequirementRecord}
    {change : PackageRegistry → Except PackageStatus PackageRegistry}
    (hchange : PackageRegistry.Declares declared change)
    (hdeclared : ∀ requirement ∈ declared, service.Unclaimed requirement) :
    Ensures (PackageService.changeRegistry change) (fun _ ↦ SlotsApart) (fun _ ↦ SlotsApart) service := by
  refine ensures_update.mpr ⟨fun _ service' hok ↦ ?_, fun _ _ ↦ h⟩
  cases hregistry : change service.registry with
  | error error =>
    rw [hregistry] at hok
    cases hok
  | ok registry =>
    rw [hregistry] at hok
    cases hok
    obtain ⟨hapart, hadded⟩ := hchange _ _ hregistry
    exact ⟨hapart h.registry, h.launches, fun requirement hmem ↦
      (hadded requirement hmem).elim (h.between requirement) (hdeclared requirement)⟩

theorem publish (h : service.SlotsApart) {declared : Set PackageRegistryRequirementRecord}
    {change : PackageRegistry → Except PackageStatus PackageRegistry} (generation : PackageRegistryGeneration)
    (hchange : PackageRegistry.Declares declared change)
    (hdeclared : ∀ requirement ∈ declared, service.Unclaimed requirement) :
    Ensures (PackageService.publish generation change) (fun _ ↦ SlotsApart) (fun _ ↦ SlotsApart) service := by
  refine h.changeRegistry (hchange.andThen (.of_eq fun registry registry' hok ↦ ?_)) hdeclared
  cases hok
  rfl

end SlotsApart

theorem addManifestRequirement_eq_ok {registry registry' : PackageRegistry}
    {requirement : PackageRegistryRequirementRecord}
    (h : addManifestRequirement registry requirement = .ok registry') :
    registry.addRequirementRecord requirement = .ok registry' := by
  unfold addManifestRequirement at h
  split at h
  · cases h
  · exact h

open PackageRegistry in
/-- An install declares the requirements of its manifest. -/
theorem declares_stage (install : PackageInstall) :
    Declares {requirement | requirement ∈ declaredRequirements install.artifact} install.stage := by
  refine (declares_beginCandidateGeneration _).andThen ((declares_addPackageRecord _).andThen
    ((declares_addSchemaRecord _).andThen ((Declares.foldlM fun record _ ↦
      declares_addContentRecord record).andThen ?_)))
  refine Declares.andThen (.foldlM fun record _ ↦ ?_) (.foldlM fun record hrecord ↦ ?_)
  · intro registry registry' hok
    simp only at hok
    split_ifs at hok
    · obtain ⟨exported, -, hok⟩ := bind_eq_ok_iff.mp hok
      exact declares_addExportRecord exported registry registry' hok
    · cases hok
      exact ⟨id, fun _ ↦ .inl⟩
  · intro registry registry' hok
    simp only at hok
    split_ifs at hok with htype
    · obtain ⟨requirement, hrequirement, hok⟩ := bind_eq_ok_iff.mp hok
      refine declares_addRequirementRecord ?_ registry registry' (addManifestRequirement_eq_ok hok)
      refine List.mem_filterMap.mpr ⟨record, List.mem_filter.mpr ⟨hrecord, by simpa using htype⟩, ?_⟩
      rw [hrequirement]
      rfl
    · cases hok
      exact ⟨id, fun _ ↦ .inl⟩

/-! ### Steps -/

theorem preserves_reconcileSchemaReferences (references : List PackageSchemaReference) :
    Preserves SlotsApart (reconcileSchemaReferences references) := by
  have hclear : PackageRegistry.Declares ∅ fun registry ↦
      .ok registry.clearSchemaDescriptorRetentionCounts := by
    refine .of_eq fun registry registry' hok ↦ ?_
    cases hok
    exact PackageRegistry.requirementRecords_clearSchemaDescriptorRetentionCounts registry
  exact fun service h ↦ h.changeRegistry (hclear.andThen (.foldlM fun reference _ ↦
    PackageRegistry.declares_retainSchemaReference _ _)) fun _ hmem ↦ hmem.elim

theorem preserves_reconcileSchemaReferencesFromObjectService (objects : ObjectService) :
    Preserves SlotsApart (reconcileSchemaReferencesFromObjectService objects) := by
  unfold reconcileSchemaReferencesFromObjectService
  cases objects.packageDefinedSchemaReferences with
  | error error => exact Preserves.fail _
  | ok references => exact preserves_reconcileSchemaReferences _

theorem preserves_recordLaunchRequirement (namespaceRoot : UInt64) (locator : Bytes)
    (requirement : PackageLaunchRequirement) :
    Preserves SlotsApart (recordLaunchRequirement namespaceRoot locator requirement) := by
  intro service h
  refine ensures_bind.mpr (ensures_read.mpr (ensures_bind.mpr (ensures_ofExcept.mpr
    ⟨fun exported _ ↦ ?_, fun _ _ ↦ h⟩)))
  refine ensures_ite.mpr ⟨fun _ ↦ h, fun _ ↦ ensures_ite.mpr ⟨fun _ ↦ h, fun hlaunches ↦
    ensures_ite.mpr ⟨fun _ ↦ h, fun hregistry ↦ ensures_modify.mpr ?_⟩⟩⟩
  simp only [List.any_filter, List.any_eq_true, Bool.and_eq_true, clashes, decide_eq_true_eq, not_exists,
    not_and, not_or] at hlaunches hregistry
  refine ⟨h.registry, List.pairwise_append.mpr ⟨h.launches, List.pairwise_singleton _ _, ?_⟩, ?_⟩
  · intro record hrecord added hadded hexported
    obtain rfl := List.mem_singleton.mp hadded
    exact (hlaunches record hrecord hexported).2
  · intro declared hdeclared record hrecord hmatches
    rcases List.mem_append.mp hrecord with hold | hnew
    · exact h.between declared hdeclared record hold hmatches
    · obtain rfl := List.mem_singleton.mp hnew
      exact (hregistry declared hdeclared hmatches).2

theorem preserves_restoreFromStorage (snapshot : PackageRegistry) :
    Preserves SlotsApart (restoreFromStorage snapshot) := by
  intro service h
  refine ensures_update.mpr ⟨fun _ service' hok ↦ ?_, fun _ _ ↦ h⟩
  cases hregistry : snapshot.decodeRecords with
  | error error =>
    rw [hregistry] at hok
    cases hok
  | ok registry =>
    rw [hregistry] at hok
    cases hok
    exact ⟨(PackageRegistry.decodeRecords_eq_ok hregistry).1, .nil, fun _ _ _ hmem ↦
      (List.not_mem_nil hmem).elim⟩

theorem preserves_launchWithValidator (request : PackageLaunchRequest)
    (validator : PackageLaunchGrantValidator) :
    Preserves SlotsApart (launchWithValidator request validator) := by
  intro service h
  refine (ensures_launchWithValidator service).mono ?_ ?_
  · rintro _ _ ⟨-, -, _, rfl⟩
    exact ⟨h.registry, h.launches, h.between⟩
  · rintro _ _ rfl
    exact h

/-- An operation whose requirements are unclaimed keeps the import slots apart. -/
theorem SlotsApart.perform {service : PackageService} (h : service.SlotsApart) {operation : Operation}
    (hadmits : service.Admits operation) : (service.perform operation).SlotsApart := by
  have hnone : ∀ requirement ∈ (∅ : Set PackageRegistryRequirementRecord), service.Unclaimed requirement :=
    fun _ hmem ↦ hmem.elim
  cases operation with
  | install install => exact (h.publish install.generation (declares_stage install) hadmits).final
  | publishInstallCandidate snapshot generation =>
    exact (h.publish generation (PackageRegistry.declares_decodeRecords snapshot) hadmits).final
  | disable packageObjectId transactionId generation =>
    exact (h.publish generation ((PackageRegistry.declares_beginCandidateGeneration transactionId).andThen
      (PackageRegistry.declares_disable packageObjectId)) hnone).final
  | uninstall packageObjectId transactionId generation =>
    have hpublish := h.publish generation ((PackageRegistry.declares_beginCandidateGeneration
      transactionId).andThen (PackageRegistry.declares_tombstone packageObjectId)) hnone
    exact Ensures.final (ensures_bind.mpr (ensures_read.mpr (ensures_ite.mpr ⟨fun _ ↦ h, fun _ ↦ hpublish⟩)))
  | reconcileSchemaReferences objects =>
    exact (preserves_reconcileSchemaReferencesFromObjectService objects service h).final
  | recover snapshot objects =>
    suffices Ensures (PackageService.recover snapshot objects) (fun _ ↦ SlotsApart) (fun _ ↦ SlotsApart)
      service from this.final
    refine ensures_bind.mpr ((h.changeRegistry (PackageRegistry.declares_decodeRecords snapshot)
      hadmits).next fun _ recovered hrecovered ↦ ?_)
    cases objects with
    | none => exact hrecovered
    | some objects => exact preserves_reconcileSchemaReferencesFromObjectService objects recovered hrecovered
  | restoreFromStorage snapshot => exact (preserves_restoreFromStorage snapshot service h).final
  | recordLaunchRequirement namespaceRoot locator requirement =>
    exact (preserves_recordLaunchRequirement namespaceRoot locator requirement service h).final
  | launch request validator => exact (preserves_launchWithValidator request validator service h).final

/-- In a history whose installs, publications and recoveries declare no import slot that the service has
recorded for the export, every launch that returns grants the least authority, and each requirement of the
export has a supplied grant that the validator accepted. A launch that fails leaves the service as it was. -/
theorem leastAuthority_of_eachStep (operations : List Operation)
    (h : EachStep perform Admits newEmpty operations) (request : PackageLaunchRequest)
    (validator : PackageLaunchGrantValidator) :
    Ensures (launchWithValidator request validator)
      (fun result _ ↦ LeastAuthority (operations.foldl perform newEmpty) request validator result ∧
        ∀ requirement ∈ (operations.foldl perform newEmpty).recordedRequirements result.exported,
          ∃ supplied ∈ request.suppliedGrants, supplied.requirementId = requirement.requirementId ∧
            validator request.caller requirement supplied = .ok ())
      (fun _ service' ↦ service' = operations.foldl perform newEmpty)
      (operations.foldl perform newEmpty) := by
  have hapart : (operations.foldl perform newEmpty).SlotsApart :=
    h.foldl_induction (fun before after ↦ before.SlotsApart → after.SlotsApart) (fun _ ↦ id)
      (fun _ _ _ hfirst hsecond hbefore ↦ hsecond (hfirst hbefore))
      (fun _ _ hadmits hbefore ↦ hbefore.perform hadmits) operations .newEmpty
  refine (ensures_launchWithValidator _).next ?_
  rintro result - ⟨hexport, hanswers, -⟩
  refine ⟨⟨hexport, hanswers, ?_⟩, fun requirement hmem ↦ ?_⟩
  · rw [map_graphImportSlot_of_answers hanswers]
    exact hapart.nodup result.exported
  · obtain ⟨grant, hsupplied, hid, hvalid, -⟩ := exists_answer_of_mem hanswers hmem
    exact ⟨grant.supplied, hsupplied, hid, hvalid⟩

/-! ### A tool with two requirements -/

/-- The text `seed/tool`. -/
def toolLocator : Bytes := [0x73, 0x65, 0x65, 0x64, 0x2F, 0x74, 0x6F, 0x6F, 0x6C]

/-- The text `seed/tool.requirement.x`. -/
def toolRequirementName : Bytes := toolLocator ++ manifestRequirementNameSeparator ++ [0x78]

/-- An install of a package with a manifest of one record and one block of content. -/
def installOf (packageObjectId schemaObjectId : UInt64) (block : UInt16) (record : ManifestRecordV0) :
    PackageInstall where
  transactionId := packageObjectId
  artifact := ⟨[record], 1⟩
  releaseDigest := Digest.zero
  packageObjectId
  packageRevision := 1
  schemaObjectId
  schemaRevision := 1
  descriptorContentIndex := 0
  descriptorDigest := Digest.zero
  contents :=
    [{ packageObjectId
       releaseDigest := Digest.zero
       contentIndex := 0
       role := 1
       format := 1
       digest := Digest.zero
       byteLen := 1
       extents := (Vector.replicate maxContentExtentsPerRecord PackageExtent.empty).set 0 ⟨block, 1⟩
       extentCount := 1
       retentionCount := 0
       flags := 0 }]
  generation := ⟨packageObjectId, Digest.zero⟩

/-- A package exports the tool, the service records a requirement of the tool with identity 1 for import slot
0, and a second package declares one with identity 2 for another slot. -/
def toolHistory (slot : UInt8) : List Operation :=
  [.install (installOf 1 2 0 ⟨manifestRecordPackageExport, toolLocator, [1, 0, 0, 0, 0, 0]⟩),
    .recordLaunchRequirement packageLocatorRootObjectId toolLocator ⟨1, 0, ⟨7⟩, .read⟩,
    .install (installOf 3 4 1 ⟨manifestRecordCapabilityRequirement, toolRequirementName,
      [2, 0, slot, 0, 2, 0, 0, 0, 2, 0, 0, 0, 0, 0, 0, 0]⟩)]

/-- A launch of the tool with a grant for each of the two requirements. -/
def toolRequest : PackageLaunchRequest where
  caller := ⟨⟨1⟩, 1, 1⟩
  namespaceRoot := packageLocatorRootObjectId
  locator := toolLocator
  suppliedGrants := [⟨1, ⟨1⟩⟩, ⟨2, ⟨2⟩⟩]

theorem leastAuthority_toolHistory :
    ∃ result, (launchWithValidator toolRequest (fun _ _ _ ↦ .ok ())
        ((toolHistory 1).foldl perform newEmpty)).1 = .ok result ∧
      result.grants.map (·.graphImportSlot) = [1, 0] ∧
      LeastAuthority ((toolHistory 1).foldl perform newEmpty) toolRequest (fun _ _ _ ↦ .ok ()) result := by
  have hsteps : EachStep perform Admits newEmpty (toolHistory 1) :=
    ⟨by decide +kernel, by decide +kernel, by decide +kernel, trivial⟩
  have hlaunch := leastAuthority_of_eachStep (toolHistory 1) hsteps toolRequest fun _ _ _ ↦ .ok ()
  refine ⟨_, rfl, by decide +kernel, (hlaunch.of_ok rfl).1⟩

/-- The launch maps two grants to import slot 0. -/
theorem launch_shares_import_slot :
    ∃ result, (launchWithValidator toolRequest (fun _ _ _ ↦ .ok ())
        ((toolHistory 0).foldl perform newEmpty)).1 = .ok result ∧
      ¬ LeastAuthority ((toolHistory 0).foldl perform newEmpty) toolRequest (fun _ _ _ ↦ .ok ()) result := by
  refine ⟨_, rfl, fun ⟨_, _, hslots⟩ ↦ ?_⟩
  revert hslots
  decide +kernel

end PackageService

end Pythos.Core
