import Pythos.Core.ObjectServiceConsistency

/-!
# Schema references of package-defined objects

A package-defined object is created with a field that names the schema object and the revision that
define it. Revising a field makes a new record of that field alone, so the reference survives exactly
those revisions that write it again. In a run where every authorised revision of a package-defined object
writes its reference again, each such object keeps the reference that it was created with, and the
service lists one reference for each of them.
-/

namespace Pythos.Core

open Foundation Shared

/-! ### Reading references -/

structure PackageSchemaReference where
  schemaObjectId : ObjectId
  schemaRevision : UInt64
  deriving DecidableEq, Repr

def maxPackageSchemaReferences : ℕ := maxDynamicObjects

def readSchemaRefU64 (value : Vector UInt8 fieldValueCapacity) (offset : ℕ) : UInt64 :=
  UInt64.ofNat (leNat ((value.toList.drop offset).take 8))

/-- The loop of `package_schema_reference_for_object` over the fields. -/
def packageSchemaReferenceLoop :
    List TypedObjectField → Option PackageSchemaReference →
      Except ObjectServiceError (Option PackageSchemaReference)
  | [], found => .ok found
  | field :: rest, found =>
    if field.fieldId = fieldPackageSchemaRefV0 then
      if field.valueLen ≠ 16 ∨ found.isSome then .error .badSnapshot
      else
        packageSchemaReferenceLoop rest
          (some ⟨⟨readSchemaRefU64 field.value 0⟩, readSchemaRefU64 field.value 8⟩)
    else packageSchemaReferenceLoop rest found

def packageSchemaReferenceForObject (object : TypedObjectRecord) :
    Except ObjectServiceError (Option PackageSchemaReference) :=
  if object.objectKind ≠ .packageDefinedObject then .ok none
  else
    match packageSchemaReferenceLoop object.fields none with
    | .error error => .error error
    | .ok none => .error .badSnapshot
    | .ok (some reference) => .ok (some reference)

namespace ObjectService

/-- The loop of `package_defined_schema_references` over the slots of the store. -/
def schemaReferencesLoop :
    List (Option DynamicObjectRecord) → List PackageSchemaReference →
      Except ObjectServiceError (List PackageSchemaReference)
  | [], references => .ok references
  | none :: rest, references => schemaReferencesLoop rest references
  | some record :: rest, references =>
    match packageSchemaReferenceForObject record.object with
    | .error error => .error error
    | .ok none => schemaReferencesLoop rest references
    | .ok (some reference) => schemaReferencesLoop rest (references ++ [reference])

/-- There are as many slots for references as for objects, so that the references fit. -/
def packageDefinedSchemaReferences (service : ObjectService) :
    Except ObjectServiceError (Table PackageSchemaReference maxPackageSchemaReferences) :=
  match schemaReferencesLoop service.objects.objects.toList [] with
  | .error error => .error error
  | .ok references => .ok (Table.ofList (references.map some))

/-! ### Records that refer -/

/-- The reference that a creation asks for. -/
def PackageDefinedCreation.reference (creation : PackageDefinedCreation) : PackageSchemaReference :=
  ⟨creation.schemaObjectId, creation.schemaRevision⟩

/-- A record has one field with a schema reference, which names the schema of a creation. -/
def Refers (creation : PackageDefinedCreation) (object : TypedObjectRecord) : Prop :=
  ∃ field, object.fields.filter (fun field ↦ field.fieldId = fieldPackageSchemaRefV0) = [field] ∧
    field.valueLen = 16 ∧
      field.value.toList = packageSchemaRefValue creation.schemaObjectId creation.schemaRevision

theorem length_packageSchemaRefValue (schemaObjectId : ObjectId) (schemaRevision : UInt64) :
    (packageSchemaRefValue schemaObjectId schemaRevision).length = 16 := by
  rw [packageSchemaRefValue, List.length_append, length_leBytes, length_leBytes]

variable {object : TypedObjectRecord}

/-- A pushed field holds the value, padded with zeros. -/
theorem pushNewField_eq_ok {object' : TypedObjectRecord} {fieldId fieldVersion : UInt16}
    {value : Bytes} (h : pushNewField object fieldId fieldVersion value = .ok object') :
    object'.objectKind = object.objectKind ∧ ∃ field : TypedObjectField,
      object'.fields = object.fields ++ [field] ∧ field.fieldId = fieldId ∧
        field.valueLen = UInt16.ofNat value.length ∧
          field.value.toList = value ++ List.replicate (fieldValueCapacity - value.length) 0 := by
  unfold pushNewField at h
  cases hfield : TypedObjectField.new fieldId fieldVersion value with
  | error error =>
    rw [hfield] at h
    cases h
  | ok field =>
    simp only [hfield] at h
    cases hpush : object.pushField field with
    | error error =>
      rw [hpush] at h
      cases h
    | ok pushed =>
      rw [hpush] at h
      obtain rfl := Except.ok.inj h
      obtain ⟨-, hkind, hfields⟩ := TypedObjectRecord.pushField_eq_ok hpush
      refine ⟨hkind, field, hfields, ?_⟩
      unfold TypedObjectField.new at hfield
      split_ifs at hfield
      obtain rfl := Except.ok.inj hfield
      exact ⟨rfl, rfl, rfl⟩

/-- A reference pushed to a record without fields. -/
theorem refers_of_pushNewField {objectId : ObjectId} {kind : ObjectKind} {version : UInt16}
    {fieldVersion : UInt16} {creation : PackageDefinedCreation}
    (h : pushNewField (.new objectId kind version) fieldPackageSchemaRefV0 fieldVersion
      (packageSchemaRefValue creation.schemaObjectId creation.schemaRevision) = .ok object) :
    object.objectKind = kind ∧ Refers creation object := by
  obtain ⟨hkind, field, hfields, hid, hlength, hvalue⟩ := pushNewField_eq_ok h
  refine ⟨hkind, field, ?_, ?_, ?_⟩
  · rw [hfields]
    simp [TypedObjectRecord.new, hid]
  · rw [hlength, length_packageSchemaRefValue]
    rfl
  · rw [hvalue, length_packageSchemaRefValue]
    exact List.append_nil _

/-- The record of a package-defined object refers to the schema that it is created with. -/
theorem refers_packageDefinedRecord {objectId : ObjectId} {input : PackageDefinedCreateInput}
    (h : packageDefinedRecord objectId input = .ok object) :
    object.objectKind = .packageDefinedObject ∧
      Refers ⟨objectId, input.schemaObjectId, input.schemaRevision⟩ object := by
  unfold packageDefinedRecord at h
  obtain ⟨referring, hreferring, h⟩ := bind_eq_ok_iff.mp h
  have hrefers : referring.objectKind = .packageDefinedObject ∧
      Refers ⟨objectId, input.schemaObjectId, input.schemaRevision⟩ referring :=
    refers_of_pushNewField hreferring
  obtain ⟨hkind, field, hfilter, hrest⟩ := hrefers
  split_ifs at h
  · -- the initial state is a field of its own, with another identifier
    obtain ⟨hkind', state, hfields, hid, -⟩ := pushNewField_eq_ok h
    refine ⟨hkind'.trans hkind, field, ?_, hrest⟩
    rw [hfields, List.filter_append, hfilter, List.filter_singleton, hid]
    rfl
  · obtain rfl := Except.ok.inj h
    exact ⟨hkind, field, hfilter, hrest⟩

/-! ### What the service reads -/

theorem readSchemaRefU64_first {value : Vector UInt8 fieldValueCapacity} {schemaObjectId : ObjectId}
    {schemaRevision : UInt64} (h : value.toList = packageSchemaRefValue schemaObjectId schemaRevision) :
    readSchemaRefU64 value 0 = schemaObjectId.raw := by
  rw [readSchemaRefU64, h, packageSchemaRefValue, List.drop_zero,
    List.take_append_of_le_length (length_leBytes 8 _).ge, List.take_of_length_le (length_leBytes 8 _).le,
    leNat_leBytes_of_lt schemaObjectId.raw.toNat_lt]
  exact UInt64.ofNat_toNat

theorem readSchemaRefU64_second {value : Vector UInt8 fieldValueCapacity} {schemaObjectId : ObjectId}
    {schemaRevision : UInt64} (h : value.toList = packageSchemaRefValue schemaObjectId schemaRevision) :
    readSchemaRefU64 value 8 = schemaRevision := by
  rw [readSchemaRefU64, h, packageSchemaRefValue, List.drop_left' (length_leBytes 8 _),
    List.take_of_length_le (length_leBytes 8 _).le, leNat_leBytes_of_lt schemaRevision.toNat_lt]
  exact UInt64.ofNat_toNat

/-- The loop skips the fields that are no references. -/
theorem packageSchemaReferenceLoop_filter (fields : List TypedObjectField)
    (found : Option PackageSchemaReference) :
    packageSchemaReferenceLoop fields found = packageSchemaReferenceLoop
      (fields.filter fun field ↦ field.fieldId = fieldPackageSchemaRefV0) found := by
  induction fields generalizing found with
  | nil => rfl
  | cons field rest ih =>
    by_cases hid : field.fieldId = fieldPackageSchemaRefV0
    · rw [List.filter_cons_of_pos (by simpa using hid)]
      simp only [packageSchemaReferenceLoop, hid, if_true]
      split_ifs
      · rfl
      · exact ih _
    · rw [List.filter_cons_of_neg (by simpa using hid), packageSchemaReferenceLoop, if_neg hid]
      exact ih found

theorem Refers.reference_eq {creation : PackageDefinedCreation}
    (hkind : object.objectKind = .packageDefinedObject) (h : Refers creation object) :
    packageSchemaReferenceForObject object = .ok (some creation.reference) := by
  obtain ⟨field, hfilter, hlength, hvalue⟩ := h
  have hmem : field ∈ object.fields.filter fun field ↦ field.fieldId = fieldPackageSchemaRefV0 := by
    rw [hfilter]
    exact List.mem_singleton_self field
  have hid : field.fieldId = fieldPackageSchemaRefV0 :=
    of_decide_eq_true (List.mem_filter.mp hmem).2
  rw [packageSchemaReferenceForObject, if_neg (not_not.mpr hkind), packageSchemaReferenceLoop_filter,
    hfilter]
  simp [packageSchemaReferenceLoop, hid, hlength, readSchemaRefU64_first hvalue,
    readSchemaRefU64_second hvalue, PackageDefinedCreation.reference]

/-- The loop over the slots collects one reference for each package-defined object. -/
theorem schemaReferencesLoop_eq_ok {created : List PackageDefinedCreation}
    (slots : List (Option DynamicObjectRecord)) (references : List PackageSchemaReference)
    (h : ∀ record ∈ slots.reduceOption, record.object.objectKind = .packageDefinedObject →
      ∃ creation ∈ created, creation.objectId = record.object.objectId ∧
        Refers creation record.object) :
    ∃ found, schemaReferencesLoop slots references = .ok (references ++ found) ∧
      List.Forall₂ (fun record reference ↦ ∃ creation ∈ created,
        creation.objectId = record.object.objectId ∧ reference = creation.reference)
        (slots.reduceOption.filter fun record ↦
          record.object.objectKind = .packageDefinedObject) found := by
  induction slots generalizing references with
  | nil => exact ⟨[], by rw [List.append_nil]; rfl, .nil⟩
  | cons slot rest ih =>
    cases slot with
    | none => exact ih references h
    | some record =>
      rw [List.reduceOption_cons_of_some] at h ⊢
      have hrest := fun other hother ↦ h other (List.mem_cons_of_mem _ hother)
      by_cases hkind : record.object.objectKind = .packageDefinedObject
      · obtain ⟨creation, hcreation, hid, hrefers⟩ := h record List.mem_cons_self hkind
        obtain ⟨found, hloop, hfound⟩ := ih (references ++ [creation.reference]) hrest
        refine ⟨creation.reference :: found, ?_, ?_⟩
        · rw [schemaReferencesLoop, hrefers.reference_eq hkind]
          simpa using hloop
        · rw [List.filter_cons_of_pos (by simpa using hkind)]
          exact .cons ⟨creation, hcreation, hid, rfl⟩ hfound
      · obtain ⟨found, hloop, hfound⟩ := ih references hrest
        refine ⟨found, ?_, ?_⟩
        · rw [schemaReferencesLoop, packageSchemaReferenceForObject, if_pos hkind]
          exact hloop
        · rwa [List.filter_cons_of_neg (by simpa using hkind)]

/-! ### Runs that write references again -/

/-- An authorised revision of a package-defined object writes the reference of its record again. -/
def KeepsReference (service : ObjectService) : Operation → Prop
  | .reviseField caller objectCapability objectId fieldId value =>
    service.validateObject caller objectCapability objectId .write = .ok () →
    ∀ current, service.currentRecord objectId = .ok current →
      current.object.objectKind = .packageDefinedObject →
        fieldId = fieldPackageSchemaRefV0 ∧ ∃ reference,
          packageSchemaReferenceForObject current.object = .ok (some reference) ∧
            value = packageSchemaRefValue reference.schemaObjectId reference.schemaRevision
  | _ => True

/-- The runs in which every call meets the condition, with the package-defined objects created so far. -/
inductive ReferringRun : ObjectService → List PackageDefinedCreation → Prop
  | seeded {service : ObjectService} (h : newSeeded = .ok service) : ReferringRun service []
  | restored {service restored : ObjectService} {created : List PackageDefinedCreation}
      (generation : UInt64) (h : ReferringRun service created)
      (hrestored : fromSnapshot { service.encodeSnapshot with generation } = .ok restored) :
      ReferringRun restored created
  | performed {service : ObjectService} {created : List PackageDefinedCreation}
      (operation : Operation) (h : ReferringRun service created)
      (hkeeps : KeepsReference service operation) :
      ReferringRun (operation.perform service) (created ++ operation.created service)

/-- The package-defined records refer to the schemas that they were created with, and no object was
created twice. -/
structure Referring (records : List TypedObjectRecord) (created : List PackageDefinedCreation) :
    Prop where
  refers : ∀ record ∈ records, record.objectKind = .packageDefinedObject →
    ∃ creation ∈ created, creation.objectId = record.objectId ∧ Refers creation record
  stored : ∀ creation ∈ created, creation.objectId ∈ idsOf records
  distinct : (created.map PackageDefinedCreation.objectId).Nodup

namespace Referring

variable {service : ObjectService} {records records' rest : List TypedObjectRecord}
  {created : List PackageDefinedCreation} {object current : TypedObjectRecord}

/-- A record of another kind is added. -/
theorem cons (h : Referring records created) (hkind : object.objectKind ≠ .packageDefinedObject) :
    Referring (object :: records) created where
  refers := by
    intro record hrecord hdefined
    rcases List.mem_cons.mp hrecord with rfl | hold
    · exact absurd hdefined hkind
    · exact h.refers record hold hdefined
  stored := fun creation hcreation ↦ List.mem_cons_of_mem _ (h.stored creation hcreation)
  distinct := h.distinct

/-- A package-defined object is created. -/
theorem create (h : Referring records created) {creation : PackageDefinedCreation}
    (hid : creation.objectId = object.objectId) (hrefers : Refers creation object)
    (hnew : object.objectId ∉ idsOf records) :
    Referring (object :: records) (created ++ [creation]) where
  refers := by
    intro record hrecord hdefined
    rcases List.mem_cons.mp hrecord with rfl | hold
    · exact ⟨creation, List.mem_append_right _ (List.mem_singleton_self _), hid, hrefers⟩
    · obtain ⟨older, holder, hrest⟩ := h.refers record hold hdefined
      exact ⟨older, List.mem_append_left _ holder, hrest⟩
  stored := by
    intro other hother
    rcases List.mem_append.mp hother with hold | hsame
    · exact List.mem_cons_of_mem _ (h.stored other hold)
    · rw [List.mem_singleton.mp hsame, hid]
      exact List.mem_cons_self
  distinct := by
    rw [List.map_append, List.map_singleton]
    refine List.Nodup.append h.distinct (List.nodup_singleton _) fun objectId hold hsame ↦ ?_
    obtain ⟨older, holder, rfl⟩ := List.mem_map.mp hold
    apply hnew
    rw [← hid, ← List.mem_singleton.mp hsame]
    exact h.stored older holder

/-- A record is replaced by one that refers to the same schema. -/
theorem replace (h : Referring records created) (hperm : records.Perm (current :: rest))
    (hid : current.objectId = object.objectId)
    (hkind : current.objectKind = object.objectKind)
    (hrefers : ∀ creation, object.objectKind = .packageDefinedObject →
      Refers creation current → Refers creation object) :
    Referring (object :: rest) created where
  refers := by
    intro record hrecord hdefined
    rcases List.mem_cons.mp hrecord with rfl | hold
    · obtain ⟨creation, hcreation, hsame, hold⟩ := h.refers current
        (hperm.mem_iff.mpr List.mem_cons_self) (hkind.trans hdefined)
      exact ⟨creation, hcreation, hsame.trans hid, hrefers creation hdefined hold⟩
    · exact h.refers record (hperm.mem_iff.mpr (List.mem_cons_of_mem _ hold)) hdefined
  stored := by
    intro creation hcreation
    have hids := hperm.map TypedObjectRecord.objectId
    rw [List.map_cons, hid] at hids
    exact hids.mem_iff.mp (h.stored creation hcreation)
  distinct := h.distinct

/-- A call that meets the condition keeps the references. -/
theorem step (h : Referring records created) (hholds : Holds records service)
    {operation : Operation} (hkeeps : KeepsReference service operation)
    (hchange : RecordChange service records operation records') :
    Referring records' (created ++ operation.created service) := by
  cases hchange with
  | kept hnone =>
    rw [hnone, List.append_nil]
    exact h
  | note => exact (List.append_nil created).symm ▸ h.cons ObjectKind.noConfusion
  | task hkind =>
    refine (List.append_nil created).symm ▸ h.cons fun hdefined ↦ ?_
    rw [hdefined] at hkind
    cases hkind
  | package | schemaDefinition =>
    exact (List.append_nil created).symm ▸ h.cons ObjectKind.noConfusion
  | packageDefined hcreated hobject hnew =>
    rw [hcreated]
    exact h.create (packageDefinedRecord_objectId hobject).symm
      (refers_packageDefinedRecord hobject).2 hnew
  | revised hvalid hcurrent hrevised hperm =>
    have hid := (hholds.mem_of_currentRecord hcurrent).2
    have hkind := (pushNewField_eq_ok hrevised).1
    refine (List.append_nil created).symm ▸ h.replace hperm
      (hid.trans (pushNewField_objectId hrevised).symm) hkind.symm fun creation hdefined hrefers ↦ ?_
    rename_i current _ _
    have hcurrentKind : current.object.objectKind = .packageDefinedObject := hkind.symm.trans hdefined
    obtain ⟨rfl, reference, hreference, rfl⟩ := hkeeps hvalid _ hcurrent hcurrentKind
    obtain rfl : creation.reference = reference :=
      Option.some.inj (Except.ok.inj ((hrefers.reference_eq hcurrentKind).symm.trans hreference))
    exact (refers_of_pushNewField hrevised).2
  | revisedTask hkind hcurrent hsame hperm =>
    refine (List.append_nil created).symm ▸ h.replace hperm
      (hholds.mem_of_currentRecord hcurrent).2 hsame fun creation hdefined ↦ ?_
    rw [hdefined] at hkind
    cases hkind

end Referring

/-- The seeded service stores the external note alone, which is no package-defined object. -/
theorem seededRecords {service : ObjectService} (h : newSeeded = .ok service) :
    ∃ records, Holds records service ∧ Referring records [] := by
  obtain ⟨records, hholds, -⟩ := newSeeded_agrees h
  refine ⟨records, hholds, ?_, nofun, List.nodup_nil⟩
  have hkinds : ∀ record ∈ service.objects.objects.live.map DynamicObjectRecord.object,
      record.objectKind = .note := by
    obtain rfl : seededService = service := Except.ok.inj (newSeeded_eq.symm.trans h)
    decide +kernel
  intro record hrecord hdefined
  have hnote := hkinds record (hholds.stored_perm.mem_iff.mpr hrecord)
  rw [hdefined] at hnote
  cases hnote

/-- The records of a run refer to the schemas that they were created with. -/
theorem ReferringRun.referring {service : ObjectService} {created : List PackageDefinedCreation}
    (h : ReferringRun service created) :
    ∃ records, Holds records service ∧ externalNote ∈ idsOf records ∧ Referring records created := by
  induction h with
  | seeded hseeded =>
    obtain ⟨records, hholds, hreferring⟩ := seededRecords hseeded
    obtain ⟨records', hholds', hexternal⟩ := newSeeded_agrees hseeded
    have hids := (hholds'.objects_ids.symm.trans hholds.objects_ids)
    exact ⟨records, hholds, hids.mem_iff.mp hexternal, hreferring⟩
  | restored generation _ hrestored ih =>
    obtain ⟨records, hholds, hexternal, hreferring⟩ := ih
    obtain ⟨restored', hfrom, ⟨records', hholds', hexternal'⟩, hobjects, -⟩ :=
      fromSnapshot_encodeSnapshot ⟨records, hholds, hexternal⟩ generation
    rw [hfrom] at hrestored
    obtain rfl := Except.ok.inj hrestored
    have hperm : records.Perm records' := by
      have hstored := hholds'.stored_perm
      rw [hobjects] at hstored
      exact hholds.stored_perm.symm.trans hstored
    refine ⟨records', hholds', hexternal', ?_, ?_, hreferring.distinct⟩
    · exact fun record hrecord ↦ hreferring.refers record (hperm.mem_iff.mpr hrecord)
    · exact fun creation hcreation ↦
        (hperm.map TypedObjectRecord.objectId).mem_iff.mp (hreferring.stored creation hcreation)
  | performed operation _ hkeeps ih =>
    obtain ⟨records, hholds, hexternal, hreferring⟩ := ih
    obtain ⟨records', hchange, hholds'⟩ := hholds.perform operation
    exact ⟨records', hholds', hchange.ids_subset hholds hexternal,
      hreferring.step hholds hkeeps hchange⟩

/-- Every package-defined object refers to the one schema that it was created with, and the service
lists these references. -/
structure KeepsReferences (service : ObjectService) (created : List PackageDefinedCreation) :
    Prop where
  reference : ∀ record ∈ service.objects.objects.live,
    record.object.objectKind = .packageDefinedObject → ∃ creation,
      created.filter (fun creation ↦ creation.objectId = record.object.objectId) = [creation] ∧
        Refers creation record.object
  listed : ∃ references, service.packageDefinedSchemaReferences = .ok references ∧
    List.Forall₂ (fun record reference ↦ ∃ creation ∈ created,
      creation.objectId = record.object.objectId ∧ reference = creation.reference)
      (service.objects.objects.live.filter fun record ↦
        record.object.objectKind = .packageDefinedObject) references.live

/-- Package-defined objects keep their schema references in every state of a run whose revisions write
them again. -/
theorem ReferringRun.keepsReferences {service : ObjectService}
    {created : List PackageDefinedCreation} (h : ReferringRun service created) :
    service.KeepsReferences created := by
  obtain ⟨records, hholds, -, hreferring⟩ := h.referring
  have hrefers : ∀ record ∈ service.objects.objects.live,
      record.object.objectKind = .packageDefinedObject → ∃ creation ∈ created,
        creation.objectId = record.object.objectId ∧ Refers creation record.object :=
    fun record hrecord ↦ hreferring.refers record.object
      (hholds.stored_perm.mem_iff.mp (List.mem_map_of_mem hrecord))
  constructor
  · intro record hrecord hdefined
    obtain ⟨creation, hcreation, hid, hrefer⟩ := hrefers record hrecord hdefined
    refine ⟨creation, ?_, hrefer⟩
    rw [← hid]
    exact filter_eq_singleton hreferring.distinct hcreation
  · obtain ⟨found, hloop, hfound⟩ :=
      schemaReferencesLoop_eq_ok service.objects.objects.toList [] hrefers
    refine ⟨Table.ofList (found.map some), ?_, ?_⟩
    · rw [packageDefinedSchemaReferences, hloop, List.nil_append]
    · have hlength : found.length ≤ maxPackageSchemaReferences := by
        rw [← hfound.length_eq]
        exact (List.length_filter_le _ _).trans service.objects.objects.length_live_le
      rwa [Table.live_ofList hlength]

/-- The shell defines a schema. -/
def schemaService : ObjectService :=
  (Operation.createSchemaDefinitionObject shellProcess ⟨3000⟩).perform seededService

/-- The shell creates an object of the schema, with an initial state. -/
def createDefined : Operation :=
  .createPackageDefinedObject shellProcess (.fromParts 0 1)
    ⟨⟨3000⟩, 1, packageDefinedStateFormatInlineBytesV0, secretText⟩

/-- The shell writes the reference of the object again, through the capability that it got. -/
def rewriteReference : Operation :=
  .reviseField shellProcess (.fromParts 2 1) ⟨firstShellNoteId⟩ fieldPackageSchemaRefV0
    (packageSchemaRefValue ⟨3000⟩ 1)

theorem rewriteReference_keepsReference :
    KeepsReference (createDefined.perform schemaService) rewriteReference := by
  intro _ current hcurrent _
  have hreference : ((createDefined.perform schemaService).currentRecord
      ⟨firstShellNoteId⟩).toOption.map (fun current ↦ packageSchemaReferenceForObject current.object) =
        some (.ok (some ⟨⟨3000⟩, 1⟩)) := by decide +kernel
  rw [hcurrent] at hreference
  exact ⟨rfl, ⟨⟨3000⟩, 1⟩, Option.some.inj hreference, rfl⟩

/-- The object is at its second revision, and has its reference. -/
theorem rewriteReference_keepsReferences :
    createDefined.created schemaService = [⟨⟨firstShellNoteId⟩, ⟨3000⟩, 1⟩] ∧
      ((rewriteReference.perform (createDefined.perform schemaService)).currentRecord
        ⟨firstShellNoteId⟩).toOption.map (·.revision) = some 2 ∧
      (rewriteReference.perform (createDefined.perform schemaService)).KeepsReferences
        ([] ++ [] ++ createDefined.created schemaService ++ []) :=
  ⟨by decide +kernel, by decide +kernel, ReferringRun.keepsReferences (.performed rewriteReference
    (.performed createDefined (.performed (.createSchemaDefinitionObject shellProcess ⟨3000⟩)
      (.seeded newSeeded_eq) trivial) trivial) rewriteReference_keepsReference)⟩

/-- The shell revises the text of the object, through the capability that it got. -/
def revisedDefined : ObjectService :=
  (Operation.reviseField shellProcess (.fromParts 2 1) ⟨firstShellNoteId⟩ fieldText
    secretText).perform (createDefined.perform schemaService)

/-- The revised record has no reference, and the references cannot be listed any more. -/
theorem revisedDefined_loses_reference :
    Reachable revisedDefined ∧
      (∃ record ∈ revisedDefined.objects.objects.live,
        record.object.objectKind = .packageDefinedObject ∧
          record.object.fields.map TypedObjectField.fieldId = [fieldText]) ∧
      revisedDefined.packageDefinedSchemaReferences = .error .badSnapshot :=
  ⟨.performed _ (.performed _ (.performed _ (.seeded newSeeded_eq))), by decide +kernel,
    by decide +kernel⟩

end ObjectService

end Pythos.Core
