import Pythos.Core.ObjectServiceCodec
import Pythos.Core.ObjectServiceConsistency

/-!
# Durability of the object state

The snapshot of a service survives a checkpoint slot: the image of the slot decodes to the snapshot, and
the service that boots from it holds the same objects, relationships and revisions. The identity that it
gives the next note is one past the largest stored identity below that of the external note. That
identity is free unless the last one of the range has been stored, since the next one after it is the
identity of the external note itself.
-/

namespace Pythos.Core

open Foundation Shared

namespace ObjectService

/-! ### The next note -/

/-- The last identity below that of the external note. -/
def lastNoteId : ObjectId := ⟨knownExternalNoteId - 1⟩

/-- A step of the search for the next note. -/
def nextNoteId (next : UInt64) (record : ObjectExtentRecord) : UInt64 :=
  if record.object.objectId.raw ≥ firstShellNoteId ∧
      record.object.objectId.raw < knownExternalNoteId ∧ record.object.objectId.raw ≥ next then
    record.object.objectId.raw + 1
  else next

theorem toNat_nextNoteId (next : UInt64) (record : ObjectExtentRecord) :
    (nextNoteId next record).toNat =
      if 1042 ≤ record.object.objectId.raw.toNat ∧ record.object.objectId.raw.toNat < 2001 ∧
          next.toNat ≤ record.object.objectId.raw.toNat then
        record.object.objectId.raw.toNat + 1
      else next.toNat := by
  have hfirst : firstShellNoteId.toNat = 1042 := rfl
  have hlast : knownExternalNoteId.toNat = 2001 := rfl
  simp only [nextNoteId, ge_iff_le, UInt64.le_iff_toNat_le, UInt64.lt_iff_toNat_lt, hfirst, hlast]
  split_ifs with h
  · rw [UInt64.toNat_add, Nat.mod_eq_of_lt (by have hone : (1 : UInt64).toNat = 1 := rfl; omega)]
    rfl
  · rfl

/-- The search stays in the range, passes every identity of it, and stops one past a stored one. -/
theorem foldl_nextNoteId (records : List ObjectExtentRecord) {start : UInt64}
    (hlow : 1042 ≤ start.toNat) (hhigh : start.toNat ≤ 2001) :
    start.toNat ≤ (records.foldl nextNoteId start).toNat ∧
      (records.foldl nextNoteId start).toNat ≤ 2001 ∧
      (∀ record ∈ records, 1042 ≤ record.object.objectId.raw.toNat →
        record.object.objectId.raw.toNat < 2001 →
          record.object.objectId.raw.toNat < (records.foldl nextNoteId start).toNat) ∧
      (records.foldl nextNoteId start = start ∨ ∃ record ∈ records,
        record.object.objectId.raw.toNat + 1 = (records.foldl nextNoteId start).toNat) := by
  induction records generalizing start with
  | nil => simp [hhigh]
  | cons record rest ih =>
    have hstep := toNat_nextNoteId start record
    rw [List.foldl_cons]
    have hnext : 1042 ≤ (nextNoteId start record).toNat ∧
        (nextNoteId start record).toNat ≤ 2001 ∧ start.toNat ≤ (nextNoteId start record).toNat := by
      split_ifs at hstep <;> omega
    obtain ⟨hle, hbound, hpassed, hstop⟩ := ih hnext.1 hnext.2.1
    refine ⟨by omega, hbound, ?_, ?_⟩
    · intro other hother hfirst hlast
      rcases List.mem_cons.mp hother with rfl | hmem
      · split_ifs at hstep <;> omega
      · exact hpassed other hmem hfirst hlast
    · rcases hstop with hstop | ⟨other, hmem, heq⟩
      · rw [hstop]
        by_cases hmove : nextNoteId start record = start
        · exact Or.inl hmove
        · refine Or.inr ⟨record, List.mem_cons_self, ?_⟩
          split_ifs at hstep with htaken
          · exact hstep.symm
          · exact absurd (UInt64.toNat_inj.mp hstep) hmove
      · exact Or.inr ⟨other, List.mem_cons_of_mem _ hmem, heq⟩

/-- The identities that a snapshot stores. -/
theorem mem_ids_iff {service : ObjectService} {objectId : ObjectId} :
    objectId ∈ service.objects.ids ↔
      ∃ record ∈ service.encodeSnapshot.objects.live, record.object.objectId = objectId := by
  have hlive : service.encodeSnapshot.objects.live = service.objects.objects.live.map encodeObject :=
    Table.live_map _ _
  rw [hlive, DynamicObjectStore.ids, List.mem_map]
  constructor
  · rintro ⟨record, hrecord, hid⟩
    exact ⟨encodeObject record, List.mem_map_of_mem hrecord, hid⟩
  · rintro ⟨record, hrecord, hid⟩
    obtain ⟨stored, hstored, rfl⟩ := List.mem_map.mp hrecord
    exact ⟨stored, hstored, hid⟩

/-- The restored identity is taken exactly when the last one of the range is stored. -/
theorem restoredNoteId_mem_iff {service : ObjectService} (hexternal : externalNote ∈ service.objects.ids) :
    (⟨restoredNoteId service.encodeSnapshot⟩ : ObjectId) ∈ service.objects.ids ↔
      lastNoteId ∈ service.objects.ids := by
  have hfold : restoredNoteId service.encodeSnapshot =
      service.encodeSnapshot.objects.live.foldl nextNoteId firstShellNoteId := rfl
  have hstart : 1042 ≤ firstShellNoteId.toNat := by decide
  obtain ⟨hlow, hhigh, hpassed, hstop⟩ :=
    foldl_nextNoteId service.encodeSnapshot.objects.live hstart (by decide)
  rw [← hfold] at hlow hhigh hpassed hstop
  have hfirst : firstShellNoteId.toNat = 1042 := rfl
  have hlast : lastNoteId.raw.toNat = 2000 := rfl
  constructor
  · intro hmem
    obtain ⟨record, hrecord, hid⟩ := mem_ids_iff.mp hmem
    have hraw : record.object.objectId.raw.toNat = (restoredNoteId service.encodeSnapshot).toNat := by
      rw [hid]
    have hend : (restoredNoteId service.encodeSnapshot).toNat = 2001 := by
      by_contra hne
      have hlt := hpassed record hrecord (by omega) (by omega)
      omega
    rcases hstop with hstop | ⟨other, hother, heq⟩
    · rw [hstop] at hend
      omega
    · have hother' : other.object.objectId.raw = lastNoteId.raw := UInt64.toNat_inj.mp (by omega)
      exact mem_ids_iff.mpr ⟨other, hother, congrArg ObjectId.mk hother'⟩
  · intro hmem
    obtain ⟨record, hrecord, hid⟩ := mem_ids_iff.mp hmem
    have hraw : record.object.objectId.raw.toNat = 2000 := by rw [hid, hlast]
    have hlt := hpassed record hrecord (by omega) (by omega)
    have hend : restoredNoteId service.encodeSnapshot = knownExternalNoteId :=
      UInt64.toNat_inj.mp (by
        have hknown : knownExternalNoteId.toNat = 2001 := rfl
        omega)
    rw [hend]
    exact hexternal

/-! ### Booting from a slot -/

/-- The restored service holds what the other one does, under a generation. -/
structure Restores (service restored : ObjectService) (generation : UInt64) : Prop where
  /-- The store is the same slot by slot, with its extents and its bitmap. -/
  objects_eq : restored.objects = service.objects
  relationships_perm :
    restored.relationships.relationships.live.Perm service.relationships.relationships.live
  /-- The current and prior revisions are the same slot by slot. -/
  revisions_eq : restored.revisions = service.revisions
  generation_eq : restored.generation = generation

variable {service : ObjectService}

theorem externalNote_mem_ids (h : service.Agrees) : externalNote ∈ service.objects.ids := by
  obtain ⟨records, htables, hexternal⟩ := h
  exact htables.objects_ids.mem_iff.mpr hexternal

/-- Every reachable state survives every slot and generation, and the identity of the next note is free
exactly when the last one of the range is not stored. -/
theorem Reachable.durable (h : Reachable service) (slot : CheckpointSlot) (generation : UInt64) :
    ∃ snapshot restored,
      decodeSlot (encodeSlotWithGeneration slot service.encodeSnapshot generation true) =
        .ok snapshot ∧
      fromSnapshot snapshot = .ok restored ∧ service.Restores restored generation ∧
      ((⟨restored.nextShellNoteId⟩ : ObjectId) ∉ restored.objects.ids ↔
        lastNoteId ∉ service.objects.ids) := by
  obtain ⟨restored, hfrom, -, hobjects, hrelationships, hrevisions, hgeneration, hnext⟩ :=
    fromSnapshot_encodeSnapshot h.agrees generation
  refine ⟨_, restored, decodeSlot_encodeSlotWithGeneration slot _ generation, hfrom,
    ⟨hobjects, hrelationships, hrevisions, hgeneration⟩, ?_⟩
  rw [hnext, hobjects, restoredNoteId_mem_iff (externalNote_mem_ids h.agrees)]

theorem revisedNote_durable :
    lastNoteId ∉ revisedNote.objects.ids ∧ ∃ snapshot restored,
      decodeSlot (encodeSlotWithGeneration .b revisedNote.encodeSnapshot 7 true) = .ok snapshot ∧
      fromSnapshot snapshot = .ok restored ∧ revisedNote.Restores restored 7 ∧
      ((⟨restored.nextShellNoteId⟩ : ObjectId) ∉ restored.objects.ids ↔
        lastNoteId ∉ revisedNote.objects.ids) :=
  ⟨by decide +kernel, Reachable.durable (.performed _ (.performed _ (.seeded newSeeded_eq))) .b 7⟩

/-- A package is given the last identity of the range. -/
def lastNoteStored : ObjectService :=
  (Operation.createPackageObject shellProcess lastNoteId).perform seededService

/-- The service that boots from its snapshot gives the next note the identity of the external note. -/
theorem lastNoteStored_not_durable :
    Reachable lastNoteStored ∧ ∃ snapshot restored,
      decodeSlot (encodeSlotWithGeneration .a lastNoteStored.encodeSnapshot 1 true) = .ok snapshot ∧
      fromSnapshot snapshot = .ok restored ∧ restored.nextShellNoteId = knownExternalNoteId ∧
      (⟨restored.nextShellNoteId⟩ : ObjectId) ∈ restored.objects.ids := by
  have hreachable : Reachable lastNoteStored := .performed _ (.seeded newSeeded_eq)
  obtain ⟨restored, hfrom, -, hobjects, -, -, -, hnext⟩ :=
    fromSnapshot_encodeSnapshot hreachable.agrees 1
  have hrestored : restored.nextShellNoteId = knownExternalNoteId := by
    rw [hnext]
    decide +kernel
  refine ⟨hreachable, _, restored, decodeSlot_encodeSlotWithGeneration .a _ 1, hfrom, hrestored, ?_⟩
  rw [hrestored, hobjects]
  exact externalNote_mem_ids hreachable.agrees

end ObjectService

end Pythos.Core
