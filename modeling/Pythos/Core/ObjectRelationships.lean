import Pythos.Core.TypedObjectFormat
import Pythos.Foundation.Stateful
import Pythos.Foundation.Table

/-!
# Relationships between objects

A store of the objects that may be related and of the relationships between them. Both tables are
bounded, with capacities that differ between the uses of the store, and a relationship is added only
between objects that the store knows.
-/

namespace Pythos.Core

open Foundation Stateful

inductive RelationshipError
  | objectTableFull
  | relationshipTableFull
  | duplicateObject
  | duplicateRelationship
  | unknownSource
  | unknownTarget
  deriving DecidableEq, Repr

inductive RelationshipKind
  | blocks
  | createdBy
  | dependsOn
  | belongsTo
  | nameBinding
  | bindingTarget
  deriving DecidableEq, Repr

structure ObjectRelationship where
  source : ObjectId
  kind : RelationshipKind
  target : ObjectId
  deriving DecidableEq, Repr

structure BoundedRelationshipStore (objectCapacity relationshipCapacity : ℕ) where
  objects : Table TypedObjectRecord objectCapacity
  relationships : Table ObjectRelationship relationshipCapacity
  deriving DecidableEq

namespace BoundedRelationshipStore

variable {objectCapacity relationshipCapacity : ℕ}

def new : BoundedRelationshipStore objectCapacity relationshipCapacity where
  objects := Table.empty
  relationships := Table.empty

def containsObject (store : BoundedRelationshipStore objectCapacity relationshipCapacity)
    (objectId : ObjectId) : Bool :=
  (store.objects.findIndex fun object ↦ object.objectId = objectId).isSome

def containsRelationship (store : BoundedRelationshipStore objectCapacity relationshipCapacity)
    (relationship : ObjectRelationship) : Bool :=
  (store.relationships.findIndex fun other ↦ other = relationship).isSome

def insertObject (object : TypedObjectRecord) :
    Stateful RelationshipError
      (BoundedRelationshipStore objectCapacity relationshipCapacity) Unit := do
  let store ← Stateful.read
  if store.containsObject object.objectId then fail .duplicateObject
  else
    match store.objects.insert object with
    | none => fail .objectTableFull
    | some objects => Stateful.modify fun store ↦ { store with objects }

def addRelationship (relationship : ObjectRelationship) :
    Stateful RelationshipError
      (BoundedRelationshipStore objectCapacity relationshipCapacity) Unit := do
  let store ← Stateful.read
  if ¬ store.containsObject relationship.source then fail .unknownSource
  else if ¬ store.containsObject relationship.target then fail .unknownTarget
  else if store.containsRelationship relationship then fail .duplicateRelationship
  else
    match store.relationships.insert relationship with
    | none => fail .relationshipTableFull
    | some relationships => Stateful.modify fun store ↦ { store with relationships }

def queryFirst (store : BoundedRelationshipStore objectCapacity relationshipCapacity)
    (source : ObjectId) (kind : RelationshipKind) : Option ObjectRelationship :=
  (store.relationships.lookup fun relationship ↦
    relationship.source = source ∧ relationship.kind = kind).map Prod.snd

/-! ### What the store knows -/

/-- The identities of the known objects. -/
def ids (store : BoundedRelationshipStore objectCapacity relationshipCapacity) : List ObjectId :=
  store.objects.live.map TypedObjectRecord.objectId

variable {store : BoundedRelationshipStore objectCapacity relationshipCapacity}

theorem containsObject_eq_true_iff {objectId : ObjectId} :
    store.containsObject objectId = true ↔ objectId ∈ store.ids := by
  rw [containsObject, Option.isSome_iff_ne_none, ne_eq, Table.findIndex_eq_none_iff, ids,
    List.mem_map]
  simp

theorem containsRelationship_eq_true_iff {relationship : ObjectRelationship} :
    store.containsRelationship relationship = true ↔ relationship ∈ store.relationships.live := by
  rw [containsRelationship, Option.isSome_iff_ne_none, ne_eq, Table.findIndex_eq_none_iff]
  simp

theorem queryFirst_eq_some {source : ObjectId} {kind : RelationshipKind}
    {relationship : ObjectRelationship} (h : store.queryFirst source kind = some relationship) :
    relationship ∈ store.relationships.live ∧ relationship.source = source ∧
      relationship.kind = kind := by
  obtain ⟨⟨slot, found⟩, hfound, rfl⟩ := Option.map_eq_some_iff.mp h
  obtain ⟨hslot, htest⟩ := Table.lookup_eq_some hfound
  exact ⟨Table.mem_live_iff.mpr ⟨slot, hslot⟩, of_decide_eq_true htest⟩

theorem queryFirst_eq_none_iff {source : ObjectId} {kind : RelationshipKind} :
    store.queryFirst source kind = none ↔
      ∀ relationship ∈ store.relationships.live,
        ¬ (relationship.source = source ∧ relationship.kind = kind) := by
  rw [queryFirst, Option.map_eq_none_iff, Table.lookup_eq_none_iff]
  simp

/-! ### Operations -/

/-- An object is known after its insertion, which fails only for a known object or in a full table. -/
theorem ensures_insertObject
    (store : BoundedRelationshipStore objectCapacity relationshipCapacity)
    (object : TypedObjectRecord) :
    Ensures (insertObject object)
      (fun _ store' ↦ object.objectId ∉ store.ids ∧
        store'.objects.live.Perm (object :: store.objects.live) ∧
          store'.relationships = store.relationships)
      (fun _ store' ↦ store' = store ∧
        (object.objectId ∈ store.ids ∨ objectCapacity ≤ store.objects.live.length)) store := by
  unfold insertObject
  rw [ensures_bind, ensures_read, ensures_ite]
  refine ⟨fun hknown ↦ ?_, fun hunknown ↦ ?_⟩
  · exact ensures_fail.mpr ⟨rfl, Or.inl (containsObject_eq_true_iff.mp hknown)⟩
  · rw [containsObject_eq_true_iff] at hunknown
    cases hinsert : store.objects.insert object with
    | none =>
      exact ensures_fail.mpr ⟨rfl, Or.inr (Table.le_length_live_of_insert_eq_none hinsert)⟩
    | some objects =>
      exact ensures_modify.mpr ⟨hunknown, Table.live_insert hinsert, rfl⟩

/-- A relationship between known objects is added unless it is there already or the table is full. -/
theorem ensures_addRelationship
    (store : BoundedRelationshipStore objectCapacity relationshipCapacity)
    (relationship : ObjectRelationship) :
    Ensures (addRelationship relationship)
      (fun _ store' ↦ store'.objects = store.objects ∧
        store'.relationships.live.Perm (relationship :: store.relationships.live))
      (fun _ store' ↦ store' = store ∧
        (relationship.source ∉ store.ids ∨ relationship.target ∉ store.ids ∨
          relationship ∈ store.relationships.live ∨
            relationshipCapacity ≤ store.relationships.live.length)) store := by
  unfold addRelationship
  simp only [ensures_bind, ensures_read, ensures_ite,
    ensures_fail, containsObject_eq_true_iff, containsRelationship_eq_true_iff, true_and]
  refine ⟨fun hsource ↦ Or.inl hsource, fun _ ↦ ⟨fun htarget ↦ Or.inr (Or.inl htarget), fun _ ↦
    ⟨fun hknown ↦ Or.inr (Or.inr (Or.inl hknown)), fun _ ↦ ?_⟩⟩⟩
  cases hinsert : store.relationships.insert relationship with
  | none =>
    exact ensures_fail.mpr
      ⟨rfl, Or.inr (Or.inr (Or.inr (Table.le_length_live_of_insert_eq_none hinsert)))⟩
  | some relationships => exact ensures_modify.mpr ⟨rfl, Table.live_insert hinsert⟩

end BoundedRelationshipStore

end Pythos.Core
