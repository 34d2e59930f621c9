import Pythos.Core.StorageAllocator
import Pythos.Core.TypedObjectFormat
import Pythos.Foundation.Stateful
import Pythos.Foundation.Table

/-!
# The dynamic object store

Up to twenty-four typed objects, each with the extent of blocks that the allocator gave it. The store is
well formed when the identities of its objects are distinct and the taken blocks of the allocator are
exactly the blocks of the extents, which do not overlap. Every operation keeps that, and an operation
that fails leaves the store as it was.
-/

namespace Pythos.Core

open Foundation Stateful

def maxDynamicObjects : ℕ := 24

inductive DynamicObjectError
  | allocator (error : AllocatorError)
  | objectTableFull
  | duplicateObject
  | unknownObject
  deriving DecidableEq, Repr

/-- `DynamicObjectSlot`, which `DynamicObjectRecord` repeats. -/
structure DynamicObjectRecord where
  object : TypedObjectRecord
  extent : BlockExtent
  deriving DecidableEq

structure DynamicObjectStore where
  allocator : BlockAllocator
  objects : Table DynamicObjectRecord maxDynamicObjects
  deriving DecidableEq

def invalidExtent : DynamicObjectError := .allocator .invalidExtent

def extentBitmap (extent : BlockExtent) (blockCount : UInt16) :
    Except DynamicObjectError (BitVec 64) :=
  if extent.blockCount.toNat = 0 ∨ blockCount.toNat > 64 then .error invalidExtent
  else if ¬ extent.startBlock.toNat + extent.blockCount.toNat < 2 ^ 16 then .error invalidExtent
  else if extent.startBlock.toNat + extent.blockCount.toNat > blockCount.toNat then
    .error invalidExtent
  else .ok (markBlocks 0#64 extent true)

namespace DynamicObjectStore

def new (baseSector : UInt64) (blockCount : UInt16) : Except DynamicObjectError DynamicObjectStore :=
  match BlockAllocator.new baseSector blockCount with
  | .error error => .error (.allocator error)
  | .ok allocator => .ok { allocator, objects := Table.empty }

def findIndex (store : DynamicObjectStore) (objectId : ObjectId) : Option (Fin maxDynamicObjects) :=
  store.objects.findIndex fun slot ↦ slot.object.objectId = objectId

def withAllocator {α : Type} (step : Stateful AllocatorError BlockAllocator α) :
    Stateful DynamicObjectError DynamicObjectStore α :=
  within allocator (fun allocator store ↦ { store with allocator }) .allocator step

def createObject (object : TypedObjectRecord) :
    Stateful DynamicObjectError DynamicObjectStore BlockExtent := do
  let store ← Stateful.read
  if (store.findIndex object.objectId).isSome then fail .duplicateObject
  else
    match store.objects.freeIndex with
    | none => fail .objectTableFull
    | some slot =>
      let extent ← withAllocator (Stateful.update fun allocator ↦ allocator.allocate 1)
      Stateful.modify fun store ↦
        { store with objects := store.objects.put slot (some { object, extent }) }
      pure extent

/-- The slot of an object and what it holds. -/
def lookup (store : DynamicObjectStore) (objectId : ObjectId) :
    Option (Fin maxDynamicObjects × DynamicObjectRecord) :=
  store.objects.lookup fun slot ↦ slot.object.objectId = objectId

def object (store : DynamicObjectStore) (objectId : ObjectId) : Option TypedObjectRecord :=
  (store.lookup objectId).map fun found ↦ found.2.object

def replaceObject (object : TypedObjectRecord) :
    Stateful DynamicObjectError DynamicObjectStore Unit := do
  let store ← Stateful.read
  match store.lookup object.objectId with
  | none => fail .unknownObject
  | some (slot, record) =>
    Stateful.modify fun store ↦
      { store with objects := store.objects.put slot (some { record with object }) }

def deleteObject (objectId : ObjectId) : Stateful DynamicObjectError DynamicObjectStore Unit := do
  let store ← Stateful.read
  match store.lookup objectId with
  | none => fail .unknownObject
  | some (slot, record) =>
    withAllocator (Stateful.update fun allocator ↦ (allocator.free record.extent).map ((), ·))
    Stateful.modify fun store ↦ { store with objects := store.objects.put slot none }

/-- `allocator_bitmap`. -/
def allocatorBitmap (store : DynamicObjectStore) : BitVec 64 :=
  store.allocator.committedBitmap

/-- The loop of `restore_from_records` over the remaining records: the bitmap and the identities of the
records seen so far go in, and the bitmap of all of them comes out. -/
def restoreLoop (blockCount : UInt16) (bitmap : BitVec 64) :
    List (Option DynamicObjectRecord) → BitVec 64 → List ObjectId →
      Except DynamicObjectError (BitVec 64)
  | [], seenBitmap, _ => .ok seenBitmap
  | none :: rest, seenBitmap, seenIds => restoreLoop blockCount bitmap rest seenBitmap seenIds
  | some record :: rest, seenBitmap, seenIds => do
    let extentBits ← extentBitmap record.extent blockCount
    if seenBitmap &&& extentBits ≠ 0#64 ∨ bitmap &&& extentBits ≠ extentBits then
      .error invalidExtent
    else if record.object.objectId ∈ seenIds then .error .duplicateObject
    else
      restoreLoop blockCount bitmap rest (seenBitmap ||| extentBits)
        (record.object.objectId :: seenIds)

def restoreFromRecords (baseSector : UInt64) (blockCount : UInt16) (bitmap : BitVec 64)
    (records : Table DynamicObjectRecord maxDynamicObjects) :
    Except DynamicObjectError DynamicObjectStore :=
  match BlockAllocator.restoreFromBitmap baseSector blockCount bitmap with
  | .error error => .error (.allocator error)
  | .ok allocator => do
    let seenBitmap ← restoreLoop blockCount bitmap records.toList 0#64 []
    if seenBitmap ≠ bitmap then .error invalidExtent
    else .ok { allocator, objects := records }

/-! ### Identities -/

/-- The identities of the stored objects. -/
def ids (store : DynamicObjectStore) : List ObjectId :=
  store.objects.live.map fun record ↦ record.object.objectId

variable {store : DynamicObjectStore} {objectId : ObjectId}

theorem findIndex_eq_none_iff : store.findIndex objectId = none ↔ objectId ∉ store.ids := by
  rw [findIndex, Table.findIndex_eq_none_iff, ids, List.mem_map]
  simp

theorem lookup_eq_some {slot : Fin maxDynamicObjects} {record : DynamicObjectRecord}
    (h : store.lookup objectId = some (slot, record)) :
    store.objects[slot] = some record ∧ record.object.objectId = objectId := by
  obtain ⟨hslot, htest⟩ := Table.lookup_eq_some h
  exact ⟨hslot, of_decide_eq_true htest⟩

theorem lookup_eq_none_iff : store.lookup objectId = none ↔ objectId ∉ store.ids := by
  rw [lookup, Table.lookup_eq_none_iff, ids, List.mem_map]
  simp

end DynamicObjectStore

/-! ### Occupied blocks -/

/-- The taken blocks are exactly those of the records, which have distinct identities and extents that
do not overlap. -/
structure Occupied (allocator : BlockAllocator) (records : List DynamicObjectRecord) : Prop where
  wellFormed : allocator.WellFormed
  distinct : (records.map fun record ↦ record.object.objectId).Nodup
  valid : ∀ record ∈ records, allocator.validateExtent record.extent = .ok ()
  disjoint : records.Pairwise fun first second ↦
    Disjoint first.extent.blocks second.extent.blocks
  taken : ∀ block, block ∈ members allocator.bitmap ↔ ∃ record ∈ records, block ∈ record.extent.blocks

theorem occupied_iff {allocator : BlockAllocator} {records : List DynamicObjectRecord} :
    Occupied allocator records ↔ allocator.Covers (records.map (·.extent)) ∧
      (records.map fun record ↦ record.object.objectId).Nodup := by
  constructor
  · intro h
    refine ⟨⟨h.wellFormed, List.forall_mem_map.mpr h.valid, List.pairwise_map.mpr h.disjoint, ?_⟩, h.distinct⟩
    simpa using h.taken
  · rintro ⟨h, hdistinct⟩
    have hdisjoint := h.disjoint
    rw [List.pairwise_map] at hdisjoint
    refine ⟨h.wellFormed, hdistinct, List.forall_mem_map.mp h.valid, hdisjoint, ?_⟩
    simpa using h.taken

namespace Occupied

variable {allocator allocator' : BlockAllocator} {records rest : List DynamicObjectRecord}
  {record : DynamicObjectRecord}

theorem perm (h : Occupied allocator records) {records' : List DynamicObjectRecord}
    (hperm : records'.Perm records) : Occupied allocator records' := by
  obtain ⟨hcovers, hdistinct⟩ := occupied_iff.mp h
  exact occupied_iff.mpr ⟨hcovers.perm (hperm.map _), (hperm.map _).nodup_iff.mpr hdistinct⟩

theorem allocate (h : Occupied allocator records) {object : TypedObjectRecord}
    (hnew : object.objectId ∉ records.map fun record ↦ record.object.objectId)
    {blockCount : UInt16} {extent : BlockExtent}
    (hallocate : allocator.allocate blockCount = .ok (extent, allocator')) :
    Occupied allocator' ({ object, extent } :: records) ∧ allocator'.SameLayout allocator := by
  obtain ⟨hcovers, hdistinct⟩ := occupied_iff.mp h
  obtain ⟨hcovers', hlayout⟩ := hcovers.allocate hallocate
  exact ⟨occupied_iff.mpr ⟨hcovers', List.nodup_cons.mpr ⟨hnew, hdistinct⟩⟩, hlayout⟩

theorem free (h : Occupied allocator (record :: rest)) :
    ∃ allocator', allocator.free record.extent = .ok allocator' ∧ Occupied allocator' rest ∧
      allocator'.SameLayout allocator := by
  obtain ⟨hcovers, hdistinct⟩ := occupied_iff.mp h
  obtain ⟨allocator', hfree, hcovers', hlayout⟩ := hcovers.free
  exact ⟨allocator', hfree, occupied_iff.mpr ⟨hcovers', hdistinct.of_cons⟩, hlayout⟩

theorem replace (h : Occupied allocator (record :: rest)) {object : TypedObjectRecord}
    (hid : object.objectId = record.object.objectId) :
    Occupied allocator ({ record with object } :: rest) := by
  obtain ⟨hcovers, hdistinct⟩ := occupied_iff.mp h
  rw [List.map_cons, ← hid] at hdistinct
  exact occupied_iff.mpr ⟨hcovers, hdistinct⟩

end Occupied

/-! ### Operations -/

namespace DynamicObjectStore

/-- The objects of the store occupy the taken blocks of its allocator. -/
def WellFormed (store : DynamicObjectStore) : Prop :=
  Occupied store.allocator store.objects.live

variable {store : DynamicObjectStore}

/-- A created object takes the first free slot. -/
theorem ensures_createObject_slot (store : DynamicObjectStore) (object : TypedObjectRecord) :
    Ensures (createObject object)
      (fun extent store' ↦ object.objectId ∉ store.ids ∧ ∃ slot, store.objects.freeIndex = some slot ∧
        store.allocator.allocate 1 = .ok (extent, store'.allocator) ∧
          store'.objects = store.objects.put slot (some { object, extent }))
      (fun _ store' ↦ store' = store ∧ (object.objectId ∈ store.ids ∨ store.objects.freeIndex = none ∨
        ∃ error, store.allocator.allocate 1 = .error error)) store := by
  unfold createObject
  rw [ensures_bind, ensures_read, ensures_ite, Option.isSome_iff_ne_none, ne_eq, findIndex_eq_none_iff,
    not_not]
  refine ⟨fun hknown ↦ ensures_fail.mpr ⟨rfl, Or.inl hknown⟩, fun hnew ↦ ?_⟩
  cases hfree : store.objects.freeIndex with
  | none => exact ensures_fail.mpr ⟨rfl, Or.inr (Or.inl rfl)⟩
  | some slot =>
    simp only [ensures_bind, withAllocator, ensures_within,
      ensures_update, ensures_modify, ensures_pure]
    exact ⟨fun _ _ hallocate ↦ ⟨hnew, slot, rfl, hallocate, rfl⟩,
      fun _ hrefused ↦ ⟨trivial, Or.inr (Or.inr ⟨_, hrefused⟩)⟩⟩

theorem ensures_createObject (hwell : store.WellFormed) (object : TypedObjectRecord) :
    Ensures (createObject object)
      (fun extent store' ↦ store'.WellFormed ∧ store'.allocator.SameLayout store.allocator ∧
        object.objectId ∉ store.ids ∧
          store'.objects.live.Perm ({ object, extent } :: store.objects.live))
      (fun _ store' ↦ store' = store) store := by
  refine (ensures_createObject_slot store object).mono ?_ fun _ _ h ↦ h.1
  rintro extent ⟨allocator', objects'⟩ ⟨hnew, slot, hfree, hallocate, rfl⟩
  have hlive := Table.live_put_of_none (Table.freeIndex_eq_some hfree) { object := object, extent := extent }
  obtain ⟨hoccupied, hlayout⟩ := hwell.allocate hnew hallocate
  exact ⟨hoccupied.perm hlive, hlayout, hnew, hlive⟩

theorem ensures_replaceObject (hwell : store.WellFormed) (object : TypedObjectRecord) :
    Ensures (replaceObject object)
      (fun _ store' ↦ store'.WellFormed ∧ store'.allocator = store.allocator ∧
        ∃ record rest, record.object.objectId = object.objectId ∧
          store.objects.live.Perm (record :: rest) ∧
            store'.objects.live.Perm ({ record with object } :: rest))
      (fun _ store' ↦ store' = store ∧ object.objectId ∉ store.ids) store := by
  unfold replaceObject
  rw [ensures_bind, ensures_read]
  cases hlookup : store.lookup object.objectId with
  | none => exact ensures_fail.mpr ⟨rfl, lookup_eq_none_iff.mp hlookup⟩
  | some found =>
    obtain ⟨slot, record⟩ := found
    obtain ⟨hslot, hid⟩ := lookup_eq_some hlookup
    obtain ⟨rest, hold, hnew, -⟩ := Table.live_put_of_some hslot
    have hoccupied := (hwell.perm hold.symm).replace hid.symm
    exact ensures_modify.mpr ⟨hoccupied.perm (hnew _), rfl, record, rest, hid, hold, hnew _⟩

theorem ensures_deleteObject (hwell : store.WellFormed) (objectId : ObjectId) :
    Ensures (deleteObject objectId)
      (fun _ store' ↦ store'.WellFormed ∧ store'.allocator.SameLayout store.allocator ∧
        ∃ record, record.object.objectId = objectId ∧
          store.objects.live.Perm (record :: store'.objects.live))
      (fun _ store' ↦ store' = store ∧ objectId ∉ store.ids) store := by
  unfold deleteObject
  rw [ensures_bind, ensures_read]
  cases hlookup : store.lookup objectId with
  | none => exact ensures_fail.mpr ⟨rfl, lookup_eq_none_iff.mp hlookup⟩
  | some found =>
    obtain ⟨slot, record⟩ := found
    obtain ⟨hslot, hid⟩ := lookup_eq_some hlookup
    obtain ⟨rest, hold, -, hnew⟩ := Table.live_put_of_some hslot
    obtain ⟨allocator', hfree, hoccupied, hlayout⟩ := (hwell.perm hold.symm).free
    simp only [ensures_bind, withAllocator, ensures_within,
      ensures_update, ensures_modify, hfree, Except.map]
    refine ⟨fun value freed heq ↦ ?_, fun error heq ↦ by cases heq⟩
    obtain ⟨-, rfl⟩ := Prod.mk.inj (Except.ok.inj heq)
    exact ⟨hoccupied.perm hnew, hlayout, record, hid, hold.trans (hnew.symm.cons record)⟩

/-! ### Restoring -/

theorem extentBitmap_of_valid {allocator : BlockAllocator} (hwell : allocator.WellFormed)
    {extent : BlockExtent} (hvalid : allocator.validateExtent extent = .ok ()) :
    ∃ bits, extentBitmap extent allocator.blockCount = .ok bits ∧ members bits = extent.blocks := by
  have hbounds := BlockAllocator.validateExtent_eq_ok hvalid
  have hle := hwell.blockCount_le
  unfold maxAllocatorBlocks at hle
  refine ⟨markBlocks 0#64 extent true, ?_, ?_⟩
  · rw [extentBitmap, if_neg (by omega), if_neg (by omega), if_neg (by omega)]
  · have hmark := @members_markBlocks extent 0#64 (by omega) true
    simpa using hmark

/-- The loop accepts records that occupy blocks of the bitmap that were not seen before, and it has then
seen the blocks of all of them. -/
theorem restoreLoop_of_occupied {allocator : BlockAllocator} (hwell : allocator.WellFormed) :
    ∀ (items : List (Option DynamicObjectRecord)) (seenBitmap : BitVec 64) (seenIds : List ObjectId),
      ((items.reduceOption.map fun record ↦ record.object.objectId) ++ seenIds).Nodup →
      (∀ record ∈ items.reduceOption, allocator.validateExtent record.extent = .ok ()) →
      (items.reduceOption.Pairwise fun first second ↦
        Disjoint first.extent.blocks second.extent.blocks) →
      (∀ record ∈ items.reduceOption, Disjoint (members seenBitmap) record.extent.blocks) →
      (∀ record ∈ items.reduceOption, record.extent.blocks ⊆ members allocator.committedBitmap) →
      ∃ seen, restoreLoop allocator.blockCount allocator.committedBitmap items seenBitmap seenIds =
          .ok seen ∧
        ∀ block, block ∈ members seen ↔
          block ∈ members seenBitmap ∨ ∃ record ∈ items.reduceOption, block ∈ record.extent.blocks
  | [], seenBitmap, seenIds, _, _, _, _, _ => ⟨seenBitmap, rfl, fun block ↦ by simp⟩
  | none :: rest, seenBitmap, seenIds, hids, hvalid, hdisjoint, hseen, hsubset =>
    restoreLoop_of_occupied hwell rest seenBitmap seenIds hids hvalid hdisjoint hseen hsubset
  | some record :: rest, seenBitmap, seenIds, hids, hvalid, hdisjoint, hseen, hsubset => by
    rw [List.reduceOption_cons_of_some] at hids hvalid hdisjoint hseen hsubset ⊢
    obtain ⟨bits, hbits, hmembers⟩ := extentBitmap_of_valid hwell (hvalid record List.mem_cons_self)
    obtain ⟨hapart, hrest⟩ := List.pairwise_cons.mp hdisjoint
    -- the record passes the checks of its own extent and identity
    have hunseen : seenBitmap &&& bits = 0#64 := by
      rw [← members_eq_empty_iff, members_and, hmembers]
      exact Finset.disjoint_iff_inter_eq_empty.mp (hseen record List.mem_cons_self)
    have hinside : allocator.committedBitmap &&& bits = bits := by
      apply members_injective
      rw [members_and, hmembers]
      exact Finset.inter_eq_right.mpr (hsubset record List.mem_cons_self)
    rw [List.map_cons, List.cons_append, List.nodup_cons] at hids
    have hnew : record.object.objectId ∉ seenIds := fun hmem ↦
      hids.1 (List.mem_append_right _ hmem)
    -- and the rest is disjoint from it
    have hids' : ((rest.reduceOption.map fun record ↦ record.object.objectId) ++
        record.object.objectId :: seenIds).Nodup := by
      rw [List.nodup_middle]
      exact List.nodup_cons.mpr hids
    obtain ⟨seen, hloop, htaken⟩ := restoreLoop_of_occupied hwell rest (seenBitmap ||| bits)
      (record.object.objectId :: seenIds) hids'
      (fun other hother ↦ hvalid other (List.mem_cons_of_mem _ hother)) hrest
      (fun other hother ↦ by
        rw [members_or, hmembers]
        exact Finset.disjoint_union_left.mpr
          ⟨hseen other (List.mem_cons_of_mem _ hother), hapart other hother⟩)
      (fun other hother ↦ hsubset other (List.mem_cons_of_mem _ hother))
    refine ⟨seen, ?_, fun block ↦ ?_⟩
    · rw [restoreLoop, hbits, ok_bind, if_neg (by simp [hunseen, hinside]), if_neg hnew, hloop]
    · rw [htaken, members_or, Finset.mem_union, hmembers, List.exists_mem_cons_iff, or_assoc]

/-- A well-formed store is restored from its bitmap and its records. -/
theorem restoreFromRecords_of_wellFormed (h : store.WellFormed) :
    restoreFromRecords store.allocator.baseSector store.allocator.blockCount store.allocatorBitmap
      store.objects = .ok store := by
  have hcommitted := h.wellFormed.committed_eq
  obtain ⟨seen, hloop, htaken⟩ := restoreLoop_of_occupied h.wellFormed store.objects.toList 0#64 []
    (by simpa [Table.live] using h.distinct) h.valid h.disjoint (by simp) fun record hrecord block hblock ↦ by
      rw [hcommitted]
      exact (h.taken block).mpr ⟨record, hrecord, hblock⟩
  have hseen : seen = store.allocator.committedBitmap := by
    apply members_injective
    ext block
    rw [htaken, hcommitted, h.taken]
    simp [Table.live]
  rw [restoreFromRecords, allocatorBitmap,
    BlockAllocator.restoreFromBitmap_of_wellFormed h.wellFormed]
  simp only [hloop, ok_bind]
  rw [if_neg (not_not.mpr hseen)]

end DynamicObjectStore

end Pythos.Core
