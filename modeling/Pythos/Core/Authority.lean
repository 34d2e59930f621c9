import Pythos.Foundation.Stateful
import Pythos.Foundation.Table
import Pythos.Shared.Abi

/-!
# Services, capabilities and quotas

The kernel names a service by an identifier that it never issues twice, grants it capabilities in a
table of thirty-two entries, and bounds the storage blocks that it may take. The tables of the source
keep inactive records as empty records; here a free slot is `none`.
-/

namespace Pythos.Core

open Foundation Shared Stateful

/-! ### Service identities -/

structure ServiceId where
  raw : UInt64
  deriving DecidableEq, Repr, Inhabited

def ServiceId.invalid : ServiceId := ⟨0⟩

inductive ServiceIdentityError
  | tableFull
  | unknownService
  | exhaustedIds
  | staleIdentityStillActive
  | reusedIdentity
  deriving DecidableEq, Repr

def maxServices : ℕ := 8

structure ServiceRecord where
  serviceId : ServiceId
  taskId : UInt64
  deriving DecidableEq, Repr

structure ServiceIdentityTable where
  records : Table ServiceRecord maxServices
  nextId : UInt64
  deriving DecidableEq

namespace ServiceIdentityTable

def new : ServiceIdentityTable where
  records := Table.empty
  nextId := 1

def registerTask (taskId : UInt64) :
    Stateful ServiceIdentityError ServiceIdentityTable ServiceId := do
  let table ← Stateful.read
  match table.records.freeIndex with
  | none => fail .tableFull
  | some slot =>
    if table.nextId.toNat + 1 < 2 ^ 64 then
      Stateful.modify fun table ↦
        { records := table.records.put slot (some ⟨⟨table.nextId⟩, taskId⟩)
          nextId := table.nextId + 1 }
      pure ⟨table.nextId⟩
    else fail .exhaustedIds

end ServiceIdentityTable

/-! ### Capabilities -/

inductive CapabilityError
  | tableFull
  | invalidHandle
  | revoked
  | wrongHolder
  | wrongResource
  | missingRights
  deriving DecidableEq, Repr

structure CapabilityHandle where
  slot : UInt32
  generation : UInt32
  deriving DecidableEq, Repr

inductive CapabilityGrant
  | created (handle : CapabilityHandle)
  | existing (handle : CapabilityHandle)
  deriving DecidableEq, Repr

def CapabilityGrant.handle : CapabilityGrant → CapabilityHandle
  | .created handle => handle
  | .existing handle => handle

structure ResourceId where
  raw : UInt64
  deriving DecidableEq, Repr

structure RightsMask where
  bits : UInt32
  deriving DecidableEq, Repr

namespace RightsMask

def read : RightsMask := ⟨1⟩
def write : RightsMask := ⟨2⟩
def readWrite : RightsMask := ⟨1 ||| 2⟩

def contains (rights required : RightsMask) : Bool :=
  rights.bits &&& required.bits = required.bits

end RightsMask

inductive CapabilityState
  | active
  | revoked
  deriving DecidableEq, Repr

structure CapabilityEntry where
  holder : ServiceId
  resource : ResourceId
  rights : RightsMask
  generation : UInt32
  state : CapabilityState
  deriving DecidableEq, Repr

def capabilityTableSlots : ℕ := 32

structure CapabilityTable where
  entries : Table CapabilityEntry capabilityTableSlots
  deriving DecidableEq

namespace CapabilityTable

def new : CapabilityTable where
  entries := Table.empty

def clear (_table : CapabilityTable) : CapabilityTable := new

/-- The test of the search for an entry that already grants this. -/
def grants (holder : ServiceId) (resource : ResourceId) (rights : RightsMask)
    (entry : CapabilityEntry) : Bool :=
  entry.state = .active ∧ entry.holder = holder ∧ entry.resource = resource ∧ entry.rights = rights

def grantWithProvenance (holder : ServiceId) (resource : ResourceId) (rights : RightsMask) :
    Stateful CapabilityError CapabilityTable CapabilityGrant := do
  let table ← Stateful.read
  match table.entries.lookup (grants holder resource rights) with
  | some (slot, entry) => pure (.existing ⟨UInt32.ofNat slot, entry.generation⟩)
  | none =>
    match table.entries.freeIndex with
    | none => fail .tableFull
    | some slot =>
      Stateful.modify fun table ↦
        { entries := table.entries.put slot
            (some { holder, resource, rights, generation := 1, state := .active }) }
      pure (.created ⟨UInt32.ofNat slot, 1⟩)

def grant (holder : ServiceId) (resource : ResourceId) (rights : RightsMask) :
    Stateful CapabilityError CapabilityTable CapabilityHandle := do
  let granted ← grantWithProvenance holder resource rights
  pure granted.handle

/-- `entries.get(handle.slot)`. -/
def entryAt (table : CapabilityTable) (slot : UInt32) : Option CapabilityEntry :=
  if h : slot.toNat < capabilityTableSlots then table.entries[slot.toNat] else none

def validate (table : CapabilityTable) (caller : ServiceId) (handle : CapabilityHandle)
    (resource : ResourceId) (required : RightsMask) : Except CapabilityError Unit :=
  match table.entryAt handle.slot with
  | none => .error .invalidHandle
  | some entry =>
    if entry.generation ≠ handle.generation then .error .invalidHandle
    else if entry.state ≠ .active then .error .revoked
    else if entry.holder ≠ caller then .error .wrongHolder
    else if entry.resource ≠ resource then .error .wrongResource
    else if ¬ entry.rights.contains required then .error .missingRights
    else .ok ()

def revoke (handle : CapabilityHandle) : Stateful CapabilityError CapabilityTable Unit := do
  let table ← Stateful.read
  if h : handle.slot.toNat < capabilityTableSlots then
    match table.entries[handle.slot.toNat] with
    | none => fail .invalidHandle
    | some entry =>
      if entry.generation ≠ handle.generation then fail .invalidHandle
      else
        Stateful.modify fun table ↦
          { entries := table.entries.put ⟨handle.slot.toNat, h⟩
              (some { entry with state := .revoked, generation := entry.generation + 1 }) }
  else fail .invalidHandle

/-! ### What a grant does -/

variable {table table' : CapabilityTable} {holder : ServiceId} {resource : ResourceId}
  {rights : RightsMask}

/-- A capability is valid when its entry is active and gives the caller the rights on the resource. -/
theorem validate_eq_ok_iff {handle : CapabilityHandle} {required : RightsMask} :
    table.validate holder handle resource required = .ok () ↔
      ∃ entry, table.entryAt handle.slot = some entry ∧ entry.generation = handle.generation ∧
        entry.state = .active ∧ entry.holder = holder ∧ entry.resource = resource ∧
          entry.rights.contains required = true := by
  unfold validate
  cases table.entryAt handle.slot with
  | none => simp
  | some entry =>
    simp only [Option.some.injEq, exists_eq_left']
    split_ifs <;> simp_all

theorem entryAt_eq_some {slot : UInt32} {entry : CapabilityEntry}
    (h : table.entryAt slot = some entry) :
    ∃ hlt : slot.toNat < capabilityTableSlots, table.entries[slot.toNat] = some entry := by
  unfold entryAt at h
  split_ifs at h with hlt
  exact ⟨hlt, h⟩

theorem entryAt_new (slot : UInt32) : new.entryAt slot = none := by
  unfold entryAt
  split_ifs with hlt
  · exact Table.getElem_empty ⟨slot.toNat, hlt⟩
  · rfl

theorem toNat_ofSlot (slot : Fin capabilityTableSlots) : (UInt32.ofNat slot).toNat = slot := by
  have hlt : slot.val < 32 := slot.isLt
  exact UInt32.toNat_ofNat_of_lt' (hlt.trans (by decide))

theorem entryAt_ofSlot (slot : Fin capabilityTableSlots) :
    table.entryAt (UInt32.ofNat slot) = table.entries[slot] := by
  simp only [entryAt, toNat_ofSlot, slot.isLt, dif_pos]
  rfl

/-- The entry that a grant finds or makes. -/
def activeEntry (holder : ServiceId) (resource : ResourceId) (rights : RightsMask)
    (generation : UInt32) : CapabilityEntry :=
  { holder, resource, rights, generation, state := .active }

/-- A grant leaves its entry under the handle, keeps the others and adds no other one. -/
structure Granted (table : CapabilityTable) (holder : ServiceId) (resource : ResourceId)
    (rights : RightsMask) (handle : CapabilityHandle) (table' : CapabilityTable) : Prop where
  held : table'.entryAt handle.slot = some (activeEntry holder resource rights handle.generation)
  kept : ∀ slot entry, table.entryAt slot = some entry → table'.entryAt slot = some entry
  added : ∀ slot entry, table'.entryAt slot = some entry →
    table.entryAt slot = some entry ∨ slot = handle.slot
  length_le : table'.entries.live.length ≤ table.entries.live.length +
    if table.entries.live.any (grants holder resource rights) then 0 else 1

theorem granted_existing {slot : Fin capabilityTableSlots} {entry : CapabilityEntry}
    (h : table.entries.lookup (grants holder resource rights) = some (slot, entry)) :
    Granted table holder resource rights ⟨UInt32.ofNat slot, entry.generation⟩ table := by
  obtain ⟨hslot, htest⟩ := Table.lookup_eq_some h
  obtain ⟨hstate, rfl, rfl, rfl⟩ := of_decide_eq_true htest
  refine ⟨?_, fun _ _ hold ↦ hold, fun _ _ hold ↦ Or.inl hold, Nat.le_add_right _ _⟩
  rw [entryAt_ofSlot, hslot, activeEntry, ← hstate]

theorem entryAt_put (table : CapabilityTable) (slot : Fin capabilityTableSlots) (entry : Option CapabilityEntry)
    (other : UInt32) : entryAt ⟨table.entries.put slot entry⟩ other =
      if other = UInt32.ofNat slot then entry else table.entryAt other := by
  split_ifs with heq
  · rw [heq, entryAt_ofSlot]
    exact Table.getElem_put_self _ _ _
  · simp only [entryAt]
    split_ifs with hlt
    · have hslot : (⟨other.toNat, hlt⟩ : Fin capabilityTableSlots) ≠ slot := fun hsame ↦
        heq (UInt32.toNat_inj.mp ((congrArg Fin.val hsame).trans (toNat_ofSlot slot).symm))
      exact table.entries.getElem_put_ne entry hslot
    · rfl

theorem granted_created {slot : Fin capabilityTableSlots}
    (hnew : table.entries.lookup (grants holder resource rights) = none)
    (hfree : table.entries.freeIndex = some slot) :
    Granted table holder resource rights ⟨UInt32.ofNat slot, 1⟩
      ⟨table.entries.put slot (some (activeEntry holder resource rights 1))⟩ := by
  have hnone := Table.freeIndex_eq_some hfree
  refine ⟨by rw [entryAt_put, if_pos rfl], fun other entry hold ↦ ?_, fun other entry hheld ↦ ?_, ?_⟩
  · rw [entryAt_put, if_neg]
    · exact hold
    · rintro rfl
      rw [entryAt_ofSlot, hnone] at hold
      cases hold
  · rw [entryAt_put] at hheld
    split_ifs at hheld with hother
    · exact Or.inr hother
    · exact Or.inl hheld
  · have hlength := (Table.live_put_of_none hnone (activeEntry holder resource rights 1)).length_eq
    have hlacking : table.entries.live.any (grants holder resource rights) = false :=
      List.any_eq_false.mpr fun entry hentry ↦ by
        simp [Table.lookup_eq_none_iff.mp hnew entry hentry]
    rw [hlacking]
    exact hlength.le

/-- A grant fails in a full table without such an entry, and then changes nothing. -/
theorem ensures_grant (table : CapabilityTable) (holder : ServiceId) (resource : ResourceId)
    (rights : RightsMask) :
    Ensures (grant holder resource rights)
      (fun handle table' ↦ Granted table holder resource rights handle table')
      (fun _ table' ↦ table' = table ∧ capabilityTableSlots ≤ table.entries.live.length ∧
        table.entries.live.any (grants holder resource rights) = false) table := by
  simp only [grant, grantWithProvenance, ensures_bind, ensures_read]
  cases hfound : table.entries.lookup (grants holder resource rights) with
  | some found =>
    obtain ⟨slot, entry⟩ := found
    exact granted_existing hfound
  | none =>
    cases hfree : table.entries.freeIndex with
    | none =>
      refine ⟨rfl, ?_, List.any_eq_false.mpr fun entry hentry ↦ by
        simp [Table.lookup_eq_none_iff.mp hfound entry hentry]⟩
      have hinsert : table.entries.insert (activeEntry holder resource rights 1) = none := by
        rw [Table.insert, hfree]
        rfl
      exact Table.le_length_live_of_insert_eq_none hinsert
    | some slot => exact granted_created hfound hfree

/-! ### Histories of the table -/

inductive Call
  | grant (holder : ServiceId) (resource : ResourceId) (rights : RightsMask)
  | grantWithProvenance (holder : ServiceId) (resource : ResourceId) (rights : RightsMask)
  | revoke (handle : CapabilityHandle)
  | clear

/-- What a call that succeeds does. -/
inductive Event
  | granted (holder : ServiceId) (resource : ResourceId) (rights : RightsMask) (handle : CapabilityHandle)
  | revoked (handle : CapabilityHandle)
  | cleared

def Call.perform : Call → Stateful CapabilityError CapabilityTable Event
  | .grant holder resource rights => do
    let handle ← CapabilityTable.grant holder resource rights
    pure (.granted holder resource rights handle)
  | .grantWithProvenance holder resource rights => do
    let granted ← CapabilityTable.grantWithProvenance holder resource rights
    pure (.granted holder resource rights granted.handle)
  | .revoke handle => do
    CapabilityTable.revoke handle
    pure (.revoked handle)
  | .clear => do
    Stateful.modify CapabilityTable.clear
    pure .cleared

/-- The events of calls on a new table, the latest first, and the table. -/
def history (calls : List Call) : List Event × CapabilityTable :=
  calls.foldl (fun state call ↦ match call.perform state.2 with
    | (.ok event, table) => (event :: state.1, table)
    | (.error _, table) => (state.1, table)) ([], new)

/-- A grant returned the handle, and since then the handle was not revoked nor the table cleared. -/
def Held (holder : ServiceId) (resource : ResourceId) (rights : RightsMask) (handle : CapabilityHandle) :
    List Event → Prop
  | [] => False
  | event :: earlier => event = .granted holder resource rights handle ∨
    event ≠ .revoked handle ∧ event ≠ .cleared ∧ Held holder resource rights handle earlier

/-- The active entries are those of the handles that are held. -/
def Describes (events : List Event) (table : CapabilityTable) : Prop :=
  ∀ holder resource rights (handle : CapabilityHandle),
    table.entryAt handle.slot = some (activeEntry holder resource rights handle.generation) ↔
      Held holder resource rights handle events

variable {events : List Event} {handle : CapabilityHandle}

theorem Describes.grant (h : Describes events table)
    (hgranted : Granted table holder resource rights handle table') :
    Describes (.granted holder resource rights handle :: events) table' := by
  rintro holder' resource' rights' ⟨slot, generation⟩
  constructor
  · intro hentry
    rcases hgranted.added _ _ hentry with hold | rfl
    · exact Or.inr ⟨nofun, nofun, (h _ _ _ _).mp hold⟩
    · cases hentry.symm.trans hgranted.held
      exact Or.inl rfl
  · rintro (⟨⟨⟩⟩ | ⟨-, -, hheld⟩)
    · exact hgranted.held
    · exact hgranted.kept _ _ ((h _ _ _ _).mpr hheld)

theorem Describes.revoke (h : Describes events table) (slot : Fin capabilityTableSlots) {entry : CapabilityEntry}
    (hentry : table.entries[slot] = some entry) (generation : UInt32) :
    Describes (.revoked ⟨UInt32.ofNat slot, entry.generation⟩ :: events)
      ⟨table.entries.put slot (some { entry with state := .revoked, generation })⟩ := by
  rintro holder resource rights ⟨other, generation'⟩
  rw [Held, entryAt_put, ← h]
  split_ifs with hslot
  · obtain rfl : other = _ := hslot
    simp only [entryAt_ofSlot, hentry, activeEntry, Option.some.injEq]
    refine ⟨nofun, ?_⟩
    rintro (⟨⟨⟩⟩ | ⟨hne, -, rfl⟩)
    exact absurd rfl hne
  · refine ⟨fun hold ↦ Or.inr ⟨?_, nofun, hold⟩, fun hold ↦ (hold.resolve_left nofun).2.2⟩
    rintro ⟨⟩
    exact hslot rfl

theorem Describes.perform (h : Describes events table) (call : Call) :
    Ensures call.perform (fun event table' ↦ Describes (event :: events) table') (fun _ table' ↦ table' = table)
      table := by
  cases call with
  | grant holder resource rights =>
    rw [Call.perform, ensures_bind]
    exact (ensures_grant table holder resource rights).mono (fun _ _ ↦ h.grant) fun _ _ hfailed ↦ hfailed.1
  | grantWithProvenance holder resource rights =>
    have hgrant := ensures_grant table holder resource rights
    rw [CapabilityTable.grant, ensures_bind] at hgrant
    rw [Call.perform, ensures_bind]
    exact hgrant.mono (fun _ _ ↦ h.grant) fun _ _ hfailed ↦ hfailed.1
  | revoke handle =>
    simp only [Call.perform, CapabilityTable.revoke, ensures_bind, ensures_read]
    split_ifs with hlt
    · cases hentry : table.entries[handle.slot.toNat] with
      | none => rfl
      | some entry =>
        refine ensures_ite.mpr ⟨fun _ ↦ rfl, fun hsame ↦ ?_⟩
        obtain ⟨slot, generation⟩ := handle
        obtain rfl : entry.generation = generation := not_not.mp hsame
        have hrevoked := h.revoke ⟨slot.toNat, hlt⟩ hentry (entry.generation + 1)
        rwa [UInt32.ofNat_toNat] at hrevoked
    · rfl
  | clear =>
    intro holder resource rights handle
    simp [Held, clear, entryAt_new]

theorem describes_history (calls : List Call) : Describes (history calls).1 (history calls).2 := by
  refine List.foldlRecOn calls _ (b := ([], new)) (motive := fun state ↦ Describes state.1 state.2) ?_ ?_
  · intro holder resource rights handle
    simp [Held, entryAt_new]
  · intro state h call _
    have hperform := h.perform call
    unfold Ensures at hperform
    split at hperform
    · next hresult => rwa [hresult]
    · next hresult =>
      rw [hresult, hperform]
      exact h

/-- After any calls a capability is valid exactly if it is held for the resource with the rights, and a
handle is held for one holder, one resource and one mask of rights. -/
theorem validate_history (calls : List Call) :
    (∀ caller handle resource required,
      (history calls).2.validate caller handle resource required = .ok () ↔
        ∃ rights : RightsMask, rights.contains required = true ∧
          Held caller resource rights handle (history calls).1) ∧
    ∀ handle holder resource rights holder' resource' rights',
      Held holder resource rights handle (history calls).1 →
      Held holder' resource' rights' handle (history calls).1 →
        holder = holder' ∧ resource = resource' ∧ rights = rights' := by
  have h := describes_history calls
  refine ⟨fun caller handle resource required ↦ ?_, fun handle _ _ _ _ _ _ hfirst hsecond ↦ ?_⟩
  · rw [validate_eq_ok_iff]
    constructor
    · rintro ⟨⟨_, _, rights, _, _⟩, hentry, ⟨⟩, ⟨⟩, ⟨⟩, ⟨⟩, hrights⟩
      exact ⟨rights, hrights, (h _ _ _ _).mp hentry⟩
    · rintro ⟨rights, hrights, hheld⟩
      exact ⟨_, (h _ _ _ _).mpr hheld, rfl, rfl, rfl, rfl, hrights⟩
  · cases ((h _ _ _ _).mpr hfirst).symm.trans ((h _ _ _ _).mpr hsecond)
    exact ⟨rfl, rfl, rfl⟩

end CapabilityTable

/-! ### Storage quotas -/

inductive StorageQuotaError
  | tableFull
  | duplicateService
  | unknownService
  | storageQuotaExceeded
  | counterOverflow
  | identity (error : ServiceIdentityError)
  deriving DecidableEq, Repr

def maxStorageQuotas : ℕ := 4

structure StorageQuotaRecord where
  serviceId : ServiceId
  maxBlocks : UInt64
  usedBlocks : UInt64
  deriving DecidableEq, Repr

structure StorageQuotaTable where
  records : Table StorageQuotaRecord maxStorageQuotas
  deriving DecidableEq

namespace StorageQuotaTable

def new : StorageQuotaTable where
  records := Table.empty

/-- The first record of a service. -/
def find (table : StorageQuotaTable) (serviceId : ServiceId) :
    Option (Fin maxStorageQuotas × StorageQuotaRecord) :=
  table.records.lookup fun record ↦ record.serviceId = serviceId

def put (table : StorageQuotaTable) (slot : Fin maxStorageQuotas) (record : StorageQuotaRecord) :
    StorageQuotaTable where
  records := table.records.put slot (some record)

def register (serviceId : ServiceId) (maxBlocks : UInt64) :
    Stateful StorageQuotaError StorageQuotaTable Unit := do
  let table ← Stateful.read
  if (table.find serviceId).isSome then
    fail .duplicateService
  else
    match table.records.freeIndex with
    | none => fail .tableFull
    | some slot => Stateful.modify fun table ↦ table.put slot ⟨serviceId, maxBlocks, 0⟩

def chargeBlocks (serviceId : ServiceId) (blocks : UInt64) :
    Stateful StorageQuotaError StorageQuotaTable Unit := do
  let table ← Stateful.read
  match table.find serviceId with
  | none => fail .unknownService
  | some (slot, record) =>
    if ¬ record.usedBlocks.toNat + blocks.toNat < 2 ^ 64 then fail .counterOverflow
    else if record.usedBlocks + blocks > record.maxBlocks then fail .storageQuotaExceeded
    else
      Stateful.modify fun table ↦
        table.put slot { record with usedBlocks := record.usedBlocks + blocks }

def ensureMinimumLimit (serviceId : ServiceId) (minBlocks : UInt64) :
    Stateful StorageQuotaError StorageQuotaTable Unit := do
  let table ← Stateful.read
  match table.find serviceId with
  | none => fail .unknownService
  | some (slot, record) =>
    if record.maxBlocks < minBlocks then
      Stateful.modify fun table ↦ table.put slot { record with maxBlocks := minBlocks }
    else pure ()

def releaseBlocks (serviceId : ServiceId) (blocks : UInt64) :
    Stateful StorageQuotaError StorageQuotaTable Unit := do
  let table ← Stateful.read
  match table.find serviceId with
  | none => fail .unknownService
  | some (slot, record) =>
    if record.usedBlocks < blocks then fail .counterOverflow
    else
      Stateful.modify fun table ↦
        table.put slot { record with usedBlocks := record.usedBlocks - blocks }

def usedBlocks (table : StorageQuotaTable) (serviceId : ServiceId) :
    Except StorageQuotaError UInt64 :=
  match table.find serviceId with
  | none => .error .unknownService
  | some (_, record) => .ok record.usedBlocks

end StorageQuotaTable

end Pythos.Core
