import Mathlib.Data.List.ReduceOption
import Mathlib.Data.List.FinRange
import Mathlib.Data.List.Perm.Basic
import Mathlib.Data.Fintype.Basic

/-!
# Tables of fixed capacity

An array of optional entries that is searched from its first slot on. What a table holds is the list of
its live entries, and facts about it are stated up to the order of that list: an insertion adds an entry,
a replacement exchanges one, and a removal takes one away.
-/

namespace Pythos.Foundation

/-- An array of `n` optional entries. -/
abbrev Table (α : Type) (n : ℕ) := Vector (Option α) n

namespace Table

variable {α β : Type} {n : ℕ}

/-- The table without entries. -/
def empty : Table α n := Vector.replicate n none

/-- The entries of a table in the order of their slots. -/
def live (table : Table α n) : List α := table.toList.reduceOption

/-- The table with the entries of a list in its slots. -/
def ofList (slots : List (Option α)) : Table α n := Vector.ofFn fun slot ↦ slots[slot.val]?.join

/-- The first slot whose entry satisfies a test. -/
def findIndex (table : Table α n) (test : α → Bool) : Option (Fin n) :=
  (List.finRange n).find? fun slot ↦ table[slot].any test

/-- The first slot without an entry. -/
def freeIndex (table : Table α n) : Option (Fin n) :=
  (List.finRange n).find? fun slot ↦ table[slot].isNone

/-- The first entry that satisfies a test, with its slot. -/
def lookup (table : Table α n) (test : α → Bool) : Option (Fin n × α) := do
  let slot ← table.findIndex test
  let entry ← table[slot]
  pure (slot, entry)

/-- The table with a slot overwritten. -/
def put (table : Table α n) (slot : Fin n) (entry : Option α) : Table α n :=
  table.set slot entry

/-- The table with an entry in its first free slot. -/
def insert (table : Table α n) (entry : α) : Option (Table α n) :=
  table.freeIndex.map fun slot ↦ table.put slot (some entry)

/-! ### Slots -/

@[simp] theorem getElem_put_self (table : Table α n) (slot : Fin n) (entry : Option α) :
    (table.put slot entry)[slot] = entry := by
  simp [put]

variable {slot : Fin n} {table : Table α n} {entry : α} {test : α → Bool}

theorem getElem_put_ne (table : Table α n) {other : Fin n} (entry : Option α) (h : other ≠ slot) :
    (table.put slot entry)[other] = table[other] := by
  have hne : slot.val ≠ other.val := fun heq ↦ h (Fin.ext heq.symm)
  simp [put, hne]

theorem put_getElem (table : Table α n) (slot : Fin n) : table.put slot table[slot] = table := by
  ext index hindex : 1
  by_cases h : slot.val = index
  · subst h
    simp [put]
  · simp [put]

@[simp] theorem put_put (table : Table α n) (slot : Fin n) (first second : Option α) :
    (table.put slot first).put slot second = table.put slot second := by
  ext index hindex : 1
  by_cases h : slot.val = index
  · subst h
    simp [put]
  · simp [put, h]

@[simp] theorem getElem_empty (slot : Fin n) : (empty : Table α n)[slot] = none := by
  simp [empty]

theorem mem_live_iff : entry ∈ table.live ↔ ∃ slot : Fin n, table[slot] = some entry := by
  rw [live, List.reduceOption_mem_iff, List.mem_iff_getElem]
  constructor
  · rintro ⟨index, hindex, heq⟩
    have hlt : index < n := by simpa using hindex
    exact ⟨⟨index, hlt⟩, by simpa using heq⟩
  · rintro ⟨slot, heq⟩
    exact ⟨slot.val, by simp, by simpa using heq⟩

@[simp] theorem live_empty : (empty : Table α n).live = [] := by
  refine List.eq_nil_iff_forall_not_mem.mpr fun entry hentry ↦ ?_
  obtain ⟨slot, hslot⟩ := mem_live_iff.mp hentry
  rw [getElem_empty] at hslot
  cases hslot

theorem findIndex_eq_some (h : table.findIndex test = some slot) :
    ∃ entry, table[slot] = some entry ∧ test entry := by
  have htest := List.find?_some h
  change table[slot].any test = true at htest
  cases hslot : table[slot] with
  | none => simp [hslot] at htest
  | some entry => exact ⟨entry, rfl, by simpa [hslot] using htest⟩

theorem findIndex_eq_none_iff :
    table.findIndex test = none ↔ ∀ entry ∈ table.live, test entry = false := by
  rw [findIndex, List.find?_eq_none]
  constructor
  · intro h entry hentry
    obtain ⟨slot, hslot⟩ := mem_live_iff.mp hentry
    have hnot := h slot (List.mem_finRange slot)
    simpa [hslot] using hnot
  · intro h slot _
    cases hslot : table[slot] with
    | none => simp
    | some entry => simpa using h entry (mem_live_iff.mpr ⟨slot, hslot⟩)

theorem lookup_eq_some (h : table.lookup test = some (slot, entry)) :
    table[slot] = some entry ∧ test entry := by
  obtain ⟨found, hfound, h⟩ := Option.bind_eq_some_iff.mp h
  obtain ⟨held, hheld, h⟩ := Option.bind_eq_some_iff.mp h
  obtain ⟨rfl, rfl⟩ := Prod.mk.inj (Option.some.inj h)
  obtain ⟨entry, hentry, htest⟩ := findIndex_eq_some hfound
  obtain rfl := Option.some.inj (hheld.symm.trans hentry)
  exact ⟨hheld, htest⟩

theorem lookup_eq_none_iff :
    table.lookup test = none ↔ ∀ entry ∈ table.live, test entry = false := by
  rw [← findIndex_eq_none_iff]
  constructor
  · intro h
    cases hfound : table.findIndex test with
    | none => rfl
    | some slot =>
      obtain ⟨entry, hentry, -⟩ := findIndex_eq_some hfound
      have hlookup : table.lookup test = some (slot, entry) := by
        rw [lookup, hfound, Option.bind_eq_bind, Option.bind_some, hentry]
        rfl
      rw [hlookup] at h
      cases h
  · intro h
    rw [lookup, h]
    rfl

theorem freeIndex_eq_some (h : table.freeIndex = some slot) : table[slot] = none := by
  have htest := List.find?_some h
  simpa using htest

@[simp] theorem ofList_toList (table : Table α n) : ofList table.toList = table := by
  ext index hindex : 1
  simp [ofList]

/-- A table holds the entries that are put in its first slots. -/
theorem live_ofList {entries : List α} (h : entries.length ≤ n) :
    live (ofList (entries.map some) : Table α n) = entries := by
  have hslots : (ofList (entries.map some) : Table α n).toList =
      entries.map some ++ List.replicate (n - entries.length) none := by
    refine List.ext_getElem (by simp [Nat.add_sub_cancel' h]) fun index hleft hright ↦ ?_
    by_cases hlt : index < entries.length
    · simp [ofList, hlt]
    · rw [List.getElem_append_right (by simpa using hlt)]
      simp [ofList, hlt]
  rw [live, hslots, List.reduceOption_append]
  simp [List.reduceOption]

theorem live_map (table : Table α n) (f : α → β) :
    live (table.map (Option.map f)) = table.live.map f := by
  rw [live, live, Vector.toList_map, List.reduceOption_map]

theorem live_bind (table : Table α n) (f : α → Option β) :
    live (table.map fun slot ↦ slot.bind f) = table.live.filterMap f := by
  rw [live, live, Vector.toList_map, List.reduceOption, List.reduceOption, List.filterMap_map,
    List.filterMap_filterMap]
  exact List.filterMap_congr fun slot _ ↦ by cases slot <;> rfl

theorem live_eq_filterMap (table : Table α n) :
    table.live = (List.finRange n).filterMap fun slot ↦ table[slot] := by
  have hslots : table.toList = (List.finRange n).map fun slot ↦ table[slot] :=
    List.ext_getElem (by simp) fun index hleft hright ↦ by simp
  rw [live, hslots, List.reduceOption, List.filterMap_map]
  rfl

/-- The entry that a search finds is the first live entry with the property. -/
theorem lookup_map_snd (table : Table α n) (test : α → Bool) :
    (table.lookup test).map Prod.snd = table.live.find? test := by
  rw [live_eq_filterMap, List.find?_filterMap, lookup, findIndex]
  cases (List.finRange n).find? fun slot ↦ table[slot].any test with
  | none => rfl
  | some slot =>
    cases hslot : table[slot] with
    | none => simp
    | some entry => simp

/-- The slot that a search found is found again when an entry with the property takes it. -/
theorem lookup_put_of_some {old new : α} (h : table.lookup test = some (slot, old))
    (htest : test new = true) : (table.put slot (some new)).lookup test = some (slot, new) := by
  obtain ⟨found, hfound, h⟩ := Option.bind_eq_some_iff.mp h
  obtain ⟨held, hheld, h⟩ := Option.bind_eq_some_iff.mp h
  obtain ⟨rfl, rfl⟩ := Prod.mk.inj (Option.some.inj h)
  obtain ⟨entry, hentry, hold⟩ := findIndex_eq_some hfound
  have hsame : ∀ other : Fin n,
      (table.put found (some new))[other].any test = table[other].any test := by
    intro other
    by_cases hother : other = found
    · subst hother
      rw [getElem_put_self, hentry, Option.any_some, Option.any_some, htest, hold]
    · rw [getElem_put_ne table _ hother]
  have hagain : (table.put found (some new)).findIndex test = some found := by
    unfold findIndex
    simp only [hsame]
    exact hfound
  rw [lookup, hagain, Option.bind_eq_bind, Option.bind_some, getElem_put_self]
  rfl

/-- An entry with a property that no other one has is found. -/
theorem lookup_put_of_none (slot : Fin n) {new : α} (h : table.lookup test = none)
    (htest : test new = true) : (table.put slot (some new)).lookup test = some (slot, new) := by
  have hnone := lookup_eq_none_iff.mp h
  cases hlookup : (table.put slot (some new)).lookup test with
  | none =>
    have hentry : new ∈ (table.put slot (some new)).live :=
      mem_live_iff.mpr ⟨slot, getElem_put_self table slot (some new)⟩
    rw [lookup_eq_none_iff.mp hlookup new hentry] at htest
    cases htest
  | some found =>
    obtain ⟨other, entry⟩ := found
    obtain ⟨hentry, hfound⟩ := lookup_eq_some hlookup
    by_cases hother : other = slot
    · subst hother
      rw [getElem_put_self] at hentry
      rw [Option.some.inj hentry]
    · rw [getElem_put_ne table _ hother] at hentry
      rw [hnone entry (mem_live_iff.mpr ⟨other, hentry⟩)] at hfound
      cases hfound

/-! ### Live entries under updates -/

/-- A slot contributes its entry to the live entries, between those of the slots before and behind it. -/
theorem exists_sides (table : Table α n) (slot : Fin n) :
    ∃ left right, ∀ entry, (table.put slot entry).live = left ++ (entry.toList ++ right) := by
  refine ⟨(table.toList.take slot).reduceOption, (table.toList.drop (slot + 1)).reduceOption,
    fun entry ↦ ?_⟩
  have hlength : slot.val < table.toList.length := by simp
  have hsplit : (table.put slot entry).toList =
      table.toList.take slot ++ entry :: table.toList.drop (slot + 1) := by
    rw [put, Vector.toList_set, List.set_eq_take_append_cons_drop, if_pos hlength]
  rw [live, hsplit, List.reduceOption_append]
  cases entry with
  | none => simp
  | some value => simp

/-- A slot contributes its entry to the live entries, and the other slots the rest. -/
theorem exists_rest (table : Table α n) (slot : Fin n) :
    ∃ rest, ∀ entry, (table.put slot entry).live.Perm (entry.toList ++ rest) := by
  obtain ⟨left, right, h⟩ := table.exists_sides slot
  exact ⟨left ++ right, fun entry ↦ h entry ▸ List.perm_append_comm_assoc _ _ _⟩

/-- The live entries around a slot, as they are and with the slot overwritten. -/
theorem exists_live_put (table : Table α n) (slot : Fin n) (entry : α) :
    ∃ left right, table.live = left ++ (table[slot].toList ++ right) ∧
      (table.put slot (some entry)).live = left ++ entry :: right := by
  obtain ⟨left, right, h⟩ := table.exists_sides slot
  refine ⟨left, right, ?_, h (some entry)⟩
  rw [← h table[slot], put_getElem]

theorem live_put_of_none (h : table[slot] = none) (entry : α) :
    (table.put slot (some entry)).live.Perm (entry :: table.live) := by
  obtain ⟨rest, hrest⟩ := table.exists_rest slot
  have hold : table.live.Perm rest := by
    have hperm := hrest table[slot]
    rwa [put_getElem, h] at hperm
  exact (hrest (some entry)).trans (hold.symm.cons entry)

/-- Replacing or removing an entry keeps the rest. -/
theorem live_put_of_some {old : α} (h : table[slot] = some old) :
    ∃ rest, table.live.Perm (old :: rest) ∧
      (∀ new, (table.put slot (some new)).live.Perm (new :: rest)) ∧
        (table.put slot none).live.Perm rest := by
  obtain ⟨rest, hrest⟩ := table.exists_rest slot
  have hold : table.live.Perm (old :: rest) := by
    have hperm := hrest table[slot]
    rwa [put_getElem, h] at hperm
  exact ⟨rest, hold, fun new ↦ hrest (some new), hrest none⟩

theorem live_insert {table' : Table α n} (h : table.insert entry = some table') :
    table'.live.Perm (entry :: table.live) := by
  obtain ⟨slot, hslot, rfl⟩ := Option.map_eq_some_iff.mp h
  exact live_put_of_none (freeIndex_eq_some hslot) entry

/-! ### Capacity -/

theorem length_live_le (table : Table α n) : table.live.length ≤ n := by
  have hlength := List.reduceOption_length_le table.toList
  rwa [Vector.length_toList] at hlength

/-- No slot is free exactly when there are as many entries as slots. -/
theorem freeIndex_eq_none_iff : table.freeIndex = none ↔ n ≤ table.live.length := by
  have hfull : table.live.length = n ↔ ∀ value ∈ table.toList, value.isSome = true := by
    rw [live, ← List.reduceOption_length_eq_iff, Vector.length_toList]
  rw [(length_live_le table).ge_iff_eq, hfull, freeIndex, List.find?_eq_none]
  constructor
  · intro hnone value hvalue
    obtain ⟨slot, hslot, rfl⟩ := Vector.mem_iff_getElem.mp (Vector.mem_toList_iff.mp hvalue)
    simpa [Option.isSome_iff_ne_none] using hnone ⟨slot, hslot⟩ (List.mem_finRange _)
  · intro hsome slot _
    simpa [Option.isSome_iff_ne_none] using hsome _ (Vector.mem_toList_iff.mpr (Vector.getElem_mem slot.isLt))

theorem le_length_live_of_insert_eq_none (h : table.insert entry = none) : n ≤ table.live.length :=
  freeIndex_eq_none_iff.mp (Option.map_eq_none_iff.mp h)

end Table

end Pythos.Foundation
