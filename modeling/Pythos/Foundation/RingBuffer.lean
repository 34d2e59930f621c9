import Mathlib.Data.Nat.ModEq
import Mathlib.Logic.Function.Basic

/-!
# A ring buffer refines a bounded queue

A ring keeps its items in the slots from `head` up to `tail`, counted modulo the capacity. One slot stays
free, so that an empty ring and a full one differ. `RingBuffer.Holds ring items` says that the ring stores
`items`, oldest first; the rules below give what each operation does to them.
-/

namespace Pythos.Foundation

structure RingBuffer (α : Type*) where
  slots : ℕ → Option α
  head : ℕ
  tail : ℕ

namespace RingBuffer

variable {α : Type*} {capacity : ℕ}

def empty : RingBuffer α := { slots := fun _ ↦ none, head := 0, tail := 0 }

/-- Appends an item, or returns `none` when only the free slot is left. -/
def push (capacity : ℕ) (ring : RingBuffer α) (item : α) : Option (RingBuffer α) :=
  if (ring.tail + 1) % capacity = ring.head then none
  else some { ring with
    slots := Function.update ring.slots ring.tail (some item)
    tail := (ring.tail + 1) % capacity }

/-- Takes the oldest item and empties its slot. -/
def pop (capacity : ℕ) (ring : RingBuffer α) : Option α × RingBuffer α :=
  if ring.head = ring.tail then (none, ring)
  else (ring.slots ring.head, { ring with
    slots := Function.update ring.slots ring.head none
    head := (ring.head + 1) % capacity })

/-- Moves the head to the tail, past all items. -/
def flush (ring : RingBuffer α) : RingBuffer α := { ring with head := ring.tail }

/-- The ring stores these items, oldest first. -/
structure Holds (capacity : ℕ) (ring : RingBuffer α) (items : List α) : Prop where
  head_lt : ring.head < capacity
  length_lt : items.length < capacity
  tail_eq : ring.tail = (ring.head + items.length) % capacity
  slots_eq : ∀ offset < items.length, ring.slots ((ring.head + offset) % capacity) = items[offset]?

/-- Offsets below the capacity name different slots. -/
theorem add_mod_inj {first left right : ℕ} (hleft : left < capacity) (hright : right < capacity) :
    (first + left) % capacity = (first + right) % capacity ↔ left = right := by
  constructor
  · intro h
    have hmod : left ≡ right [MOD capacity] := Nat.ModEq.add_left_cancel' first h
    rwa [Nat.ModEq, Nat.mod_eq_of_lt hleft, Nat.mod_eq_of_lt hright] at hmod
  · rintro rfl
    rfl

theorem holds_empty (h : 0 < capacity) : Holds capacity (empty : RingBuffer α) [] :=
  ⟨h, h, (Nat.zero_mod capacity).symm, fun _ hlt ↦ absurd hlt (Nat.not_lt_zero _)⟩

section Holds

variable {ring : RingBuffer α} {items : List α} (h : Holds capacity ring items)

include h

theorem Holds.tail_lt : ring.tail < capacity := by
  rw [h.tail_eq]
  exact Nat.mod_lt _ (Nat.zero_lt_of_lt h.head_lt)

/-- The slot of the head, as the slot at offset zero. -/
theorem Holds.head_eq : ring.head = (ring.head + 0) % capacity := by
  rw [Nat.add_zero, Nat.mod_eq_of_lt h.head_lt]

theorem Holds.head_eq_tail_iff : ring.head = ring.tail ↔ items = [] := by
  rw [h.tail_eq, ← List.length_eq_zero_iff]
  nth_rewrite 1 [h.head_eq]
  rw [add_mod_inj (Nat.zero_lt_of_lt h.head_lt) h.length_lt, eq_comm]

theorem Holds.next_tail_eq : (ring.tail + 1) % capacity = (ring.head + (items.length + 1)) % capacity := by
  rw [h.tail_eq, Nat.mod_add_mod, Nat.add_assoc]

/-- The ring refuses an item exactly when it holds one less than its capacity. -/
theorem Holds.full_iff : (ring.tail + 1) % capacity = ring.head ↔ items.length + 1 = capacity := by
  rw [h.next_tail_eq]
  constructor
  · intro hfull
    by_contra hne
    have hlt : items.length + 1 < capacity := lt_of_le_of_ne h.length_lt hne
    rw [h.head_eq] at hfull
    nth_rewrite 1 [← h.head_eq] at hfull
    exact absurd ((add_mod_inj hlt (Nat.zero_lt_of_lt hlt)).mp hfull) (Nat.succ_ne_zero _)
  · intro hlength
    rw [hlength, Nat.add_mod_right, Nat.mod_eq_of_lt h.head_lt]

theorem Holds.push_eq_none_iff (item : α) :
    push capacity ring item = none ↔ items.length + 1 = capacity := by
  rw [push, ← h.full_iff]
  split_ifs with hfull
  · simp [hfull]
  · simp [hfull]

theorem Holds.push {item : α} {next : RingBuffer α} (hpush : ring.push capacity item = some next) :
    Holds capacity next (items ++ [item]) := by
  rw [RingBuffer.push] at hpush
  split_ifs at hpush with hfull
  obtain rfl := Option.some_inj.mp hpush
  have hlt : items.length + 1 < capacity :=
    lt_of_le_of_ne h.length_lt fun heq ↦ hfull (h.full_iff.mpr heq)
  refine ⟨h.head_lt, by simpa using hlt, by simpa using h.next_tail_eq, fun offset hoffset ↦ ?_⟩
  rw [List.length_append, List.length_singleton, Nat.lt_succ_iff_lt_or_eq] at hoffset
  -- The new item sits at the offset `items.length`, which no older item uses.
  rcases hoffset with hbefore | rfl
  · have hne : (ring.head + offset) % capacity ≠ ring.tail := by
      rw [h.tail_eq, Ne, add_mod_inj (lt_trans hbefore h.length_lt) h.length_lt]
      exact Nat.ne_of_lt hbefore
    simp only [Function.update_of_ne hne, h.slots_eq offset hbefore]
    rw [List.getElem?_append_left hbefore]
  · simp only [← h.tail_eq, Function.update_self]
    simp

theorem Holds.flush : Holds capacity ring.flush [] :=
  ⟨h.tail_lt, Nat.zero_lt_of_lt h.head_lt, (Nat.mod_eq_of_lt h.tail_lt).symm,
    fun _ hlt ↦ absurd hlt (Nat.not_lt_zero _)⟩

end Holds

theorem Holds.pop_nil {ring : RingBuffer α} (h : Holds capacity ring []) : ring.pop capacity = (none, ring) := by
  rw [pop, if_pos (h.head_eq_tail_iff.mpr rfl)]

theorem Holds.pop_cons {ring : RingBuffer α} {item : α} {rest : List α}
    (h : Holds capacity ring (item :: rest)) :
    (ring.pop capacity).1 = some item ∧ Holds capacity (ring.pop capacity).2 rest := by
  have hne : ring.head ≠ ring.tail := fun heq ↦ by simpa using h.head_eq_tail_iff.mp heq
  have hlength : rest.length + 1 < capacity := h.length_lt
  rw [pop, if_neg hne]
  refine ⟨?_, Nat.mod_lt _ (Nat.zero_lt_of_lt hlength), by omega, ?_, fun offset hoffset ↦ ?_⟩
  · have hfirst := h.slots_eq 0 (Nat.zero_lt_succ _)
    rw [← h.head_eq] at hfirst
    exact hfirst
  · simp only [h.tail_eq, List.length_cons, Nat.mod_add_mod]
    congr 1
    omega
  · have hslot : ((ring.head + 1) % capacity + offset) % capacity
        = (ring.head + (offset + 1)) % capacity := by
      rw [Nat.mod_add_mod]
      congr 1
      omega
    have hother : (ring.head + (offset + 1)) % capacity ≠ ring.head := by
      intro heq
      rw [h.head_eq] at heq
      nth_rewrite 1 [← h.head_eq] at heq
      exact absurd ((add_mod_inj (by omega) (Nat.zero_lt_of_lt hlength)).mp heq) (Nat.succ_ne_zero _)
    simp only [hslot, Function.update_of_ne hother]
    rw [h.slots_eq (offset + 1) (Nat.succ_lt_succ hoffset), List.getElem?_cons_succ]

end RingBuffer

end Pythos.Foundation
