import Mathlib.Data.List.Nodup
import Mathlib.Data.Set.Lattice
import Mathlib.Order.CompletePartialOrder

/-!
# Journals of a walk over a tree

A walk over a tree writes entries into a journal, newest first, each under a key. `Logged` says that only
fresh entries were added, all with different keys from a set; two walks with disjoint keys compose
(`Logged.trans`). The keys are made from places of the tree: a place is the list of the positions of its
parents, innermost first, so the places below different children are disjoint (`Logged.next`).
-/

namespace Pythos.Foundation

variable {κ β : Type}

/-- The second journal is the first one with entries in front whose keys are different and allowed. -/
def Logged (allowed : Set κ) (first second : List (κ × β)) : Prop :=
  ∃ fresh, second = fresh ++ first ∧ (fresh.map Prod.fst).Nodup ∧ ∀ entry ∈ fresh, entry.1 ∈ allowed

/-- The keys of the places at or below a place. -/
def below (key : List ℕ → κ) (place : List ℕ) : Set κ :=
  key '' {inner | place <:+ inner}

/-- The keys of the places below the children from a position on. -/
def belowFrom (key : List ℕ → κ) (position : ℕ) (place : List ℕ) : Set κ :=
  key '' {inner | ∃ child, position ≤ child ∧ child :: place <:+ inner}

namespace Logged

variable {allowed allowed' : Set κ} {first second third : List (κ × β)}

theorem refl (journal : List (κ × β)) : Logged allowed journal journal :=
  ⟨[], rfl, List.nodup_nil, fun _ hentry ↦ (List.not_mem_nil hentry).elim⟩

theorem cons {key : κ} (value : β) (journal : List (κ × β)) (hkey : key ∈ allowed) :
    Logged allowed journal ((key, value) :: journal) :=
  ⟨[(key, value)], rfl, List.nodup_singleton key, fun _ hentry ↦ List.mem_singleton.mp hentry ▸ hkey⟩

theorem mono (h : Logged allowed first second) (hsubset : allowed ⊆ allowed') :
    Logged allowed' first second := by
  obtain ⟨fresh, hfresh, hnodup, hallowed⟩ := h
  exact ⟨fresh, hfresh, hnodup, fun entry hentry ↦ hsubset (hallowed entry hentry)⟩

theorem trans (h : Logged allowed first second) (h' : Logged allowed' second third)
    (hdisjoint : Disjoint allowed allowed') : Logged (allowed ∪ allowed') first third := by
  obtain ⟨fresh, rfl, hnodup, hallowed⟩ := h
  obtain ⟨fresh', rfl, hnodup', hallowed'⟩ := h'
  refine ⟨fresh' ++ fresh, (List.append_assoc ..).symm, ?_, ?_⟩
  · rw [List.map_append]
    refine List.Nodup.append hnodup' hnodup fun key hkey' hkey ↦ ?_
    obtain ⟨entry', hentry', rfl⟩ := List.mem_map.mp hkey'
    obtain ⟨entry, hentry, heq⟩ := List.mem_map.mp hkey
    exact Set.disjoint_left.mp hdisjoint (heq ▸ hallowed entry hentry) (hallowed' entry' hentry')
  · intro entry hentry
    rcases List.mem_append.mp hentry with hentry | hentry
    · exact Or.inr (hallowed' entry hentry)
    · exact Or.inl (hallowed entry hentry)

theorem subset (h : Logged allowed first second) : first ⊆ second := by
  obtain ⟨fresh, rfl, -⟩ := h
  exact List.subset_append_right ..

variable {key : List ℕ → κ} {position : ℕ} {place : List ℕ}

/-- A walk below one child and a walk below the later ones. -/
theorem next (hkey : key.Injective) (h : Logged (below key (position :: place)) first second)
    (h' : Logged (belowFrom key (position + 1) place) second third) :
    Logged (belowFrom key position place) first third := by
  have hdisjoint : Disjoint (below key (position :: place)) (belowFrom key (position + 1) place) := by
    refine (Set.disjoint_image_iff hkey).mpr (Set.disjoint_left.mpr ?_)
    rintro inner ⟨front, rfl⟩ ⟨child, hchild, front', heq⟩
    have hlength : (position :: place).length = (child :: place).length := rfl
    have := (List.append_inj_right' heq.symm hlength)
    injection this with hposition
    omega
  refine (h.trans h' hdisjoint).mono (Set.union_subset (Set.image_mono ?_) (Set.image_mono ?_))
  · exact fun inner hinner ↦ ⟨position, le_rfl, hinner⟩
  · rintro inner ⟨child, hchild, hinner⟩
    exact ⟨child, by omega, hinner⟩

/-- The children of a place are below it. -/
theorem children (h : Logged (belowFrom key position place) first second) :
    Logged (below key place) first second := by
  refine h.mono (Set.image_mono ?_)
  rintro inner ⟨child, -, hinner⟩
  exact (List.suffix_cons child place).trans hinner

/-- A walk below the last child that it visits. -/
theorem last (hkey : key.Injective) (h : Logged (below key (position :: place)) first second) :
    Logged (belowFrom key position place) first second :=
  h.next hkey (.refl second)

end Logged

end Pythos.Foundation
