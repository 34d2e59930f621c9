import Mathlib.Data.Set.Insert
import Mathlib.Logic.Relation

/-!
# Dominance in a rooted graph

A vertex dominates another when every walk from the entry to the second visits the first. A family of
sets that shrinks along the edges in the sense of `DominatorClosed` is contained in the dominators
(`DominatorClosed.mem_trail`), whatever computed it; this is the direction a check of availability
relies on, since it can be applied to the trail of one execution.
-/

namespace Pythos.Foundation

section Dominance

variable {V : Type*} {edge : V → V → Prop} {entry : V}

/-- A walk from the entry to a vertex, with the visited vertices from the last to the first. -/
inductive Walk (edge : V → V → Prop) (entry : V) : V → List V → Prop
  | start : Walk edge entry entry [entry]
  | step {source target : V} {trail : List V} (walk : Walk edge entry source trail)
      (hedge : edge source target) : Walk edge entry target (target :: trail)

theorem Walk.trail_eq {vertex : V} {trail : List V} (h : Walk edge entry vertex trail) :
    trail = vertex :: trail.tail := by
  cases h with
  | start => rfl
  | step walk hedge => rfl

/-- A vertex that can be reached is the end of a walk. -/
theorem exists_walk {vertex : V} (h : Relation.ReflTransGen edge entry vertex) :
    ∃ trail, Walk edge entry vertex trail := by
  induction h with
  | refl => exact ⟨[entry], .start⟩
  | tail _ hedge ih =>
    obtain ⟨trail, walk⟩ := ih
    exact ⟨_, walk.step hedge⟩

/-- Every walk to the vertex visits the dominator. -/
def Dominates (edge : V → V → Prop) (entry dominator vertex : V) : Prop :=
  ∀ trail, Walk edge entry vertex trail → dominator ∈ trail

theorem eq_of_dominates_entry {dominator : V} (h : Dominates edge entry dominator entry) :
    dominator = entry :=
  List.mem_singleton.mp (h [entry] .start)

/-- A dominator of a vertex other than the vertex itself dominates every predecessor. -/
theorem Dominates.of_edge {dominator source target : V}
    (h : Dominates edge entry dominator target) (hne : dominator ≠ target)
    (hedge : edge source target) : Dominates edge entry dominator source := by
  intro trail walk
  rcases List.mem_cons.mp (h (target :: trail) (.step walk hedge)) with rfl | hmem
  · exact absurd rfl hne
  · exact hmem

/-- The closure conditions of a table of dominators. -/
structure DominatorClosed (edge : V → V → Prop) (entry : V) (dominators : V → Set V) : Prop where
  entry_subset : dominators entry ⊆ {entry}
  edge_subset : ∀ source target, edge source target → target ≠ entry →
    dominators target ⊆ insert target (dominators source)

/-- Along a walk the table holds only visited vertices. -/
theorem DominatorClosed.mem_trail {dominators : V → Set V}
    (h : DominatorClosed edge entry dominators) {vertex : V} {trail : List V}
    (walk : Walk edge entry vertex trail) {dominator : V} (hmem : dominator ∈ dominators vertex) :
    dominator ∈ trail := by
  induction walk with
  | start => exact List.mem_singleton.mpr (h.entry_subset hmem)
  | step walk hedge ih =>
    rename_i source target trail
    by_cases hentry : target = entry
    · subst hentry
      rw [Set.mem_singleton_iff.mp (h.entry_subset hmem)]
      exact List.mem_cons_self
    · rcases h.edge_subset source target hedge hentry hmem with rfl | hsource
      · exact List.mem_cons_self
      · exact List.mem_cons_of_mem _ (ih hsource)

end Dominance

end Pythos.Foundation
