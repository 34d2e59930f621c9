import Mathlib.Data.Finset.Card
import Mathlib.Data.Finset.Range

/-!
# Bit vectors as finite sets

A fixed-width word used as a set of small numbers: `members bits` is the set of the positions of its
one bits. The lemmas turn the bitwise operators into the operations of finite sets, so that a loop over
a bit mask can be measured by the number of its members.
-/

namespace Pythos.Foundation

section Members

variable {w : ℕ}

/-- The positions of the one bits of a word. -/
def members (bits : BitVec w) : Finset ℕ :=
  (Finset.range w).filter fun position ↦ bits.getLsbD position = true

variable {bits : BitVec w} {position : ℕ}

@[simp] theorem mem_members : position ∈ members bits ↔ bits.getLsbD position = true := by
  rw [members, Finset.mem_filter, Finset.mem_range]
  exact and_iff_right_of_imp BitVec.lt_of_getLsbD

theorem lt_of_mem_members (h : position ∈ members bits) : position < w :=
  BitVec.lt_of_getLsbD (mem_members.mp h)

theorem card_members_le (bits : BitVec w) : (members bits).card ≤ w :=
  (Finset.card_filter_le _ _).trans (Finset.card_range w).le

theorem members_injective : Function.Injective (members : BitVec w → Finset ℕ) := by
  intro left right h
  refine BitVec.eq_of_getLsbD_eq fun position _ ↦ ?_
  rw [Bool.eq_iff_iff, ← mem_members, ← mem_members, h]

@[simp] theorem members_zero : members (0#w) = ∅ := by
  ext position
  simp

theorem members_eq_empty_iff : members bits = ∅ ↔ bits = 0#w := by
  rw [← members_zero]
  exact members_injective.eq_iff

theorem members_or (left right : BitVec w) :
    members (left ||| right) = members left ∪ members right := by
  ext position
  simp

theorem members_and (left right : BitVec w) :
    members (left &&& right) = members left ∩ members right := by
  ext position
  simp

theorem members_allOnes : members (BitVec.allOnes w) = Finset.range w := by
  ext position
  simp

/-- The word with the single bit at `position`. -/
theorem members_single (h : position < w) : members (1#w <<< position) = {position} := by
  ext other
  rw [mem_members, Finset.mem_singleton, BitVec.getLsbD_shiftLeft]
  by_cases hlt : other < position
  · simp [hlt, Nat.ne_of_lt hlt]
  · rw [BitVec.getLsbD_one]
    simp only [hlt, decide_false, Bool.not_false, Bool.and_true, Bool.and_eq_true,
      decide_eq_true_eq]
    omega

theorem members_and_not_single (bits : BitVec w) (h : position < w) :
    members (bits &&& ~~~(1#w <<< position)) = (members bits).erase position := by
  ext other
  have hsingle : other ∈ members (1#w <<< position) ↔ other = position := by
    rw [members_single h, Finset.mem_singleton]
  rw [mem_members] at hsingle
  rw [mem_members, Finset.mem_erase, mem_members, BitVec.getLsbD_and, BitVec.getLsbD_not,
    Bool.and_eq_true, Bool.and_eq_true, Bool.not_eq_true', Bool.eq_false_iff, ne_eq, hsingle]
  constructor
  · rintro ⟨hbits, -, hne⟩
    exact ⟨hne, hbits⟩
  · rintro ⟨hne, hbits⟩
    exact ⟨hbits, decide_eq_true (BitVec.lt_of_getLsbD hbits), hne⟩

theorem and_single_eq_zero_iff (h : position < w) :
    bits &&& (1#w <<< position) = 0#w ↔ position ∉ members bits := by
  rw [← members_eq_empty_iff, members_and, members_single h, Finset.inter_singleton]
  by_cases hmem : position ∈ members bits
  · simp [mem_members.mp hmem]
  · rw [if_neg hmem]
    exact iff_of_true rfl hmem

/-- A word of consecutive low one bits. -/
theorem members_mask {count : ℕ} (h : count < w) :
    members (1#w <<< count - 1#w) = Finset.range count := by
  ext position
  have hvalue : (1#w <<< count - 1#w).toNat = 2 ^ count - 1 := by
    have hpow : 2 ^ count < 2 ^ w := Nat.pow_lt_pow_right Nat.one_lt_two h
    have hone : 1 ≤ 2 ^ count := Nat.one_le_two_pow
    have hmod : 1 % 2 ^ w = 1 := Nat.mod_eq_of_lt (by omega)
    rw [BitVec.toNat_sub, BitVec.toNat_shiftLeft, BitVec.toNat_ofNat, hmod, Nat.shiftLeft_eq,
      Nat.one_mul, Nat.mod_eq_of_lt hpow]
    have hsplit : 2 ^ w - 1 + 2 ^ count = 2 ^ w + (2 ^ count - 1) := by omega
    rw [hsplit, Nat.add_mod_left, Nat.mod_eq_of_lt (by omega)]
  rw [mem_members, Finset.mem_range, BitVec.getLsbD, hvalue, Nat.testBit_two_pow_sub_one,
    decide_eq_true_eq]

end Members

end Pythos.Foundation
