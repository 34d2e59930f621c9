import Mathlib.Algebra.Group.Nat.Defs
import Mathlib.Tactic.Common

/-!
# The ABI that kernel and programs share

The packed capability is the handle that crosses the system call boundary: the low half of the word is
the slot of a capability table, and the high half the generation of its entry.
-/

namespace Pythos.Shared

/-! ### Capabilities -/

structure PackedCapability where
  raw : UInt64
  deriving DecidableEq, Repr

def PackedCapability.fromParts (slot generation : UInt32) : PackedCapability where
  raw := slot.toUInt64 ||| (generation.toUInt64 <<< 32)

def PackedCapability.slot (capability : PackedCapability) : UInt32 :=
  capability.raw.toUInt32

def PackedCapability.generation (capability : PackedCapability) : UInt32 :=
  (capability.raw >>> 32).toUInt32

namespace PackedCapability

theorem toNat_fromParts (slot generation : UInt32) :
    (fromParts slot generation).raw.toNat = 2 ^ 32 * generation.toNat + slot.toNat := by
  have hslot := slot.toNat_lt
  have hgeneration := generation.toNat_lt
  have hshift : (generation.toUInt64 <<< 32).toNat = generation.toNat <<< 32 := by
    rw [UInt64.toNat_shiftLeft, UInt32.toNat_toUInt64]
    simp only [UInt64.reduceToNat, Nat.shiftLeft_eq, Nat.reduceMod, Nat.reducePow]
    omega
  rw [fromParts, UInt64.toNat_or, hshift, UInt32.toNat_toUInt64, Nat.shiftLeft_eq, Nat.or_comm,
    Nat.mul_comm, Nat.two_pow_add_eq_or_of_lt hslot]

theorem toNat_generation (capability : PackedCapability) :
    capability.generation.toNat = capability.raw.toNat / 2 ^ 32 := by
  have hraw := capability.raw.toNat_lt
  rw [generation, UInt64.toNat_toUInt32, UInt64.toNat_shiftRight]
  simp only [UInt64.reduceToNat, Nat.shiftRight_eq_div_pow, Nat.reduceMod, Nat.reducePow]
  omega

@[simp] theorem slot_fromParts (slot generation : UInt32) :
    (fromParts slot generation).slot = slot := by
  have hslot := slot.toNat_lt
  apply UInt32.toNat_inj.mp
  rw [PackedCapability.slot, UInt64.toNat_toUInt32, toNat_fromParts]
  omega

@[simp] theorem generation_fromParts (slot generation : UInt32) :
    (fromParts slot generation).generation = generation := by
  have hslot := slot.toNat_lt
  apply UInt32.toNat_inj.mp
  rw [toNat_generation, toNat_fromParts]
  omega

@[simp] theorem fromParts_slot_generation (capability : PackedCapability) :
    fromParts capability.slot capability.generation = capability := by
  obtain ⟨raw⟩ := capability
  apply congrArg PackedCapability.mk
  apply UInt64.toNat_inj.mp
  change (fromParts _ _).raw.toNat = _
  rw [toNat_fromParts, toNat_generation, slot, UInt64.toNat_toUInt32]
  exact Nat.div_add_mod _ _

end PackedCapability

/-! ### The object shell -/

def maxQueryResults : ℕ := 8
def fieldText : UInt16 := 1

structure ObjectListEntry where
  objectId : UInt64
  capability : PackedCapability
  deriving DecidableEq, Repr

/-! ### Packages -/

def packageDefinedStateFormatEmpty : UInt16 := 0
def packageDefinedStateFormatInlineBytesV0 : UInt16 := 1
def packageDefinedMaxInitialStateBytes : ℕ := 16
def fieldPackageSchemaRefV0 : UInt16 := 0x1301
def fieldPackageInlineStateV0 : UInt16 := 0x1302

end Pythos.Shared
