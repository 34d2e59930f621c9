import Pythos.Foundation.Memory

/-!
# Copying from and to user memory

`core/src/user_copy.rs`: the ranges of its memory that a process has mapped, and the check of a pointer
and a length that a system call makes before it touches the memory of its caller.
-/

namespace Pythos.Core

inductive UserCopyAccess
  | read
  | write
  deriving DecidableEq, Repr

inductive UserCopyError
  | nullPointer
  | emptyRange
  | lengthOverflow
  | outOfRange
  | crossMapping
  | permissionDenied
  deriving DecidableEq, Repr

structure UserMapping where
  start : UInt64
  stop : UInt64
  readable : Bool
  writable : Bool
  deriving DecidableEq, Repr

namespace UserMapping

def containsStart (mapping : UserMapping) (ptr : UInt64) : Bool :=
  ptr ≥ mapping.start ∧ ptr < mapping.stop

def containsRange (mapping : UserMapping) (ptr stop : UInt64) : Bool :=
  ptr ≥ mapping.start ∧ stop ≤ mapping.stop

def overlapsRange (mapping : UserMapping) (ptr stop : UInt64) : Bool :=
  ptr < mapping.stop ∧ mapping.start < stop

def allows (mapping : UserMapping) : UserCopyAccess → Bool
  | .read => mapping.readable
  | .write => mapping.writable

end UserMapping

structure ValidatedUserRange where
  start : UInt64
  stop : UInt64
  access : UserCopyAccess
  deriving DecidableEq, Repr

/-- The counted mappings of a copy map, in the order in which they were added. -/
abbrev UserCopyMap := List UserMapping

namespace UserCopyMap

def findMappingContainingStart (map : UserCopyMap) (ptr : UInt64) : Option ℕ :=
  map.findIdx? fun mapping ↦ mapping.containsStart ptr

def crossesAnotherMapping (map : UserCopyMap) (currentIndex : ℕ) (ptr stop : UInt64) : Bool :=
  map.zipIdx.any fun (mapping, index) ↦ index ≠ currentIndex ∧ mapping.overlapsRange ptr stop

def validateRange (map : UserCopyMap) (ptr length : UInt64) (access : UserCopyAccess) :
    Except UserCopyError ValidatedUserRange :=
  if ptr = 0 then .error .nullPointer
  else if length = 0 then .error .emptyRange
  else if ptr.toNat + length.toNat ≥ 2 ^ 64 then .error .lengthOverflow
  else
    let stop := ptr + length
    match map.findMappingContainingStart ptr with
    | none => .error .outOfRange
    | some index =>
      match map[index]? with
      | none => .error .outOfRange
      | some mapping =>
        if ¬ mapping.containsRange ptr stop then
          if map.crossesAnotherMapping index ptr stop then .error .crossMapping else .error .outOfRange
        else if ¬ mapping.allows access then .error .permissionDenied
        else .ok { start := ptr, stop, access }

end UserCopyMap

end Pythos.Core
