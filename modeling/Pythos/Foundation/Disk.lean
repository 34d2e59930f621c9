import Mathlib.Logic.Function.Basic
import Pythos.Foundation.Memory

/-!
# Disks and interrupted writes

A disk gives a sector of 512 bytes for every sector number. A program that writes to the disk is the list
of its sector writes; it can be interrupted after any of them, and the sector that was being written is
then left with arbitrary content.
-/

namespace Pythos.Foundation

def sectorSize : ℕ := 512

abbrev Sector := Vector UInt8 sectorSize

namespace Sector

def blank : Sector := Vector.replicate sectorSize 0

def memory (sector : Sector) : Memory := fun position ↦ sector[position]?.getD 0

def ofMemory (memory : Memory) : Sector := Vector.ofFn fun index ↦ memory index

theorem memory_ofMemory (memory : Memory) {position : ℕ} (h : position < sectorSize) :
    (ofMemory memory).memory position = memory position := by
  simp [Sector.memory, ofMemory, h]

end Sector

/-- The sectors of a disk. -/
abbrev Disk := ℕ → Sector

/-- A write of one sector. -/
structure SectorWrite where
  sector : ℕ
  content : Sector
  deriving DecidableEq

namespace Disk

def apply (disk : Disk) (write : SectorWrite) : Disk :=
  Function.update disk write.sector write.content

def applyAll (disk : Disk) (writes : List SectorWrite) : Disk :=
  writes.foldl apply disk

/-- The disks that an interruption of the writes can leave. -/
def Interrupted (disk : Disk) (writes : List SectorWrite) (disk' : Disk) : Prop :=
  ∃ done write rest torn, writes = done ++ write :: rest ∧
    disk' = Function.update (disk.applyAll done) write.sector torn

variable {disk disk' : Disk}

theorem applyAll_cons (write : SectorWrite) (writes : List SectorWrite) :
    disk.applyAll (write :: writes) = (disk.apply write).applyAll writes :=
  rfl

theorem applyAll_append (first second : List SectorWrite) :
    disk.applyAll (first ++ second) = (disk.applyAll first).applyAll second :=
  List.foldl_append

variable {writes : List SectorWrite}

/-- A sector that no write names keeps its content. -/
theorem applyAll_of_forall_ne {sector : ℕ} (h : ∀ write ∈ writes, write.sector ≠ sector) :
    disk.applyAll writes sector = disk sector := by
  induction writes generalizing disk with
  | nil => rfl
  | cons write writes ih =>
    have htail : (disk.apply write).applyAll writes sector = disk.apply write sector :=
      ih fun other hother ↦ h other (List.mem_cons_of_mem _ hother)
    calc (disk.apply write).applyAll writes sector
        = disk.apply write sector := htail
      _ = disk sector := Function.update_of_ne (h write List.mem_cons_self).symm _ _

/-- Writes of distinct sectors leave each sector with the content written to it. -/
theorem applyAll_of_mem {write : SectorWrite} (hnodup : (writes.map SectorWrite.sector).Nodup)
    (hmem : write ∈ writes) : disk.applyAll writes write.sector = write.content := by
  induction writes generalizing disk with
  | nil => cases hmem
  | cons first writes ih =>
    obtain ⟨hnew, hnodup⟩ := List.nodup_cons.mp hnodup
    rcases List.mem_cons.mp hmem with rfl | hmem
    · have hother : ∀ other ∈ writes, other.sector ≠ write.sector := fun other hother heq ↦
        hnew (heq ▸ List.mem_map_of_mem hother)
      exact (applyAll_of_forall_ne hother).trans (Function.update_self _ _ _)
    · exact ih hnodup hmem

/-- An interrupted program leaves the sectors that it does not name. -/
theorem Interrupted.of_forall_ne {sector : ℕ} (hrun : Interrupted disk writes disk')
    (h : ∀ write ∈ writes, write.sector ≠ sector) : disk' sector = disk sector := by
  obtain ⟨done, write, rest, torn, rfl, rfl⟩ := hrun
  rw [Function.update_of_ne (h write (by simp)).symm]
  exact applyAll_of_forall_ne fun other hother ↦ h other (List.mem_append_left _ hother)

end Disk

end Pythos.Foundation
