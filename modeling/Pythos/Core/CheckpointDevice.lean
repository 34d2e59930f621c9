import Pythos.Core.ObjectServiceRecovery

/-!
# Checkpoints on a device that refuses requests

The block device serves the sector requests of a checkpoint one after the other. It can refuse any of them:
a refused read gives nothing, and a refused write leaves some content in its sector. The first refusal ends
the checkpoint with an error. A program that only reads leaves the sectors alone (`Reads`), and a refused
write interrupts the writes, so a checkpoint on any device is a step of a `CheckpointRun`.
-/

namespace Pythos.Core

open Foundation Shared Stateful

/-- A device with its sectors. It has served some requests, and `refusal` says for each request, by its
number, whether it is refused, and what the sector of a refused write holds afterwards. -/
structure CheckpointDevice where
  sectors : Disk
  served : ℕ
  refusal : ℕ → Option Sector

inductive CheckpointError
  | block
  | storage (error : GeneralStoragePersistenceError)
  deriving DecidableEq, Repr

namespace CheckpointDevice

abbrev Program (α : Type) := Stateful CheckpointError CheckpointDevice α

def readCheckpointSector (sector : ℕ) : Program Sector := fun device ↦
  match device.refusal device.served with
  | none => (.ok (device.sectors sector), { device with served := device.served + 1 })
  | some _ => (.error .block, { device with served := device.served + 1 })

def writeCheckpointSector (write : SectorWrite) : Program Unit := fun device ↦
  match device.refusal device.served with
  | none =>
    (.ok (), { device with sectors := device.sectors.apply write, served := device.served + 1 })
  | some left =>
    (.error .block,
      { device with sectors := device.sectors.apply ⟨write.sector, left⟩, served := device.served + 1 })

/-- The sectors of a slot at some indices of its image. -/
def readImageSectors (slot : CheckpointSlot) : List ℕ → Program (List Sector)
  | [] => pure []
  | index :: rest => do
    let sector ← readCheckpointSector (sectorForImageIndex slot index)
    let sectors ← readImageSectors slot rest
    pure (sector :: sectors)

def writeSectors : List SectorWrite → Program Unit
  | [] => pure ()
  | write :: rest => do
    writeCheckpointSector write
    writeSectors rest

/-- The image of the sectors in the order of their indices. -/
def imageOfSectors (sectors : List Sector) : ObjectServiceSlotImage where
  sectors := Vector.ofFn fun index ↦ sectors[index.val]?.getD Sector.blank

def readCommittedSlotSnapshot (slot : CheckpointSlot) : Program (Option ObjectServiceSnapshot) := do
  let header ← readCheckpointSector (sectorForImageIndex slot 0)
  let commit ← readCheckpointSector (sectorForImageIndex slot commitImageIndex)
  if ¬ slotProbeIsCommitted header commit then pure none
  else
    let body ← readImageSectors slot (List.range' objectImageIndex 24)
    pure (decodeOrdinarySlot (imageOfSectors (header :: body ++ [commit]))).toOption

/-- `with_restored_object_service_checkpoint`. -/
def restoredCheckpoint : Program (Option ObjectServiceSnapshot) := do
  let first ← readCommittedSlotSnapshot .a
  let second ← readCommittedSlotSnapshot .b
  pure (selectHighestGeneration first second)

/-- `snapshot.map_or(1, |snapshot| snapshot.generation + 1)`. -/
def generationAfter : Option ObjectServiceSnapshot → UInt64
  | some snapshot => snapshot.generation + 1
  | none => 1

/-- `write_slot_image`, after which the image is read back and decoded. -/
def writeSlot (slot : CheckpointSlot) (image : ObjectServiceSlotImage) : Program Unit := do
  writeSectors (slotImageWrites slot image)
  let sectors ← readImageSectors slot (List.range slotSectorCount)
  match decodeSlot (imageOfSectors sectors) with
  | .ok _ => pure ()
  | .error error => fail (.storage error)

/-- `write_object_service_checkpoint`. -/
def writeCheckpoint (snapshot : ObjectServiceSnapshot) : Program Unit := do
  let restored ← restoredCheckpoint
  let generation := generationAfter restored
  let slot := slotForGeneration generation
  writeSlot slot (encodeSlotWithGeneration slot snapshot generation true)

/-! ### Programs on a device -/

/-- No request is refused. -/
def Serves (device : CheckpointDevice) : Prop :=
  ∀ request, device.refusal request = none

/-- A program returns a value, or fails because a request is refused, and leaves the sectors alone. -/
def Reads {α : Type} (device : CheckpointDevice) (program : Program α) (value : α) : Prop :=
  Ensures program (fun result device' ↦ result = value ∧ ∃ served, device' = { device with served })
    (fun _ device' ↦ ¬ device.Serves ∧ device'.sectors = device.sectors) device

section Programs

variable {device : CheckpointDevice} {α β : Type}

theorem Reads.bind {program : Program α} {next : α → Program β} {value : α} {value' : β}
    (h : device.Reads program value)
    (hnext : ∀ served, Reads { device with served } (next value) value') :
    device.Reads (program >>= next) value' := by
  rw [Reads, ensures_bind]
  refine h.mono ?_ fun _ _ ↦ id
  rintro _ _ ⟨rfl, served, rfl⟩
  exact hnext served

theorem reads_readCheckpointSector (sector : ℕ) :
    device.Reads (readCheckpointSector sector) (device.sectors sector) := by
  unfold Reads Ensures readCheckpointSector
  cases hrefusal : device.refusal device.served with
  | none => exact ⟨rfl, _, rfl⟩
  | some left => exact ⟨fun hserves ↦ by simp [hserves _] at hrefusal, rfl⟩

theorem reads_readImageSectors (slot : CheckpointSlot) (indices : List ℕ) :
    device.Reads (readImageSectors slot indices)
      (indices.map fun index ↦ device.sectors (sectorForImageIndex slot index)) := by
  induction indices generalizing device with
  | nil => exact ⟨rfl, device.served, rfl⟩
  | cons index rest ih =>
    exact (reads_readCheckpointSector _).bind fun _ ↦ ih.bind fun served ↦ ⟨rfl, served, rfl⟩

/-- The sectors of a slot in their order make up its image. -/
theorem imageOfSectors_map_range (disk : Disk) (slot : CheckpointSlot) :
    imageOfSectors ((List.range slotSectorCount).map fun index ↦ disk (sectorForImageIndex slot index)) =
      readSlotImage disk slot := by
  refine congrArg ObjectServiceSlotImage.mk (congrArg Vector.ofFn (funext fun index ↦ ?_))
  rw [List.getElem?_map, List.getElem?_range index.isLt, Option.map_some, Option.getD_some]

theorem reads_readCommittedSlotSnapshot (slot : CheckpointSlot) :
    device.Reads (readCommittedSlotSnapshot slot) (readCommittedSlot device.sectors slot) := by
  have hindices : List.range slotSectorCount = 0 :: List.range' objectImageIndex 24 ++ [commitImageIndex] := by
    decide
  have himage := imageOfSectors_map_range device.sectors slot
  rw [hindices, List.map_append, List.map_cons, List.map_singleton] at himage
  refine (reads_readCheckpointSector _).bind fun _ ↦ (reads_readCheckpointSector _).bind fun served ↦ ?_
  rw [Reads, ensures_ite, readCommittedSlot]
  refine ⟨fun hprobe ↦ ?_, fun hprobe ↦ ?_⟩
  · rw [if_neg hprobe]
    exact ⟨rfl, served, rfl⟩
  · rw [if_pos (not_not.mp hprobe)]
    exact (reads_readImageSectors slot _).bind fun served ↦
      ⟨congrArg (fun image ↦ (decodeOrdinarySlot image).toOption) himage, served, rfl⟩

theorem reads_restoredCheckpoint : device.Reads restoredCheckpoint (recoverCheckpoint device.sectors) :=
  (reads_readCommittedSlotSnapshot .a).bind fun _ ↦
    (reads_readCommittedSlotSnapshot .b).bind fun served ↦ ⟨rfl, served, rfl⟩

/-- The writes are all made, or a refused one interrupts them. -/
theorem ensures_writeSectors (writes : List SectorWrite) :
    Ensures (writeSectors writes)
      (fun _ device' ↦ device'.sectors = device.sectors.applyAll writes ∧ device'.refusal = device.refusal)
      (fun _ device' ↦ ¬ device.Serves ∧ device.sectors.Interrupted writes device'.sectors) device := by
  induction writes generalizing device with
  | nil => exact ⟨rfl, rfl⟩
  | cons write rest ih =>
    rw [writeSectors, ensures_bind]
    unfold Ensures writeCheckpointSector
    cases hrefusal : device.refusal device.served with
    | none =>
      refine ih.mono (fun _ _ ↦ id) fun _ device' hfailed ↦ ⟨hfailed.1, ?_⟩
      obtain ⟨done, torn, left, content, hsplit, hsectors⟩ := hfailed.2
      exact ⟨write :: done, torn, left, content, by rw [hsplit, List.cons_append], hsectors⟩
    | some left =>
      exact ⟨fun hserves ↦ by simp [hserves _] at hrefusal, [], write, rest, left, rfl, rfl⟩

theorem generationAfter_recoverCheckpoint (disk : Disk) :
    generationAfter (recoverCheckpoint disk) = nextGeneration disk := by
  unfold nextGeneration generationAfter
  cases recoverCheckpoint disk <;> rfl

/-- A checkpoint that succeeds has made its writes. One that fails was refused a request: in front of the
writes, at one of them, or when it read the image back. -/
theorem ensures_writeCheckpoint (snapshot : ObjectServiceSnapshot) :
    Ensures (writeCheckpoint snapshot)
      (fun _ device' ↦ device'.sectors = device.sectors.applyAll (checkpointWrites device.sectors snapshot))
      (fun _ device' ↦ ¬ device.Serves ∧ (device'.sectors = device.sectors ∨
        device.sectors.Interrupted (checkpointWrites device.sectors snapshot) device'.sectors ∨
          device'.sectors = device.sectors.applyAll (checkpointWrites device.sectors snapshot))) device := by
  rw [writeCheckpoint, ensures_bind]
  refine reads_restoredCheckpoint.mono ?_ fun _ _ hfailed ↦ ⟨hfailed.1, .inl hfailed.2⟩
  rintro _ _ ⟨rfl, served, rfl⟩
  rw [generationAfter_recoverCheckpoint, writeSlot, ensures_bind]
  refine (ensures_writeSectors (checkpointWrites device.sectors snapshot)).mono ?_ fun _ _ hfailed ↦
    ⟨hfailed.1, .inr (.inl hfailed.2)⟩
  rintro _ written ⟨hsectors, hrefusal⟩
  rw [ensures_bind]
  refine (reads_readImageSectors _ _).mono (fun sectors device' hread ↦ ?_) fun _ _ hfailed ↦
    ⟨?_, .inr (.inr (hfailed.2.trans hsectors))⟩
  · have hdecode := decodeSlot_applyAll device.sectors snapshot
    rw [← hsectors] at hdecode
    rw [hread.1, imageOfSectors_map_range]
    cases hdecoded : decodeSlot (readSlotImage written.sectors (slotForGeneration
      (nextGeneration device.sectors))) with
    | ok found =>
      obtain ⟨served, rfl⟩ := hread.2
      exact hsectors
    | error cause => cases hdecoded.symm.trans hdecode
  · rw [Serves, hrefusal] at hfailed
    exact hfailed.1

/-- A checkpoint on a device continues the run that its sectors stem from. If it succeeds it is the one that
is recovered. If it fails, the device refused a request, and the last checkpoint or the new one is. -/
theorem recovers_of_writeCheckpoint {start : Disk} {latest : Option ObjectServiceSnapshot}
    (halternating : Alternating start) (run : CheckpointRun start device.sectors latest)
    (hnext : HasNext device.sectors) (snapshot : ObjectServiceSnapshot) :
    Ensures (writeCheckpoint snapshot)
      (fun _ device' ↦ CheckpointRun start device'.sectors (some (checkpointed device.sectors snapshot)) ∧
        recoverCheckpoint device'.sectors = some (checkpointed device.sectors snapshot))
      (fun _ device' ↦ ¬ device.Serves ∧ (NoRevival device.sectors snapshot device'.sectors →
        ∃ recovered ∈ [latest, some (checkpointed device.sectors snapshot)],
          CheckpointRun start device'.sectors recovered ∧ recoverCheckpoint device'.sectors = recovered))
      device := by
  have hrecover {disk : Disk} {recovered : Option ObjectServiceSnapshot}
      (hrun : CheckpointRun start disk recovered) := (hrun.alternating_and_recover halternating).2
  have hdone : CheckpointRun start (device.sectors.applyAll (checkpointWrites device.sectors snapshot))
      (some (checkpointed device.sectors snapshot)) :=
    .completed run hnext (writeObjectServiceCheckpoint_eq_ok device.sectors snapshot).1
  refine (ensures_writeCheckpoint snapshot).mono (fun _ device' hwritten ↦ ?_) fun _ device' hfailed ↦
    ⟨hfailed.1, fun hrevival ↦ ?_⟩
  · rw [hwritten]
    exact ⟨hdone, hrecover hdone⟩
  rcases hfailed.2 with hsame | hinterrupted | hwritten
  · rw [hsame]
    exact ⟨latest, by simp, run, hrecover run⟩
  · by_cases hstored : Stored device.sectors snapshot device'.sectors
    · have hrun := CheckpointRun.committed run hnext hinterrupted hstored
      exact ⟨_, by simp, hrun, hrecover hrun⟩
    · have hrun := CheckpointRun.abandoned run hnext hinterrupted hrevival hstored
      exact ⟨latest, by simp, hrun, hrecover hrun⟩
  · rw [hwritten]
    exact ⟨_, by simp, hdone, hrecover hdone⟩

/-- A device that refuses the second write of a table sector, and leaves other content in it. -/
def refusingDevice : CheckpointDevice where
  sectors := blankDisk
  served := 0
  refusal request := if request < 6 then none else some (Sector.ofMemory fun _ ↦ 1)

/-- The first checkpoint of a blank disk, on a device that serves every request, and on one that refuses a
write. -/
theorem recovers_of_writeCheckpoint_blankDisk :
    (∃ device : CheckpointDevice, device.sectors = blankDisk ∧ device.Serves ∧
      Ensures (writeCheckpoint .empty)
        (fun _ device' ↦ recoverCheckpoint device'.sectors = some (checkpointed blankDisk .empty))
        (fun _ _ ↦ False) device) ∧
    ∃ device', writeCheckpoint .empty refusingDevice = (.error .block, device') ∧
      ∃ recovered ∈ [none, some (checkpointed blankDisk .empty)],
        CheckpointRun blankDisk device'.sectors recovered ∧
          recoverCheckpoint device'.sectors = recovered := by
  constructor
  · -- The device is a variable, so that Lean does not run the checkpoint.
    obtain ⟨device, hdevice, hserves⟩ : ∃ device : CheckpointDevice,
        device.sectors = blankDisk ∧ device.Serves := ⟨⟨blankDisk, 0, fun _ ↦ none⟩, rfl, fun _ ↦ rfl⟩
    have h := recovers_of_writeCheckpoint (hdevice ▸ alternating_blankDisk) .start
      (hdevice ▸ hasNext_blankDisk) .empty
    rw [hdevice] at h
    exact ⟨device, hdevice, hserves, h.mono (fun _ _ ↦ And.right) fun _ _ h ↦ h.1 hserves⟩
  · obtain ⟨device', hrefused, hblank⟩ : ∃ device',
        writeCheckpoint .empty refusingDevice = (.error .block, device') ∧
          device'.sectors (sectorForImageIndex .a commitImageIndex) = Sector.blank := ⟨_, rfl, rfl⟩
    have hslot : nextSlot blankDisk = .a := by
      rw [nextSlot, nextGeneration, recoverCheckpoint_blankDisk]
      rfl
    have h : Ensures (writeCheckpoint .empty) _ _ refusingDevice :=
      recovers_of_writeCheckpoint alternating_blankDisk .start hasNext_blankDisk .empty
    rw [Ensures, hrefused] at h
    refine ⟨device', hrefused, ?_⟩
    rw [← recoverCheckpoint_blankDisk]
    refine h.2 fun _ stale _ _ hstale ↦ ?_
    rw [show nextSlot refusingDevice.sectors = .a from hslot, readCommittedSlot_of_blank hblank] at hstale
    cases hstale

end Programs

end CheckpointDevice

end Pythos.Core
