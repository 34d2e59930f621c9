import Pythos.Core.ObjectServiceCodec

/-!
# Checkpoints that are interrupted

A checkpoint of the object service is written to one of two slots, chosen by the parity of its
generation: first the commit sector is blanked, then the tables and the header are written, and the
commit sector comes last. Recovery reads both slots and selects the highest generation. A write that is
interrupted leaves the other slot alone, and its own slot is not committed before the first sixteen
bytes of the commit sector, the commit record, are in place.

The content of the commit sector behind the commit record is never read. An interruption of the blanking
can leave any bytes in the commit sector, also those of a commit record; the hypotheses say where that
matters.
-/

namespace Pythos.Core

open Foundation Shared

/-! ### Slots of the disk -/

def slotForGeneration (generation : UInt64) : CheckpointSlot :=
  if generation % 2 = 1 then .a else .b

def isCandidateSlot : CheckpointSlot → Bool
  | .candidateA => true
  | .candidateB => true
  | _ => false

def objectServiceTornSector : ℕ := 250

def sectorForImageIndex (slot : CheckpointSlot) (imageIndex : ℕ) : ℕ :=
  if imageIndex = 0 then (slotLayout slot).headerSector
  else if imageIndex < relationshipImageIndex then
    (slotLayout slot).objectTableSector + (imageIndex - objectImageIndex)
  else if imageIndex < revisionImageIndex then
    (slotLayout slot).relationshipTableSector + (imageIndex - relationshipImageIndex)
  else if imageIndex < commitImageIndex then
    (slotLayout slot).revisionTableSector + (imageIndex - revisionImageIndex)
  else if imageIndex = commitImageIndex then (slotLayout slot).commitSector
  else objectServiceTornSector

def readSlotImage (disk : Disk) (slot : CheckpointSlot) : ObjectServiceSlotImage where
  sectors := Vector.ofFn fun index ↦ disk (sectorForImageIndex slot index)

def decodeOrdinarySlot (image : ObjectServiceSlotImage) :
    Except GeneralStoragePersistenceError ObjectServiceSnapshot := do
  let slot ← slotFromCode (image.memory.readU16 10)
  if isCandidateSlot slot then .error .badSnapshot else decodeSlot image

def slotProbeIsCommitted (header commit : Sector) : Bool :=
  header.memory.read 0 8 = checkpointMagic ∧ commit.memory.read 0 8 = commitMagic ∧
    header.memory.readU64 24 = commit.memory.readU64 8

/-- `read_committed_slot_snapshot_into`: the snapshot of a slot that is committed and decodes. -/
def readCommittedSlot (disk : Disk) (slot : CheckpointSlot) : Option ObjectServiceSnapshot :=
  if slotProbeIsCommitted (disk (sectorForImageIndex slot 0))
      (disk (sectorForImageIndex slot commitImageIndex)) then
    (decodeOrdinarySlot (readSlotImage disk slot)).toOption
  else none

def selectHighestGeneration : Option ObjectServiceSnapshot → Option ObjectServiceSnapshot →
    Option ObjectServiceSnapshot
  | some first, some second => if second.generation > first.generation then some second else some first
  | some first, none => some first
  | none, some second => some second
  | none, none => none

/-- `with_restored_object_service_checkpoint`. -/
def recoverCheckpoint (disk : Disk) : Option ObjectServiceSnapshot :=
  selectHighestGeneration (readCommittedSlot disk .a) (readCommittedSlot disk .b)

/-! ### Writing a checkpoint -/

/-- The write of a sector of the image to its place in the slot. -/
def imageWrite (slot : CheckpointSlot) (image : ObjectServiceSlotImage) (index : ℕ) : SectorWrite where
  sector := sectorForImageIndex slot index
  content := image.sectors[index]?.getD Sector.blank

/-- The order in which the sectors before the commit sector are written: the tables, then the header. -/
def bodyOrder : List ℕ := List.range' objectImageIndex 24 ++ [0]

/-- The sector writes of `write_slot_image`, in their order. -/
def slotImageWrites (slot : CheckpointSlot) (image : ObjectServiceSlotImage) : List SectorWrite :=
  ⟨sectorForImageIndex slot commitImageIndex, Sector.blank⟩ ::
    (bodyOrder.map (imageWrite slot image) ++ [imageWrite slot image commitImageIndex])

/-- The generation of the next checkpoint. -/
def nextGeneration (disk : Disk) : UInt64 :=
  match recoverCheckpoint disk with
  | some snapshot => snapshot.generation + 1
  | none => 1

def nextSlot (disk : Disk) : CheckpointSlot := slotForGeneration (nextGeneration disk)

def nextImage (disk : Disk) (snapshot : ObjectServiceSnapshot) : ObjectServiceSlotImage :=
  encodeSlotWithGeneration (nextSlot disk) snapshot (nextGeneration disk) true

/-- The sector writes of `write_object_service_checkpoint`. -/
def checkpointWrites (disk : Disk) (snapshot : ObjectServiceSnapshot) : List SectorWrite :=
  slotImageWrites (nextSlot disk) (nextImage disk snapshot)

/-- `write_object_service_checkpoint` when it is not interrupted: the writes, and the image read back
and decoded. -/
def writeObjectServiceCheckpoint (disk : Disk) (snapshot : ObjectServiceSnapshot) :
    Except GeneralStoragePersistenceError Disk :=
  match decodeSlot (readSlotImage (disk.applyAll (checkpointWrites disk snapshot)) (nextSlot disk)) with
  | .ok _ => .ok (disk.applyAll (checkpointWrites disk snapshot))
  | .error error => .error error

/-- The snapshot as the checkpoint stores it. -/
def checkpointed (disk : Disk) (snapshot : ObjectServiceSnapshot) : ObjectServiceSnapshot :=
  { snapshot with generation := nextGeneration disk }

/-! ### What a slot is read from -/

section Slots

variable {disk disk' : Disk} {slot : CheckpointSlot}

variable {index : ℕ}

/-- A slot is a run of consecutive sectors. -/
theorem sectorForImageIndex_eq (slot : CheckpointSlot) (h : index < slotSectorCount) :
    sectorForImageIndex slot index = (slotLayout slot).headerSector + index := by
  have hall : ∀ index < slotSectorCount,
      sectorForImageIndex slot index = (slotLayout slot).headerSector + index := by
    cases slot <;> decide
  exact hall index h

theorem sectorForImageIndex_inj {index' : ℕ} (h : index < slotSectorCount)
    (h' : index' < slotSectorCount)
    (heq : sectorForImageIndex slot index = sectorForImageIndex slot index') : index = index' := by
  rw [sectorForImageIndex_eq slot h, sectorForImageIndex_eq slot h'] at heq
  omega

theorem sectorForImageIndex_ne_commit (h : index < commitImageIndex) :
    sectorForImageIndex slot index ≠ sectorForImageIndex slot commitImageIndex := fun heq ↦
  h.ne (sectorForImageIndex_inj (h.trans (by decide)) (by decide) heq)

/-- The two slots of the checkpoints share no sector. -/
theorem sectorForImageIndex_ne {index' : ℕ} (h : index < slotSectorCount)
    (h' : index' < slotSectorCount) :
    sectorForImageIndex .a index ≠ sectorForImageIndex .b index' := by
  have hcount : slotSectorCount = 26 := rfl
  rw [sectorForImageIndex_eq .a h, sectorForImageIndex_eq .b h']
  simp only [slotLayout]
  omega

theorem sector_readSlotImage (h : index < slotSectorCount) :
    (readSlotImage disk slot).sectors[index]?.getD Sector.blank = disk (sectorForImageIndex slot index) := by
  simp [readSlotImage, h]

theorem readCommittedSlot_congr
    (h : ∀ index, index < slotSectorCount →
      disk (sectorForImageIndex slot index) = disk' (sectorForImageIndex slot index)) :
    readCommittedSlot disk slot = readCommittedSlot disk' slot := by
  have himage : readSlotImage disk slot = readSlotImage disk' slot :=
    congrArg ObjectServiceSlotImage.mk (congrArg Vector.ofFn (funext fun index ↦ h index index.isLt))
  rw [readCommittedSlot, readCommittedSlot, himage, h 0 (by decide), h commitImageIndex (by decide)]

theorem decodeOrdinarySlot_congr {image image' : ObjectServiceSlotImage}
    (h : AgreeOn image.memory image'.memory 0 (imageOffset commitImageIndex + 16)) :
    decodeOrdinarySlot image = decodeOrdinarySlot image' := by
  unfold decodeOrdinarySlot decodeSlot
  rw [h.readU16 10 (by decide) (by decide), decodeMemory_congr h]

end Slots

/-! ### Committed slots -/

/-- The commit sector begins with the commit record of a generation. -/
def CommitRecord (commit : Sector) (generation : UInt64) : Prop :=
  commit.memory.read 0 8 = commitMagic ∧ commit.memory.readU64 8 = generation

/-- The sectors of an image are in place but for what follows the commit record. -/
structure Written (disk : Disk) (slot : CheckpointSlot) (image : ObjectServiceSlotImage)
    (generation : UInt64) : Prop where
  body : ∀ index, index < commitImageIndex →
    disk (sectorForImageIndex slot index) = image.sectors[index]?.getD Sector.blank
  record : CommitRecord (disk (sectorForImageIndex slot commitImageIndex)) generation

section Committed

variable {disk disk' : Disk} {slot : CheckpointSlot} {snapshot : ObjectServiceSnapshot}
  {generation : UInt64}

theorem slotProbe_of_readCommittedSlot (h : readCommittedSlot disk slot = some snapshot) :
    (disk (sectorForImageIndex slot 0)).memory.read 0 8 = checkpointMagic ∧
      CommitRecord (disk (sectorForImageIndex slot commitImageIndex))
        ((disk (sectorForImageIndex slot 0)).memory.readU64 24) := by
  unfold readCommittedSlot at h
  split_ifs at h with hprobe
  obtain ⟨hheader, hmagic, hgeneration⟩ := of_decide_eq_true hprobe
  exact ⟨hheader, hmagic, hgeneration.symm⟩

/-- The bytes of two commit sectors that hold the same commit record agree on it. -/
theorem CommitRecord.agree {commit commit' : Sector} (h : CommitRecord commit generation)
    (h' : CommitRecord commit' generation) {position : ℕ} (hlt : position < 16) :
    commit.memory position = commit'.memory position := by
  by_cases hmagic : position < 8
  · exact Memory.eq_of_read_eq (h.1.trans h'.1.symm) (Nat.zero_le _) (by omega)
  · have hread : commit.memory.read 8 8 = commit'.memory.read 8 8 := by
      rw [Memory.read_eq_leBytes, Memory.read_eq_leBytes, h.2, h'.2]
    exact Memory.eq_of_read_eq hread (by omega) (by omega)

/-- The sector of an image that the byte at a position belongs to. -/
theorem memory_eq_sector (image : ObjectServiceSlotImage) (position : ℕ) :
    image.memory position =
      (image.sectors[position / sectorSize]?.getD Sector.blank).memory (position % sectorSize) := by
  unfold ObjectServiceSlotImage.memory
  cases image.sectors[position / sectorSize]? with
  | none =>
    rw [Option.getD_none, Sector.memory, Sector.blank, Vector.getElem?_replicate]
    split_ifs <;> rfl
  | some sector => rfl

/-- What is written decodes like the image. -/
theorem Written.agreeOn {image : ObjectServiceSlotImage} (h : Written disk slot image generation)
    (himage : CommitRecord (image.sectors[commitImageIndex]?.getD Sector.blank) generation) :
    AgreeOn (readSlotImage disk slot).memory image.memory 0 (imageOffset commitImageIndex + 16) := by
  intro position _ hhigh
  have hoffset : imageOffset commitImageIndex = 12800 := rfl
  rw [memory_eq_sector, memory_eq_sector]
  by_cases hbody : position / sectorSize < commitImageIndex
  · rw [sector_readSlotImage (hbody.trans (by decide)), h.body _ hbody]
  · have hindex : position / sectorSize = commitImageIndex := by
      simp only [sectorSize, commitImageIndex] at hbody ⊢
      omega
    have hrecord : position % sectorSize < 16 := by
      simp only [sectorSize, commitImageIndex] at hindex ⊢
      omega
    rw [hindex, sector_readSlotImage (by decide)]
    exact h.record.agree himage hrecord

/-- Two slots with the same body that are both committed hold the same snapshot. -/
theorem readCommittedSlot_unique {snapshot' : ObjectServiceSnapshot}
    (hbody : ∀ index, index < commitImageIndex →
      disk (sectorForImageIndex slot index) = disk' (sectorForImageIndex slot index))
    (h : readCommittedSlot disk slot = some snapshot)
    (h' : readCommittedSlot disk' slot = some snapshot') : snapshot = snapshot' := by
  obtain ⟨-, hrecord⟩ := slotProbe_of_readCommittedSlot h
  obtain ⟨-, hrecord'⟩ := slotProbe_of_readCommittedSlot h'
  rw [← hbody 0 (by decide)] at hrecord'
  have hwritten : Written disk slot (readSlotImage disk' slot)
      ((disk (sectorForImageIndex slot 0)).memory.readU64 24) :=
    { body := fun index hindex ↦
        (hbody index hindex).trans (sector_readSlotImage (hindex.trans (by decide))).symm
      record := hrecord }
  have hagree := hwritten.agreeOn (by rwa [sector_readSlotImage (by decide)])
  unfold readCommittedSlot at h h'
  split_ifs at h h'
  rw [decodeOrdinarySlot_congr hagree, h'] at h
  exact (Option.some.inj h).symm

end Committed

/-! ### The image of a checkpoint -/

section Image

variable {disk : Disk} {slot : CheckpointSlot} {snapshot : ObjectServiceSnapshot}
  {generation : UInt64}

/-- A read inside a sector of an image that was cut from a memory. -/
theorem read_sector_ofMemory {memory : Memory} {index offset count : ℕ}
    (hindex : index < slotSectorCount) (h : offset + count ≤ sectorSize) :
    (((ObjectServiceSlotImage.ofMemory memory).sectors[index]?.getD Sector.blank).memory).read
      offset count = memory.read (imageOffset index + offset) count := by
  refine List.map_congr_left fun step hstep ↦ ?_
  have hlt : step < count := List.mem_range.mp hstep
  have hinside : offset + step < sectorSize := by omega
  simp only [ObjectServiceSlotImage.ofMemory, Vector.getElem?_ofFn, hindex, dif_pos,
    Option.getD_some, Sector.memory_ofMemory _ hinside, Nat.add_assoc]

theorem commitRecord_encodeSlot (slot : CheckpointSlot) (snapshot : ObjectServiceSnapshot)
    (generation : UInt64) :
    CommitRecord ((encodeSlotWithGeneration slot snapshot generation true).sectors[commitImageIndex]?.getD
      Sector.blank) generation := by
  constructor
  · refine (read_sector_ofMemory (by decide) (by decide)).trans ?_
    exact (Memory.read_writeU64 _ (by omega)).trans (Memory.read_write_self rfl)
  · refine Memory.readU64_eq ?_
    refine (read_sector_ofMemory (by decide) (by decide)).trans ?_
    exact Memory.read_write_self (length_leBytes 8 _)

section Body

variable (hbody : ∀ index, index < commitImageIndex → disk (sectorForImageIndex slot index) =
  (encodeSlotWithGeneration slot snapshot generation true).sectors[index]?.getD Sector.blank)

include hbody

/-- The header of a slot with the body of a checkpoint. -/
theorem header_of_body :
    (disk (sectorForImageIndex slot 0)).memory.read 0 8 = checkpointMagic ∧
      (disk (sectorForImageIndex slot 0)).memory.readU64 24 = generation := by
  have hagree (position : ℕ) (hlt : position < 80) :
      (disk (sectorForImageIndex slot 0)).memory position =
        uncommittedMemory slot snapshot generation position := by
    have hread : (disk (sectorForImageIndex slot 0)).memory.read 0 80 =
        (encodeMemory slot snapshot generation true).read 0 80 := by
      rw [hbody 0 (by decide)]
      exact read_sector_ofMemory (by decide) (by decide)
    rw [Memory.eq_of_read_eq hread (Nat.zero_le _) (by omega), encodeMemory_of_lt true (by omega)]
  constructor
  · exact read_of_agree hagree (0, checkpointMagic) (by simp [headerFields, headerWrites])
  · exact Memory.readU64_eq (read_of_agree hagree (24, leBytes 8 generation.toNat)
      (by simp [headerFields, headerWrites]))

/-- Such a slot is committed only by the commit record of its generation. -/
theorem record_of_readCommittedSlot {snapshot' : ObjectServiceSnapshot}
    (h : readCommittedSlot disk slot = some snapshot') :
    CommitRecord (disk (sectorForImageIndex slot commitImageIndex)) generation := by
  obtain ⟨-, hgeneration⟩ := header_of_body hbody
  obtain ⟨-, hrecord⟩ := slotProbe_of_readCommittedSlot h
  rwa [hgeneration] at hrecord

end Body

/-- A written checkpoint is read back under its generation. -/
theorem readCommittedSlot_of_written (hslot : isCandidateSlot slot = false)
    (h : Written disk slot (encodeSlotWithGeneration slot snapshot generation true) generation) :
    readCommittedSlot disk slot = some { snapshot with generation } := by
  obtain ⟨hmagic, hgeneration⟩ := header_of_body h.body
  have hprobe : slotProbeIsCommitted (disk (sectorForImageIndex slot 0))
      (disk (sectorForImageIndex slot commitImageIndex)) = true :=
    decide_eq_true ⟨hmagic, h.record.1, hgeneration.trans h.record.2.symm⟩
  have hcode : (encodeSlotWithGeneration slot snapshot generation true).memory.readU16 10 = slotCode slot := by
    have hheader (position : ℕ) (hlt : position < 80) :
        (encodeSlotWithGeneration slot snapshot generation true).memory position =
          uncommittedMemory slot snapshot generation position := by
      rw [← encodeMemory_of_lt true (by omega)]
      exact ObjectServiceSlotImage.memory_ofMemory _ (hlt.trans (by decide))
    exact Memory.readU16_eq (read_of_agree hheader (10, leBytes 2 (slotCode slot).toNat)
      (by simp [headerFields, headerWrites]))
  have hagree := h.agreeOn (commitRecord_encodeSlot slot snapshot generation)
  rw [readCommittedSlot, if_pos hprobe, decodeOrdinarySlot_congr hagree, decodeOrdinarySlot, hcode,
    slotFromCode_slotCode, ok_bind, hslot, decodeSlot_encodeSlotWithGeneration]
  rfl

end Image

/-! ### Interrupted writes -/

section Interruption

variable {disk disk' : Disk} {slot : CheckpointSlot} {image : ObjectServiceSlotImage}

theorem mem_bodyOrder {index : ℕ} : index ∈ bodyOrder ↔ index < commitImageIndex := by
  have hlast : commitImageIndex = 25 := rfl
  simp only [bodyOrder, objectImageIndex, List.mem_append, List.mem_range', List.mem_singleton]
  constructor
  · rintro (⟨step, hstep, rfl⟩ | rfl) <;> omega
  · intro hlt
    by_cases hzero : index = 0
    · exact Or.inr hzero
    · exact Or.inl ⟨index - 1, by omega, by omega⟩

theorem bodyWrite_sector_ne {write : SectorWrite}
    (h : write ∈ bodyOrder.map (imageWrite slot image)) :
    write.sector ≠ sectorForImageIndex slot commitImageIndex := by
  obtain ⟨index, hindex, rfl⟩ := List.mem_map.mp h
  exact sectorForImageIndex_ne_commit (mem_bodyOrder.mp hindex)

/-- Every write of a checkpoint goes to a sector of its slot. -/
theorem sector_of_mem_slotImageWrites {write : SectorWrite} (h : write ∈ slotImageWrites slot image) :
    ∃ index, index < slotSectorCount ∧ write.sector = sectorForImageIndex slot index := by
  rcases List.mem_cons.mp h with rfl | h
  · exact ⟨commitImageIndex, by decide, rfl⟩
  · rcases List.mem_append.mp h with h | h
    · obtain ⟨index, hindex, rfl⟩ := List.mem_map.mp h
      exact ⟨index, (mem_bodyOrder.mp hindex).trans (by decide), rfl⟩
    · obtain rfl := List.mem_singleton.mp h
      exact ⟨commitImageIndex, by decide, rfl⟩

theorem applyAll_body {index : ℕ} (h : index < commitImageIndex) :
    disk.applyAll (bodyOrder.map (imageWrite slot image)) (sectorForImageIndex slot index) =
      image.sectors[index]?.getD Sector.blank := by
  have hnodup : ((bodyOrder.map (imageWrite slot image)).map SectorWrite.sector).Nodup := by
    rw [List.map_map]
    refine List.Nodup.map_on (fun first hfirst second hsecond heq ↦ ?_) (by decide)
    exact sectorForImageIndex_inj ((mem_bodyOrder.mp hfirst).trans (by decide))
      ((mem_bodyOrder.mp hsecond).trans (by decide)) heq
  have hmem : imageWrite slot image index ∈ bodyOrder.map (imageWrite slot image) :=
    List.mem_map_of_mem (mem_bodyOrder.mpr h)
  exact Disk.applyAll_of_mem hnodup hmem

/-- A complete body with a commit record behind it. -/
theorem written_update {commit : Sector} {generation : UInt64} (h : CommitRecord commit generation) :
    Written (Function.update (disk.applyAll (bodyOrder.map (imageWrite slot image)))
      (sectorForImageIndex slot commitImageIndex) commit) slot image generation := by
  refine ⟨fun index hindex ↦ ?_, by rwa [Function.update_self]⟩
  rw [Function.update_of_ne (sectorForImageIndex_ne_commit hindex)]
  exact applyAll_body hindex

/-- An interrupted checkpoint was blanking the commit sector, or has left it blank, or was writing it
behind a complete body. -/
theorem interrupted_cases (h : disk.Interrupted (slotImageWrites slot image) disk') :
    (∃ torn, disk' = Function.update disk (sectorForImageIndex slot commitImageIndex) torn) ∨
      disk' (sectorForImageIndex slot commitImageIndex) = Sector.blank ∨
        ∀ index, index < commitImageIndex →
          disk' (sectorForImageIndex slot index) = image.sectors[index]?.getD Sector.blank := by
  obtain ⟨done, write, rest, torn, hsplit, rfl⟩ := h
  cases done with
  | nil =>
    obtain ⟨rfl, -⟩ := List.cons.inj hsplit
    exact Or.inl ⟨torn, rfl⟩
  | cons first done =>
    have htail : bodyOrder.map (imageWrite slot image) ++ [imageWrite slot image commitImageIndex] =
        done ++ write :: rest := (List.cons.inj hsplit).2
    obtain ⟨rfl, -⟩ := List.cons.inj hsplit
    refine Or.inr ?_
    rcases List.eq_nil_or_concat rest with rfl | ⟨rest, last, rfl⟩
    · obtain ⟨rfl, hwrite⟩ := List.append_inj' htail rfl
      obtain ⟨rfl, -⟩ := List.cons.inj hwrite
      refine Or.inr fun index hindex ↦ ?_
      refine (Function.update_of_ne (sectorForImageIndex_ne_commit hindex) _ _).trans ?_
      rw [Disk.applyAll_cons]
      exact applyAll_body hindex
    · rw [List.concat_eq_append, ← List.cons_append, ← List.append_assoc] at htail
      obtain ⟨hbody, -⟩ := List.append_inj' htail rfl
      have hne (other : SectorWrite) (hother : other ∈ done ++ write :: rest) :
          other.sector ≠ sectorForImageIndex slot commitImageIndex :=
        bodyWrite_sector_ne (hbody ▸ hother)
      refine Or.inl ?_
      rw [Function.update_of_ne (hne write (by simp)).symm, Disk.applyAll_cons]
      refine (Disk.applyAll_of_forall_ne fun other hother ↦
        hne other (List.mem_append_left _ hother)).trans ?_
      exact Function.update_self _ _ _

/-- A slot with a blank commit sector is not committed. -/
theorem readCommittedSlot_of_blank
    (h : disk (sectorForImageIndex slot commitImageIndex) = Sector.blank) :
    readCommittedSlot disk slot = none := by
  cases hread : readCommittedSlot disk slot with
  | none => rfl
  | some snapshot =>
    obtain ⟨-, hmagic, -⟩ := slotProbe_of_readCommittedSlot hread
    rw [h] at hmagic
    exact absurd hmagic (by decide)

end Interruption

/-! ### The choice of the slot -/

def otherSlot : CheckpointSlot → CheckpointSlot
  | .a => .b
  | _ => .a

/-- The checkpoint that is recovered stands in the slot of its parity. -/
def Alternating (disk : Disk) : Prop :=
  ∀ snapshot, recoverCheckpoint disk = some snapshot →
    readCommittedSlot disk (slotForGeneration snapshot.generation) = some snapshot

/-- The next generation is a generation. -/
def HasNext (disk : Disk) : Prop :=
  ∀ snapshot, recoverCheckpoint disk = some snapshot → snapshot.generation.toNat + 1 < 2 ^ 64

section Selection

variable {disk disk' : Disk}

theorem slotForGeneration_cases (generation : UInt64) :
    slotForGeneration generation = .a ∨ slotForGeneration generation = .b := by
  unfold slotForGeneration
  split_ifs <;> simp

theorem slotForGeneration_succ {generation : UInt64} (h : generation.toNat + 1 < 2 ^ 64) :
    slotForGeneration (generation + 1) = otherSlot (slotForGeneration generation) := by
  have hodd (value : UInt64) : value % 2 = 1 ↔ value.toNat % 2 = 1 := by
    rw [← UInt64.toNat_inj, UInt64.toNat_mod]
    rfl
  have hsucc : (generation + 1).toNat = generation.toNat + 1 := by
    rw [UInt64.toNat_add]
    exact Nat.mod_eq_of_lt h
  simp only [slotForGeneration, hodd, hsucc]
  split_ifs <;> first | rfl | omega

theorem isCandidateSlot_slotForGeneration (generation : UInt64) :
    isCandidateSlot (slotForGeneration generation) = false := by
  rcases slotForGeneration_cases generation with h | h <;> rw [h] <;> rfl

variable {snapshot : ObjectServiceSnapshot} {slot : CheckpointSlot}

/-- Recovery returns a generation that no slot exceeds. -/
theorem exists_recover_of_slot (hslot : isCandidateSlot slot = false)
    (h : readCommittedSlot disk slot = some snapshot) :
    ∃ latest, recoverCheckpoint disk = some latest ∧ snapshot.generation ≤ latest.generation := by
  unfold recoverCheckpoint
  cases slot with
  | a =>
    rw [h]
    cases readCommittedSlot disk .b with
    | none => exact ⟨snapshot, rfl, UInt64.le_refl _⟩
    | some second =>
      by_cases hlt : second.generation > snapshot.generation
      · exact ⟨second, if_pos hlt, UInt64.le_of_lt hlt⟩
      · exact ⟨snapshot, if_neg hlt, UInt64.le_refl _⟩
  | b =>
    rw [h]
    cases readCommittedSlot disk .a with
    | none => exact ⟨snapshot, rfl, UInt64.le_refl _⟩
    | some first =>
      by_cases hlt : snapshot.generation > first.generation
      · exact ⟨snapshot, if_pos hlt, UInt64.le_refl _⟩
      · exact ⟨first, if_neg hlt, UInt64.not_lt.mp hlt⟩
  | candidateA | candidateB => cases hslot

theorem lt_nextGeneration {latest : ObjectServiceSnapshot} (hnext : HasNext disk)
    (h : recoverCheckpoint disk = some latest) : latest.generation < nextGeneration disk := by
  have hlt := hnext latest h
  rw [nextGeneration, h, UInt64.lt_iff_toNat_lt, UInt64.toNat_add]
  exact (Nat.lt_succ_self _).trans_eq (Nat.mod_eq_of_lt hlt).symm

/-- The next checkpoint leaves the slot of the last one alone. -/
theorem otherSlot_nextSlot {latest : ObjectServiceSnapshot} (hnext : HasNext disk)
    (h : recoverCheckpoint disk = some latest) :
    otherSlot (nextSlot disk) = slotForGeneration latest.generation := by
  rw [nextSlot, nextGeneration, h, slotForGeneration_succ (hnext latest h)]
  rcases slotForGeneration_cases latest.generation with hslot | hslot <;> rw [hslot] <;> rfl

/-- The slot that the next checkpoint leaves alone holds what recovery returns. -/
theorem readCommittedSlot_otherSlot (halternating : Alternating disk) (hnext : HasNext disk) :
    readCommittedSlot disk (otherSlot (nextSlot disk)) = recoverCheckpoint disk := by
  cases hlatest : recoverCheckpoint disk with
  | none =>
    have hslot : isCandidateSlot (otherSlot (nextSlot disk)) = false := by
      cases nextSlot disk <;> rfl
    cases hread : readCommittedSlot disk (otherSlot (nextSlot disk)) with
    | none => rfl
    | some snapshot =>
      obtain ⟨latest, hsome, -⟩ := exists_recover_of_slot hslot hread
      rw [hlatest] at hsome
      cases hsome
  | some latest => rw [otherSlot_nextSlot hnext hlatest, halternating latest hlatest]

/-- Recovery with one slot that is not committed. -/
theorem recover_of_none (hslot : isCandidateSlot slot = false)
    (h : readCommittedSlot disk slot = none) :
    recoverCheckpoint disk = readCommittedSlot disk (otherSlot slot) := by
  cases slot with
  | a =>
    simp only [recoverCheckpoint, h, otherSlot]
    cases readCommittedSlot disk .b <;> rfl
  | b =>
    simp only [recoverCheckpoint, h, otherSlot]
    cases readCommittedSlot disk .a <;> rfl
  | candidateA | candidateB => cases hslot

/-- Recovery with one slot of a higher generation than the other. -/
theorem recover_of_some (hslot : isCandidateSlot slot = false)
    (h : readCommittedSlot disk slot = some snapshot)
    (hother : ∀ other, readCommittedSlot disk (otherSlot slot) = some other →
      other.generation < snapshot.generation) : recoverCheckpoint disk = some snapshot := by
  unfold recoverCheckpoint
  cases slot with
  | a =>
    rw [h]
    cases hread : readCommittedSlot disk .b with
    | none => rfl
    | some second => exact if_neg (UInt64.not_lt.mpr (UInt64.le_of_lt (hother second hread)))
  | b =>
    rw [h]
    cases hread : readCommittedSlot disk .a with
    | none => rfl
    | some first => exact if_pos (hother first hread)
  | candidateA | candidateB => cases hslot

end Selection

/-! ### One checkpoint -/

/-- The disk holds the checkpoint, but for what follows the commit record. -/
def Stored (disk : Disk) (snapshot : ObjectServiceSnapshot) (disk' : Disk) : Prop :=
  Written disk' (nextSlot disk) (nextImage disk snapshot) (nextGeneration disk)

/-- The blanking of the commit sector, when it is what was interrupted, does not itself commit an image
that an earlier checkpoint left without its commit record, unless it is the image of this one or of a lower
generation than the last checkpoint. -/
def NoRevival (disk : Disk) (snapshot : ObjectServiceSnapshot) (disk' : Disk) : Prop :=
  ∀ torn stale,
    disk' = Function.update disk (sectorForImageIndex (nextSlot disk) commitImageIndex) torn →
      readCommittedSlot disk (nextSlot disk) = none →
        readCommittedSlot disk' (nextSlot disk) = some stale → Stored disk snapshot disk' ∨
          ∃ latest, recoverCheckpoint disk = some latest ∧ stale.generation < latest.generation

/-- The slot of the checkpoint holds nothing, what it held, or a generation below the last one. -/
def Harmless (disk disk' : Disk) : Prop :=
  readCommittedSlot disk' (nextSlot disk) = none ∨
    readCommittedSlot disk' (nextSlot disk) = readCommittedSlot disk (nextSlot disk) ∨
      ∃ latest stale, recoverCheckpoint disk = some latest ∧
        readCommittedSlot disk' (nextSlot disk) = some stale ∧ stale.generation < latest.generation

section Checkpoint

variable {disk disk' : Disk} {snapshot : ObjectServiceSnapshot}

theorem isCandidateSlot_nextSlot (disk : Disk) : isCandidateSlot (nextSlot disk) = false :=
  isCandidateSlot_slotForGeneration _

theorem Stored.readCommittedSlot (h : Stored disk snapshot disk') :
    readCommittedSlot disk' (nextSlot disk) = some (checkpointed disk snapshot) :=
  readCommittedSlot_of_written (isCandidateSlot_nextSlot disk) h

/-- The other slot is as it was before the checkpoint. -/
theorem readCommittedSlot_otherSlot_congr
    (h : ∀ sector, (∀ write ∈ checkpointWrites disk snapshot, write.sector ≠ sector) →
      disk' sector = disk sector) :
    readCommittedSlot disk' (otherSlot (nextSlot disk)) =
      readCommittedSlot disk (otherSlot (nextSlot disk)) := by
  refine readCommittedSlot_congr fun index hindex ↦ h _ fun write hwrite ↦ ?_
  obtain ⟨index', hindex', hsector⟩ := sector_of_mem_slotImageWrites hwrite
  rcases slotForGeneration_cases (nextGeneration disk) with hslot | hslot <;>
    rw [hsector, nextSlot, hslot]
  · exact sectorForImageIndex_ne hindex' hindex
  · exact (sectorForImageIndex_ne hindex hindex').symm

/-- What an interrupted checkpoint leaves in its slot. -/
theorem slot_of_interrupted
    (hrun : disk.Interrupted (checkpointWrites disk snapshot) disk')
    (hrevival : NoRevival disk snapshot disk') :
    Stored disk snapshot disk' ∨ ¬ Stored disk snapshot disk' ∧ Harmless disk disk' := by
  by_cases hstored : Stored disk snapshot disk'
  · exact Or.inl hstored
  refine Or.inr ⟨hstored, ?_⟩
  rcases interrupted_cases hrun with ⟨torn, hblanking⟩ | hblank | hbody
  · cases hread' : readCommittedSlot disk' (nextSlot disk) with
    | none => exact Or.inl hread'
    | some snapshot' =>
      cases hread : readCommittedSlot disk (nextSlot disk) with
      | none =>
        obtain ⟨latest, hlatest, hlt⟩ := (hrevival torn snapshot' hblanking hread hread').resolve_left hstored
        exact Or.inr (Or.inr ⟨latest, snapshot', hlatest, hread', hlt⟩)
      | some old =>
        refine Or.inr (Or.inl ?_)
        rw [hread, hread', readCommittedSlot_unique (fun index hindex ↦ ?_) hread hread']
        rw [hblanking, Function.update_of_ne (sectorForImageIndex_ne_commit hindex)]
  · exact Or.inl (readCommittedSlot_of_blank hblank)
  · cases hread' : readCommittedSlot disk' (nextSlot disk) with
    | none => exact Or.inl hread'
    | some snapshot' => exact absurd ⟨hbody, record_of_readCommittedSlot hbody hread'⟩ hstored

section

variable (halternating : Alternating disk) (hnext : HasNext disk)
  (hother : readCommittedSlot disk' (otherSlot (nextSlot disk)) =
    readCommittedSlot disk (otherSlot (nextSlot disk)))

include halternating hnext hother

/-- The slots after a checkpoint that is stored. -/
theorem recover_of_stored (hstored : Stored disk snapshot disk') :
    recoverCheckpoint disk' = some (checkpointed disk snapshot) := by
  refine recover_of_some (isCandidateSlot_nextSlot disk) hstored.readCommittedSlot fun other hread ↦ ?_
  rw [hother, readCommittedSlot_otherSlot halternating hnext] at hread
  exact lt_nextGeneration hnext hread

/-- The slots after a checkpoint that is not stored. -/
theorem recover_of_harmless (hslot : Harmless disk disk') :
    recoverCheckpoint disk' = recoverCheckpoint disk := by
  rcases hslot with hnone | hsame | ⟨latest, stale, hlatest, hstale, hlt⟩
  · rw [recover_of_none (isCandidateSlot_nextSlot disk) hnone, hother,
      readCommittedSlot_otherSlot halternating hnext]
  · unfold recoverCheckpoint
    rcases slotForGeneration_cases (nextGeneration disk) with hslot | hslot <;>
      simp only [nextSlot, hslot, otherSlot] at hsame hother <;> rw [hsame, hother]
  · rw [readCommittedSlot_otherSlot halternating hnext, hlatest] at hother
    rw [hlatest]
    rcases slotForGeneration_cases (nextGeneration disk) with hslot | hslot <;>
      simp only [nextSlot, hslot, otherSlot] at hstale hother <;>
      exact recover_of_some rfl hother fun other hread ↦ Option.some.inj (hstale.symm.trans hread) ▸ hlt

/-- What is recovered still stands in the slot of its parity. -/
theorem alternating_of_stored (hstored : Stored disk snapshot disk') : Alternating disk' := by
  intro found hfound
  rw [recover_of_stored halternating hnext hother hstored] at hfound
  obtain rfl := Option.some.inj hfound
  exact hstored.readCommittedSlot

theorem alternating_of_harmless (hslot : Harmless disk disk') : Alternating disk' := by
  intro found hfound
  rw [recover_of_harmless halternating hnext hother hslot] at hfound
  rw [← otherSlot_nextSlot hnext hfound, hother, readCommittedSlot_otherSlot halternating hnext, hfound]

end

theorem written_applyAll (slot : CheckpointSlot) (snapshot : ObjectServiceSnapshot)
    (generation : UInt64) :
    Written (disk.applyAll
      (slotImageWrites slot (encodeSlotWithGeneration slot snapshot generation true))) slot
      (encodeSlotWithGeneration slot snapshot generation true) generation := by
  rw [slotImageWrites, Disk.applyAll_cons, Disk.applyAll_append]
  exact written_update (commitRecord_encodeSlot slot snapshot generation)

theorem stored_applyAll (disk : Disk) (snapshot : ObjectServiceSnapshot) :
    Stored disk snapshot (disk.applyAll (checkpointWrites disk snapshot)) :=
  written_applyAll (nextSlot disk) snapshot (nextGeneration disk)

/-- What is read back behind the writes of a checkpoint is the checkpoint. -/
theorem decodeSlot_applyAll (disk : Disk) (snapshot : ObjectServiceSnapshot) :
    decodeSlot (readSlotImage (disk.applyAll (checkpointWrites disk snapshot)) (nextSlot disk)) =
      .ok (checkpointed disk snapshot) := by
  have hagree := Written.agreeOn (stored_applyAll disk snapshot) (commitRecord_encodeSlot _ _ _)
  exact (decodeMemory_congr hagree).trans
    (decodeSlot_encodeSlotWithGeneration (nextSlot disk) snapshot (nextGeneration disk))

/-- A checkpoint that is not interrupted is stored, and is read back. -/
theorem writeObjectServiceCheckpoint_eq_ok (disk : Disk) (snapshot : ObjectServiceSnapshot) :
    writeObjectServiceCheckpoint disk snapshot =
        .ok (disk.applyAll (checkpointWrites disk snapshot)) ∧
      Stored disk snapshot (disk.applyAll (checkpointWrites disk snapshot)) := by
  refine ⟨?_, stored_applyAll disk snapshot⟩
  unfold writeObjectServiceCheckpoint
  rw [decodeSlot_applyAll]

end Checkpoint

/-! ### Runs -/

/-- The disks that completed and interrupted checkpoints lead to, each with the checkpoint that is the
last to be completed or to have had its commit record written. -/
inductive CheckpointRun (start : Disk) : Disk → Option ObjectServiceSnapshot → Prop
  | start : CheckpointRun start start (recoverCheckpoint start)
  | completed {disk disk' : Disk} {latest : Option ObjectServiceSnapshot}
      {snapshot : ObjectServiceSnapshot} (run : CheckpointRun start disk latest)
      (hnext : HasNext disk) (hwrite : writeObjectServiceCheckpoint disk snapshot = .ok disk') :
      CheckpointRun start disk' (some (checkpointed disk snapshot))
  | committed {disk disk' : Disk} {latest : Option ObjectServiceSnapshot}
      {snapshot : ObjectServiceSnapshot} (run : CheckpointRun start disk latest)
      (hnext : HasNext disk) (hrun : disk.Interrupted (checkpointWrites disk snapshot) disk')
      (hstored : Stored disk snapshot disk') :
      CheckpointRun start disk' (some (checkpointed disk snapshot))
  | abandoned {disk disk' : Disk} {latest : Option ObjectServiceSnapshot}
      {snapshot : ObjectServiceSnapshot} (run : CheckpointRun start disk latest)
      (hnext : HasNext disk) (hrun : disk.Interrupted (checkpointWrites disk snapshot) disk')
      (hrevival : NoRevival disk snapshot disk') (hstored : ¬ Stored disk snapshot disk') :
      CheckpointRun start disk' latest

namespace CheckpointRun

variable {start disk : Disk} {latest : Option ObjectServiceSnapshot}

/-- Along a run the slots alternate, and recovery returns the last checkpoint. -/
theorem alternating_and_recover (halternating : Alternating start)
    (run : CheckpointRun start disk latest) :
    Alternating disk ∧ recoverCheckpoint disk = latest := by
  induction run with
  | start => exact ⟨halternating, rfl⟩
  | @completed disk disk' latest snapshot run hnext hwrite ih =>
    obtain ⟨hok, hstored⟩ := writeObjectServiceCheckpoint_eq_ok disk snapshot
    obtain rfl := Except.ok.inj (hok.symm.trans hwrite)
    have hother : readCommittedSlot (disk.applyAll (checkpointWrites disk snapshot))
        (otherSlot (nextSlot disk)) = readCommittedSlot disk (otherSlot (nextSlot disk)) :=
      readCommittedSlot_otherSlot_congr fun _ ↦ Disk.applyAll_of_forall_ne
    exact ⟨alternating_of_stored ih.1 hnext hother hstored, recover_of_stored ih.1 hnext hother hstored⟩
  | @committed disk disk' latest snapshot run hnext hrun hstored ih =>
    have hother := readCommittedSlot_otherSlot_congr fun _ ↦ hrun.of_forall_ne
    exact ⟨alternating_of_stored ih.1 hnext hother hstored, recover_of_stored ih.1 hnext hother hstored⟩
  | @abandoned disk disk' latest snapshot run hnext hrun hrevival hstored ih =>
    have hother := readCommittedSlot_otherSlot_congr fun _ ↦ hrun.of_forall_ne
    rcases slot_of_interrupted hrun hrevival with hyes | ⟨-, hslot⟩
    · exact absurd hyes hstored
    · exact ⟨alternating_of_harmless ih.1 hnext hother hslot,
        (recover_of_harmless ih.1 hnext hother hslot).trans ih.2⟩

/-- After any completed and interrupted checkpoints, recovery returns the last of them that was completed
or had its commit record written; and an interruption of one more checkpoint leaves that one or the new
one, the new one exactly when all of its sectors are in place up to the commit record. -/
theorem crash_atomic (halternating : Alternating start) (run : CheckpointRun start disk latest) :
    recoverCheckpoint disk = latest ∧
      ∀ (snapshot : ObjectServiceSnapshot) (disk' : Disk), HasNext disk →
        disk.Interrupted (checkpointWrites disk snapshot) disk' → NoRevival disk snapshot disk' →
          (recoverCheckpoint disk' = latest ∨
            recoverCheckpoint disk' = some (checkpointed disk snapshot)) ∧
          (recoverCheckpoint disk' = some (checkpointed disk snapshot) ↔
            Stored disk snapshot disk') := by
  obtain ⟨hslots, hlatest⟩ := run.alternating_and_recover halternating
  refine ⟨hlatest, fun snapshot disk' hnext hrun hrevival ↦ ?_⟩
  have hother := readCommittedSlot_otherSlot_congr fun _ ↦ hrun.of_forall_ne
  rcases slot_of_interrupted hrun hrevival with hstored | ⟨hstored, hslot⟩
  · have hnew := recover_of_stored hslots hnext hother hstored
    exact ⟨Or.inr hnew, fun _ ↦ hstored, fun _ ↦ hnew⟩
  · have hold := recover_of_harmless hslots hnext hother hslot
    refine ⟨Or.inl (hold.trans hlatest), fun hnew ↦ ?_, fun h ↦ absurd h hstored⟩
    have hlt := lt_nextGeneration hnext (hold.symm.trans hnew)
    exact absurd hlt (UInt64.lt_irrefl _)

end CheckpointRun

/-! ### A torn commit sector -/

def ObjectServiceSnapshot.empty : ObjectServiceSnapshot where
  generation := 0
  allocatedBitmap := 0
  objects := Table.empty
  workspaceRelationships := Table.empty
  currentRevisions := Table.empty
  priorRevisions := Table.empty

def blankDisk : Disk := fun _ ↦ Sector.blank

/-- The commit sector of the next checkpoint. -/
def nextCommit (disk : Disk) (snapshot : ObjectServiceSnapshot) : Sector :=
  (nextImage disk snapshot).sectors[commitImageIndex]?.getD Sector.blank

/-- The same commit record, followed by other bytes. -/
def tornCommit (disk : Disk) (snapshot : ObjectServiceSnapshot) : Sector :=
  Sector.ofMemory fun position ↦
    if position < 16 then (nextCommit disk snapshot).memory position
    else (nextCommit disk snapshot).memory position + 1

/-- The next checkpoint, interrupted while it writes its commit sector. -/
def tornDisk (disk : Disk) (snapshot : ObjectServiceSnapshot) : Disk :=
  Function.update
    ((disk.apply ⟨sectorForImageIndex (nextSlot disk) commitImageIndex, Sector.blank⟩).applyAll
      (bodyOrder.map (imageWrite (nextSlot disk) (nextImage disk snapshot))))
    (sectorForImageIndex (nextSlot disk) commitImageIndex) (tornCommit disk snapshot)

section Torn

variable (disk : Disk) (snapshot : ObjectServiceSnapshot)

theorem tornDisk_interrupted :
    disk.Interrupted (checkpointWrites disk snapshot) (tornDisk disk snapshot) :=
  ⟨⟨sectorForImageIndex (nextSlot disk) commitImageIndex, Sector.blank⟩ ::
      bodyOrder.map (imageWrite (nextSlot disk) (nextImage disk snapshot)),
    imageWrite (nextSlot disk) (nextImage disk snapshot) commitImageIndex, [], tornCommit disk snapshot,
    rfl, rfl⟩

theorem tornCommit_record : CommitRecord (tornCommit disk snapshot) (nextGeneration disk) := by
  have hagree : AgreeOn (tornCommit disk snapshot).memory (nextCommit disk snapshot).memory 0 16 := by
    intro position _ hlt
    have hsize : sectorSize = 512 := rfl
    rw [tornCommit, Sector.memory_ofMemory _ (by omega), if_pos (by omega)]
  have hrecord : CommitRecord (nextCommit disk snapshot) (nextGeneration disk) :=
    commitRecord_encodeSlot _ _ _
  exact ⟨(hagree.read 0 8 (by omega) (by omega)).trans hrecord.1,
    (hagree.readU64 8 (by omega) (by omega)).trans hrecord.2⟩

theorem tornDisk_stored : Stored disk snapshot (tornDisk disk snapshot) :=
  written_update (tornCommit_record disk snapshot)

end Torn

theorem readCommittedSlot_blankDisk (slot : CheckpointSlot) : readCommittedSlot blankDisk slot = none :=
  readCommittedSlot_of_blank rfl

theorem recoverCheckpoint_blankDisk : recoverCheckpoint blankDisk = none := by
  rw [recoverCheckpoint, readCommittedSlot_blankDisk, readCommittedSlot_blankDisk]
  rfl

theorem alternating_blankDisk : Alternating blankDisk := by
  intro snapshot hread
  rw [recoverCheckpoint_blankDisk] at hread
  cases hread

theorem hasNext_blankDisk : HasNext blankDisk := by
  intro snapshot hread
  rw [recoverCheckpoint_blankDisk] at hread
  cases hread

/-- A blank disk after its first checkpoint. -/
def firstDisk : Disk := blankDisk.applyAll (checkpointWrites blankDisk .empty)

theorem firstDisk_run : CheckpointRun blankDisk firstDisk (some (checkpointed blankDisk .empty)) :=
  .completed .start hasNext_blankDisk (writeObjectServiceCheckpoint_eq_ok blankDisk .empty).1

theorem hasNext_firstDisk : HasNext firstDisk := by
  intro snapshot hread
  rw [(firstDisk_run.alternating_and_recover alternating_blankDisk).2] at hread
  obtain rfl := Option.some.inj hread
  show (nextGeneration blankDisk).toNat + 1 < 2 ^ 64
  rw [nextGeneration, recoverCheckpoint_blankDisk]
  decide

/-- A snapshot that differs from the empty one. -/
def laterSnapshot : ObjectServiceSnapshot := { ObjectServiceSnapshot.empty with allocatedBitmap := 1 }

/-- After a first checkpoint, the torn commit sector of a second one is enough for that to be recovered. -/
theorem tornDisk_recovered : recoverCheckpoint firstDisk = some (checkpointed blankDisk .empty) ∧
    recoverCheckpoint (tornDisk firstDisk laterSnapshot) = some (checkpointed firstDisk laterSnapshot) := by
  obtain ⟨hfirst, hnext⟩ := CheckpointRun.crash_atomic alternating_blankDisk firstDisk_run
  have hstored := tornDisk_stored firstDisk laterSnapshot
  exact ⟨hfirst, (hnext laterSnapshot _ hasNext_firstDisk (tornDisk_interrupted firstDisk laterSnapshot)
    fun _ _ _ _ _ ↦ Or.inl hstored).2.mpr hstored⟩

/-! ### Disks that no checkpoint leaves behind -/

/-- A disk with a checkpoint of an even generation in the slot of the odd ones. -/
def misplacedDisk : Disk :=
  blankDisk.applyAll (slotImageWrites .a (encodeSlotWithGeneration .a .empty 2 true))

/-- That disk after an interruption of its next checkpoint, which has blanked the commit sector. -/
def overwrittenDisk : Disk :=
  Function.update (misplacedDisk.apply ⟨sectorForImageIndex .a commitImageIndex, Sector.blank⟩)
    (sectorForImageIndex .a 1) Sector.blank

theorem readCommittedSlot_b {disk : Disk}
    (h : ∀ sector, (∀ index, index < slotSectorCount → sectorForImageIndex .a index ≠ sector) →
      disk sector = Sector.blank) : readCommittedSlot disk .b = none :=
  readCommittedSlot_of_blank (h _ fun _ hindex ↦ sectorForImageIndex_ne hindex (by decide))

theorem misplacedDisk_blank (sector : ℕ) (h : ∀ index, index < slotSectorCount →
    sectorForImageIndex .a index ≠ sector) : misplacedDisk sector = Sector.blank := by
  refine (Disk.applyAll_of_forall_ne fun write hwrite ↦ ?_).trans rfl
  obtain ⟨index, hindex, hsector⟩ := sector_of_mem_slotImageWrites hwrite
  exact hsector ▸ h index hindex

theorem recoverCheckpoint_misplacedDisk :
    recoverCheckpoint misplacedDisk = some { ObjectServiceSnapshot.empty with generation := 2 } := by
  have hread : readCommittedSlot misplacedDisk .a =
      some { ObjectServiceSnapshot.empty with generation := 2 } :=
    readCommittedSlot_of_written rfl (written_applyAll .a .empty 2)
  rw [recoverCheckpoint, hread, readCommittedSlot_b misplacedDisk_blank]
  rfl

theorem nextSlot_misplacedDisk : nextSlot misplacedDisk = .a := by
  rw [nextSlot, nextGeneration, recoverCheckpoint_misplacedDisk]
  rfl

/-- The next checkpoint of that disk blanks the only one there is. -/
theorem recoverCheckpoint_overwrittenDisk : recoverCheckpoint overwrittenDisk = none := by
  have hfirst : readCommittedSlot overwrittenDisk .a = none := by
    refine readCommittedSlot_of_blank ?_
    rw [overwrittenDisk, Function.update_of_ne (by decide)]
    exact Function.update_self _ _ _
  have hsecond : readCommittedSlot overwrittenDisk .b = none := by
    refine readCommittedSlot_b fun sector hsector ↦ ?_
    rw [overwrittenDisk, Function.update_of_ne (hsector 1 (by decide)).symm]
    refine (Function.update_of_ne (hsector commitImageIndex (by decide)).symm _ _).trans ?_
    exact misplacedDisk_blank sector hsector
  rw [recoverCheckpoint, hfirst, hsecond]
  rfl

theorem overwrittenDisk_interrupted :
    misplacedDisk.Interrupted (checkpointWrites misplacedDisk .empty) overwrittenDisk := by
  rw [checkpointWrites, nextSlot_misplacedDisk]
  exact ⟨[⟨sectorForImageIndex .a commitImageIndex, Sector.blank⟩],
    imageWrite .a (nextImage misplacedDisk .empty) 1, _, Sector.blank, rfl, rfl⟩

/-- A disk whose first checkpoint was interrupted before its commit sector was written. -/
def abandonedDisk : Disk :=
  blankDisk.applyAll (bodyOrder.map (imageWrite .a (encodeSlotWithGeneration .a .empty 1 true)))

/-- That disk after an interruption of its next checkpoint, which has left a commit record where it was
blanking the commit sector. -/
def revivedDisk : Disk :=
  Function.update abandonedDisk (sectorForImageIndex .a commitImageIndex)
    ((encodeSlotWithGeneration .a .empty 1 true).sectors[commitImageIndex]?.getD Sector.blank)

theorem abandonedDisk_blank (sector : ℕ)
    (h : ∀ index, index < commitImageIndex → sectorForImageIndex .a index ≠ sector) :
    abandonedDisk sector = Sector.blank := by
  refine (Disk.applyAll_of_forall_ne fun write hwrite ↦ ?_).trans rfl
  obtain ⟨index, hindex, rfl⟩ := List.mem_map.mp hwrite
  exact h index (mem_bodyOrder.mp hindex)

theorem recoverCheckpoint_abandonedDisk : recoverCheckpoint abandonedDisk = none := by
  have hfirst : readCommittedSlot abandonedDisk .a = none :=
    readCommittedSlot_of_blank (abandonedDisk_blank _ fun _ ↦ sectorForImageIndex_ne_commit)
  have hsecond : readCommittedSlot abandonedDisk .b = none :=
    readCommittedSlot_b fun sector hsector ↦
      abandonedDisk_blank sector fun index hindex ↦ hsector index (hindex.trans (by decide))
  rw [recoverCheckpoint, hfirst, hsecond]
  rfl

theorem revivedDisk_interrupted :
    abandonedDisk.Interrupted (checkpointWrites abandonedDisk laterSnapshot) revivedDisk := by
  have hslot : nextSlot abandonedDisk = .a := by
    rw [nextSlot, nextGeneration, recoverCheckpoint_abandonedDisk]
    rfl
  rw [checkpointWrites, hslot]
  exact ⟨[], ⟨sectorForImageIndex .a commitImageIndex, Sector.blank⟩, _, _, rfl, rfl⟩

/-- The abandoned checkpoint is recovered, and not the new one. -/
theorem recoverCheckpoint_revivedDisk :
    recoverCheckpoint revivedDisk = some { ObjectServiceSnapshot.empty with generation := 1 } := by
  have hwritten : Written revivedDisk .a (encodeSlotWithGeneration .a .empty 1 true) 1 :=
    written_update (commitRecord_encodeSlot .a .empty 1)
  have hsecond : readCommittedSlot revivedDisk .b = none := by
    refine readCommittedSlot_b fun sector hsector ↦ ?_
    rw [revivedDisk, Function.update_of_ne (hsector commitImageIndex (by decide)).symm]
    exact abandonedDisk_blank sector fun index hindex ↦ hsector index (hindex.trans (by decide))
  rw [recoverCheckpoint, readCommittedSlot_of_written rfl hwritten, hsecond]
  rfl

/-- Three interruptions that recovery does not take as expected: the new checkpoint is recovered although
its commit sector does not hold its new content; a checkpoint in the slot of the wrong parity is lost; and
an abandoned checkpoint is recovered in the place of the new one. -/
theorem interruptions_not_atomic :
    (recoverCheckpoint blankDisk = none ∧
      blankDisk.Interrupted (checkpointWrites blankDisk .empty) (tornDisk blankDisk .empty) ∧
        recoverCheckpoint (tornDisk blankDisk .empty) = some (checkpointed blankDisk .empty) ∧
          tornDisk blankDisk .empty (sectorForImageIndex (nextSlot blankDisk) commitImageIndex) ≠
            (nextImage blankDisk .empty).sectors[commitImageIndex]?.getD Sector.blank) ∧
      (recoverCheckpoint misplacedDisk ≠ none ∧
        misplacedDisk.Interrupted (checkpointWrites misplacedDisk .empty) overwrittenDisk ∧
          recoverCheckpoint overwrittenDisk = none) ∧
        (recoverCheckpoint abandonedDisk = none ∧
          abandonedDisk.Interrupted (checkpointWrites abandonedDisk laterSnapshot) revivedDisk ∧
            recoverCheckpoint revivedDisk ≠ none ∧
              recoverCheckpoint revivedDisk ≠ some (checkpointed abandonedDisk laterSnapshot)) := by
  have hother := readCommittedSlot_otherSlot_congr fun _ ↦
    (tornDisk_interrupted blankDisk .empty).of_forall_ne
  refine ⟨⟨recoverCheckpoint_blankDisk, tornDisk_interrupted _ _,
    recover_of_stored alternating_blankDisk hasNext_blankDisk hother (tornDisk_stored _ _), fun heq ↦ ?_⟩,
    ⟨?_, overwrittenDisk_interrupted, recoverCheckpoint_overwrittenDisk⟩,
    recoverCheckpoint_abandonedDisk, revivedDisk_interrupted, ?_, ?_⟩
  · rw [tornDisk, Function.update_self] at heq
    have hbyte : (nextCommit blankDisk .empty).memory 16 + 1 = (nextCommit blankDisk .empty).memory 16 :=
      calc (nextCommit blankDisk .empty).memory 16 + 1 = (tornCommit blankDisk .empty).memory 16 := by
            rw [tornCommit, Sector.memory_ofMemory _ (by decide), if_neg (by decide)]
        _ = (nextCommit blankDisk .empty).memory 16 :=
            congrArg (fun sector : Sector ↦ sector.memory 16) heq
    have hone : (1 : UInt8) = 0 := by
      rwa [UInt8.add_eq_left] at hbyte
    exact absurd hone (by decide)
  · rw [recoverCheckpoint_misplacedDisk]
    exact Option.some_ne_none _
  · rw [recoverCheckpoint_revivedDisk]
    exact Option.some_ne_none _
  · rw [recoverCheckpoint_revivedDisk]
    intro heq
    have hbitmap := congrArg (Option.map ObjectServiceSnapshot.allocatedBitmap) heq
    exact absurd hbitmap (by simp [ObjectServiceSnapshot.empty, checkpointed, laterSnapshot])

end Pythos.Core
