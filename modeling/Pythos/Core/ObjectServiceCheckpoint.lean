import Pythos.Core.ObjectService
import Pythos.Foundation.Disk

/-!
# The checkpoint image of the object service

A checkpoint slot is an image of twenty-six sectors: a header, the tables of objects, relationships and
revisions, and a commit sector. The image is built in a byte memory and cut into its sectors, and it is
read through the memory of its sectors. What is encoded is decoded again, for every snapshot, slot and
generation.
-/

namespace Pythos.Core

open Foundation Shared

/-! ### Layout -/

inductive GeneralStoragePersistenceError
  | objectFormat (error : ObjectFormatError)
  | badSnapshot
  | tornWrite
  deriving DecidableEq, Repr

inductive CheckpointSlot
  | a
  | b
  | candidateA
  | candidateB
  deriving DecidableEq, Repr

structure SlotLayout where
  headerSector : ℕ
  objectTableSector : ℕ
  relationshipTableSector : ℕ
  revisionTableSector : ℕ
  commitSector : ℕ
  deriving DecidableEq, Repr

/-- The layouts of the four slots. The candidate slots lie behind the package content, which ends before
sector `256 + 8192`. -/
def slotLayout : CheckpointSlot → SlotLayout
  | .a => ⟨192, 193, 201, 205, 217⟩
  | .b => ⟨224, 225, 233, 237, 249⟩
  | .candidateA => ⟨8448, 8449, 8457, 8461, 8473⟩
  | .candidateB => ⟨8474, 8475, 8483, 8487, 8499⟩

def slotCode : CheckpointSlot → UInt16
  | .a => 0
  | .b => 1
  | .candidateA => 2
  | .candidateB => 3

def slotFromCode (code : UInt16) : Except GeneralStoragePersistenceError CheckpointSlot :=
  if code = 0 then .ok .a
  else if code = 1 then .ok .b
  else if code = 2 then .ok .candidateA
  else if code = 3 then .ok .candidateB
  else .error .badSnapshot

@[simp] theorem slotFromCode_slotCode (slot : CheckpointSlot) : slotFromCode (slotCode slot) = .ok slot := by
  cases slot <;> rfl

def objectImageIndex : ℕ := 1
def relationshipImageIndex : ℕ := 9
def revisionImageIndex : ℕ := 13
def commitImageIndex : ℕ := 25
def slotSectorCount : ℕ := 26

/-- The offset of a sector of the image. -/
def imageOffset (imageIndex : ℕ) : ℕ := imageIndex * sectorSize

def imageSize : ℕ := imageOffset slotSectorCount

structure ObjectServiceSlotImage where
  sectors : Vector Sector slotSectorCount
  deriving DecidableEq

namespace ObjectServiceSlotImage

/-- The bytes of the image, sector after sector. -/
def memory (image : ObjectServiceSlotImage) : Memory := fun position ↦
  match image.sectors[position / sectorSize]? with
  | some sector => sector.memory (position % sectorSize)
  | none => 0

def ofMemory (memory : Memory) : ObjectServiceSlotImage where
  sectors := Vector.ofFn fun index ↦ Sector.ofMemory fun position ↦
    memory (imageOffset index + position)

theorem memory_ofMemory (memory : Memory) {position : ℕ} (h : position < imageSize) :
    (ofMemory memory).memory position = memory position := by
  have hsector : position / sectorSize < slotSectorCount := Nat.div_lt_of_lt_mul (by
    rw [Nat.mul_comm]
    exact h)
  have hoffset : position % sectorSize < sectorSize := Nat.mod_lt _ (by decide)
  simp only [ObjectServiceSlotImage.memory, ofMemory, Vector.getElem?_ofFn, hsector, dif_pos,
    Sector.memory_ofMemory _ hoffset, imageOffset]
  rw [Nat.div_add_mod']

end ObjectServiceSlotImage

/-! ### Records -/

def activeRecord : UInt16 := 1

/-- `table_write_u16` in a table that ends at a limit. -/
def tableWriteU16 (limit : ℕ) (memory : Memory) (offset : ℕ) (value : UInt16) : Memory :=
  Memory.writeBelow limit memory offset (leBytes 2 value.toNat)

def tableWriteU64 (limit : ℕ) (memory : Memory) (offset : ℕ) (value : UInt64) : Memory :=
  Memory.writeBelow limit memory offset (leBytes 8 value.toNat)

/-- `TypedObjectRecord::decode(..)?` on a run of the image. -/
def readObject (memory : Memory) (offset : ℕ) :
    Except GeneralStoragePersistenceError TypedObjectRecord :=
  match TypedObjectRecord.decode (memory.read offset recordSize) with
  | .ok object => .ok object
  | .error error => .error (.objectFormat error)

/-- The record of a run whose first word says whether it is active. -/
def readActive {α : Type} (read : Memory → ℕ → Except GeneralStoragePersistenceError α)
    (memory : Memory) (offset : ℕ) : Except GeneralStoragePersistenceError (Option α) :=
  if memory.readU16 offset = 0 then .ok none
  else if memory.readU16 offset ≠ activeRecord then .error .badSnapshot
  else
    match read memory offset with
    | .ok record => .ok (some record)
    | .error error => .error error

def objectTableLimit : ℕ := imageOffset relationshipImageIndex
def relationshipTableLimit : ℕ := imageOffset revisionImageIndex
def revisionTableLimit : ℕ := imageOffset commitImageIndex

def objectFormat : RecordFormat GeneralStoragePersistenceError ObjectExtentRecord where
  size := 152
  write memory offset record :=
    Memory.writeBelow objectTableLimit
      (tableWriteU16 objectTableLimit
        (tableWriteU64 objectTableLimit
          (tableWriteU16 objectTableLimit memory offset activeRecord)
          (offset + 8) record.extentStart)
        (offset + 16) record.extentLen)
      (offset + 24) record.object.encode
  read := readActive fun memory offset ↦
    match readObject memory (offset + 24) with
    | .ok object =>
      .ok ⟨memory.readU64 (offset + 8), memory.readU16 (offset + 16), object⟩
    | .error error => .error error

def relationshipFormat :
    RecordFormat GeneralStoragePersistenceError WorkspaceRelationshipRecord where
  size := 24
  write memory offset record :=
    tableWriteU64 relationshipTableLimit
      (tableWriteU64 relationshipTableLimit
        (tableWriteU16 relationshipTableLimit memory offset activeRecord)
        (offset + 8) record.objectId.raw)
      (offset + 16) record.workspaceId.raw
  read := readActive fun memory offset ↦
    .ok ⟨⟨memory.readU64 (offset + 8)⟩, ⟨memory.readU64 (offset + 16)⟩⟩

/-- `encode_revision` and `decode_revision`. -/
def revisionFormat : RecordFormat GeneralStoragePersistenceError RevisionRecord where
  size := 160
  write memory offset record :=
    Memory.writeBelow revisionTableLimit
      (tableWriteU64 revisionTableLimit
        (tableWriteU64 revisionTableLimit
          (tableWriteU64 revisionTableLimit
            (tableWriteU64 revisionTableLimit
              (tableWriteU16 revisionTableLimit memory offset activeRecord)
              (offset + 8) record.objectId.raw)
            (offset + 16) record.revision)
          (offset + 24) record.timestampTicks)
        (offset + 32) record.writer.raw)
      (offset + 40) record.object.encode
  read := readActive fun memory offset ↦
    match readObject memory (offset + 40) with
    | .ok object =>
      .ok ⟨⟨memory.readU64 (offset + 8)⟩, memory.readU64 (offset + 16), memory.readU64 (offset + 24),
        ⟨memory.readU64 (offset + 32)⟩, object⟩
    | .error error => .error error

/-! ### Encoding -/

/-- `CHECKPOINT_MAGIC`, the text `PY52OBJ1`. -/
def checkpointMagic : Bytes := [0x50, 0x59, 0x35, 0x32, 0x4F, 0x42, 0x4A, 0x31]

/-- `COMMIT_MAGIC`, the text `PY52DONE`. -/
def commitMagic : Bytes := [0x50, 0x59, 0x35, 0x32, 0x44, 0x4F, 0x4E, 0x45]

def checkpointVersion : UInt16 := 1
def headerChecksumOffset : ℕ := 64

/-- The offset of the prior revisions, which follow the current ones in one table. -/
def priorRevisionOffset : ℕ :=
  imageOffset revisionImageIndex + maxDynamicObjects * revisionFormat.size

def encodeObjects (memory : Memory) (snapshot : ObjectServiceSnapshot) : Memory :=
  objectFormat.writeTable memory (imageOffset objectImageIndex) snapshot.objects.toList

def encodeRelationships (memory : Memory) (snapshot : ObjectServiceSnapshot) : Memory :=
  relationshipFormat.writeTable memory (imageOffset relationshipImageIndex)
    snapshot.workspaceRelationships.toList

def encodeRevisions (memory : Memory) (snapshot : ObjectServiceSnapshot) : Memory :=
  revisionFormat.writeTable
    (revisionFormat.writeTable memory (imageOffset revisionImageIndex)
      snapshot.currentRevisions.toList)
    priorRevisionOffset snapshot.priorRevisions.toList

def encodeTables (snapshot : ObjectServiceSnapshot) : Memory :=
  encodeRevisions (encodeRelationships (encodeObjects Memory.zero snapshot) snapshot) snapshot

/-- `count_options` as the header stores it. -/
def storedCount (count : ℕ) : UInt16 := UInt16.ofNat count

/-- The writes of `encode_header` before the checksum. -/
def headerWrites (slot : CheckpointSlot) (snapshot : ObjectServiceSnapshot) (generation : UInt64) :
    List (ℕ × Bytes) :=
  [(0, checkpointMagic),
    (8, leBytes 2 checkpointVersion.toNat),
    (10, leBytes 2 (slotCode slot).toNat),
    (12, leBytes 2 (storedCount snapshot.objects.live.length).toNat),
    (14, leBytes 2 (storedCount snapshot.workspaceRelationships.live.length).toNat),
    (16, leBytes 2 (storedCount
      (snapshot.currentRevisions.live.length + snapshot.priorRevisions.live.length)).toNat),
    (18, leBytes 2 0),
    (24, leBytes 8 generation.toNat),
    (32, leBytes 8 (slotLayout slot).objectTableSector),
    (40, leBytes 8 (slotLayout slot).relationshipTableSector),
    (48, leBytes 8 (slotLayout slot).revisionTableSector),
    (56, leBytes 8 (slotLayout slot).commitSector)]

def encodeHeader (memory : Memory) (slot : CheckpointSlot) (snapshot : ObjectServiceSnapshot)
    (generation checksum : UInt64) : Memory :=
  memory.writeAll (headerWrites slot snapshot generation ++
    (headerChecksumOffset, leBytes 8 checksum.toNat) ::
      [(72, leBytes 8 snapshot.allocatedBitmap.toNat)])

/-- The bytes that the checksum covers: those before the commit sector but the checksum itself. -/
def checksumPositions : List ℕ :=
  (List.range (imageOffset commitImageIndex)).filter fun position ↦
    ¬ (headerChecksumOffset ≤ position ∧ position < headerChecksumOffset + 8)

def checksumImage (memory : Memory) : UInt64 :=
  checksumPositions.foldl (fun checksum position ↦
    (checksum ^^^ (memory position).toUInt64) * 0x00000100000001B3) 0xcbf29ce484222325

def encodeMemory (slot : CheckpointSlot) (snapshot : ObjectServiceSnapshot) (generation : UInt64)
    (committed : Bool) : Memory :=
  let tables := encodeTables snapshot
  let memory := encodeHeader tables slot snapshot generation 0
  let memory := encodeHeader memory slot snapshot generation (checksumImage memory)
  if committed then
    (memory.write (imageOffset commitImageIndex) commitMagic).writeU64
      (imageOffset commitImageIndex + 8) generation
  else memory

def encodeSlotWithGeneration (slot : CheckpointSlot) (snapshot : ObjectServiceSnapshot)
    (generation : UInt64) (committed : Bool) : ObjectServiceSlotImage :=
  .ofMemory (encodeMemory slot snapshot generation committed)

/-! ### Decoding -/

structure ObjectServiceCheckpointHeader where
  slot : UInt16
  objectCount : UInt16
  relationshipCount : UInt16
  revisionCount : UInt16
  generation : UInt64
  objectTableSector : UInt64
  relationshipTableSector : UInt64
  revisionTableSector : UInt64
  commitSector : UInt64
  checksum : UInt64
  deriving DecidableEq

def decodeHeader (memory : Memory) :
    Except GeneralStoragePersistenceError ObjectServiceCheckpointHeader :=
  if memory.read 0 8 ≠ checkpointMagic ∨ memory.readU16 8 ≠ checkpointVersion then
    .error .badSnapshot
  else if memory.readU16 18 ≠ 0 then .error .badSnapshot
  else
    .ok
      { slot := memory.readU16 10
        objectCount := memory.readU16 12
        relationshipCount := memory.readU16 14
        revisionCount := memory.readU16 16
        generation := memory.readU64 24
        objectTableSector := memory.readU64 32
        relationshipTableSector := memory.readU64 40
        revisionTableSector := memory.readU64 48
        commitSector := memory.readU64 56
        checksum := memory.readU64 headerChecksumOffset }

/-- The header fits the layout of its slot, the commit sector and the checksum of the image. -/
def headerMatches (memory : Memory) (header : ObjectServiceCheckpointHeader)
    (layout : SlotLayout) : Bool :=
  header.generation = memory.readU64 (imageOffset commitImageIndex + 8) ∧
    header.objectTableSector = UInt64.ofNat layout.objectTableSector ∧
    header.relationshipTableSector = UInt64.ofNat layout.relationshipTableSector ∧
    header.revisionTableSector = UInt64.ofNat layout.revisionTableSector ∧
    header.commitSector = UInt64.ofNat layout.commitSector ∧ header.checksum = checksumImage memory

def decodeTables (memory : Memory) (generation : UInt64) :
    Except GeneralStoragePersistenceError ObjectServiceSnapshot := do
  let objects ← objectFormat.readTable memory (imageOffset objectImageIndex) maxDynamicObjects
  let relationships ←
    relationshipFormat.readTable memory (imageOffset relationshipImageIndex) maxDynamicObjects
  let current ← revisionFormat.readTable memory (imageOffset revisionImageIndex) maxDynamicObjects
  let prior ← revisionFormat.readTable memory priorRevisionOffset maxRevisions
  .ok
    { generation
      allocatedBitmap := (memory.readU64 72).toBitVec
      objects := Table.ofList objects
      workspaceRelationships := Table.ofList relationships
      currentRevisions := Table.ofList current
      priorRevisions := Table.ofList prior }

def countsMatch (header : ObjectServiceCheckpointHeader) (snapshot : ObjectServiceSnapshot) : Bool :=
  header.objectCount.toNat = snapshot.objects.live.length ∧
    header.relationshipCount.toNat = snapshot.workspaceRelationships.live.length ∧
    header.revisionCount.toNat =
      snapshot.currentRevisions.live.length + snapshot.priorRevisions.live.length

def decodeMemory (memory : Memory) : Except GeneralStoragePersistenceError ObjectServiceSnapshot :=
  if memory.read (imageOffset commitImageIndex) 8 ≠ commitMagic then .error .tornWrite
  else do
    let header ← decodeHeader memory
    let slot ← slotFromCode header.slot
    if ¬ headerMatches memory header (slotLayout slot) then .error .badSnapshot
    else
      let snapshot ← decodeTables memory header.generation
      if ¬ countsMatch header snapshot then .error .badSnapshot else .ok snapshot

def decodeSlot (image : ObjectServiceSlotImage) :
    Except GeneralStoragePersistenceError ObjectServiceSnapshot :=
  decodeMemory image.memory

end Pythos.Core
