import Pythos.Core.ObjectServiceCheckpoint

/-!
# The round trip of the checkpoint image

Each record format of the image is lawful below the end of its table, so the tables are read back as
they were written; the header and the commit sector lie outside of the tables, and the checksum does not
cover the bytes in which it is stored. Together, a committed image decodes to the snapshot it was encoded
from, with the generation it was encoded under.
-/

namespace Pythos.Core

open Foundation Shared

/-! ### Record formats -/

theorem readObject_congr {memory memory' : Memory} {offset size : ℕ}
    (h : AgreeOn memory memory' offset size) (start : ℕ) (hlow : offset ≤ start)
    (hhigh : start + 120 ≤ offset + size) : readObject memory start = readObject memory' start := by
  unfold readObject
  rw [h.read start recordSize hlow hhigh]

/-- The fields of a run with its mark, which is written first. -/
def runFields (fields : List (ℕ × Bytes)) : List (ℕ × Bytes) := (0, leBytes 2 activeRecord.toNat) :: fields

/-- A format that writes a mark and the fields of a record, each at its place, and reads them back. -/
theorem lawful_of_fields {α : Type} {format : RecordFormat GeneralStoragePersistenceError α} {limit : ℕ}
    {read : Memory → ℕ → Except GeneralStoragePersistenceError α} (fields : α → List (ℕ × Bytes))
    (hread : format.read = readActive read)
    (hwrite : ∀ memory offset record, format.write memory offset record =
      memory.writeAll ((runFields (fields record)).map fun field ↦
        (offset + field.1, field.2.take (limit - (offset + field.1)))))
    (hdisjoint : ∀ record, (runFields (fields record)).Pairwise fun first second ↦
      first.1 + first.2.length ≤ second.1)
    (hfits : ∀ record, ∀ field ∈ runFields (fields record), field.1 + field.2.length ≤ format.size)
    (hmark : 2 ≤ format.size)
    (hcongr : ∀ memory memory' offset, AgreeOn memory memory' offset format.size →
      read memory offset = read memory' offset)
    (hback : ∀ memory offset record, (∀ field ∈ fields record,
      memory.read (offset + field.1) field.2.length = field.2) → read memory offset = .ok record) :
    format.Lawful limit where
  write_outside := fun memory offset record position houtside ↦ by
    rw [hwrite]
    refine Memory.writeAll_outside fun write hmem ↦ ?_
    obtain ⟨field, hfield, rfl⟩ := List.mem_map.mp hmem
    have hfit := hfits record field hfield
    rw [List.length_take]
    omega
  read_congr := fun memory memory' offset h ↦ by
    rw [hread, readActive, readActive, hcongr memory memory' offset h,
      AgreeOn.readU16 h offset le_rfl (by omega)]
  read_write := fun memory offset record hlimit ↦ by
    have hfield (field : ℕ × Bytes) (hmem : field ∈ runFields (fields record)) :
        (format.write memory offset record).read (offset + field.1) field.2.length = field.2 := by
      have hfit := hfits record field hmem
      rw [hwrite]
      refine Memory.read_writeAll ?_ (List.mem_map.mpr ⟨field, hmem, ?_⟩) rfl
      · refine List.pairwise_map.mpr ((hdisjoint record).imp fun {first second} hle ↦ ?_)
        rw [List.length_take]
        omega
      · rw [List.take_of_length_le (by omega)]
    obtain ⟨hmarked, hrest⟩ := List.forall_mem_cons.mp hfield
    have hactive : (format.write memory offset record).readU16 offset = activeRecord := Memory.readU16_eq hmarked
    rw [hread, readActive, hactive, if_neg (by decide), if_neg (not_not.mpr rfl),
      hback _ offset record hrest]
  read_blank := fun memory offset hblank ↦ by
    have hzero : memory.readU16 offset = Memory.zero.readU16 offset :=
      AgreeOn.readU16 hblank offset le_rfl (by omega)
    rw [hread, readActive, hzero]
    exact if_pos rfl

theorem readObject_eq {memory : Memory} {offset : ℕ} {object : TypedObjectRecord}
    (h : memory.read offset object.encode.length = object.encode) : readObject memory offset = .ok object := by
  rw [object.length_encode] at h
  rw [readObject, h, TypedObjectRecord.decode_encode]

theorem objectFormat_lawful : objectFormat.Lawful objectTableLimit := by
  have hrecord : recordSize = 120 := rfl
  refine lawful_of_fields (fun record ↦ [(8, leBytes 8 record.extentStart.toNat),
    (16, leBytes 2 record.extentLen.toNat), (24, record.object.encode)]) rfl (fun _ _ _ ↦ rfl)
    (fun record ↦ ?_) (fun record ↦ ?_) (by decide) (fun memory memory' offset h ↦ ?_)
    fun memory offset record h ↦ ?_
  · simp [runFields]
  · simp [runFields, objectFormat, TypedObjectRecord.length_encode, hrecord]
  · have hagree : AgreeOn memory memory' offset 152 := h
    simp (disch := omega) only [readObject_congr hagree, hagree.readU64, hagree.readU16]
  · simp only [List.forall_mem_cons, length_leBytes] at h
    rw [readObject_eq h.2.2.1, Memory.readU64_eq h.1, Memory.readU16_eq h.2.1]

theorem relationshipFormat_lawful : relationshipFormat.Lawful relationshipTableLimit := by
  refine lawful_of_fields (fun record ↦ [(8, leBytes 8 record.objectId.raw.toNat),
    (16, leBytes 8 record.workspaceId.raw.toNat)]) (by rw [relationshipFormat]) (fun _ _ _ ↦ rfl)
    (fun record ↦ ?_) (fun record ↦ ?_) (by decide) (fun memory memory' offset h ↦ ?_)
    fun memory offset record h ↦ ?_
  · simp [runFields]
  · simp [runFields, relationshipFormat]
  · have hagree : AgreeOn memory memory' offset 24 := h
    simp (disch := omega) only [hagree.readU64]
  · simp only [List.forall_mem_cons, length_leBytes] at h
    rw [Memory.readU64_eq h.1, Memory.readU64_eq h.2.1]

theorem revisionFormat_lawful : revisionFormat.Lawful revisionTableLimit := by
  have hrecord : recordSize = 120 := rfl
  refine lawful_of_fields (fun record ↦ [(8, leBytes 8 record.objectId.raw.toNat),
    (16, leBytes 8 record.revision.toNat), (24, leBytes 8 record.timestampTicks.toNat),
    (32, leBytes 8 record.writer.raw.toNat), (40, record.object.encode)]) rfl (fun _ _ _ ↦ rfl)
    (fun record ↦ ?_) (fun record ↦ ?_) (by decide) (fun memory memory' offset h ↦ ?_)
    fun memory offset record h ↦ ?_
  · simp [runFields]
  · simp [runFields, revisionFormat, TypedObjectRecord.length_encode, hrecord]
  · have hagree : AgreeOn memory memory' offset 160 := h
    simp (disch := omega) only [readObject_congr hagree, hagree.readU64]
  · simp only [List.forall_mem_cons, length_leBytes] at h
    obtain ⟨hobject, hrevision, hticks, hwriter, hencoded, -⟩ := h
    rw [readObject_eq hencoded, Memory.readU64_eq hobject, Memory.readU64_eq hrevision,
      Memory.readU64_eq hticks, Memory.readU64_eq hwriter]

/-! ### Tables -/

section Tables

/-- The places and the sizes of the tables. -/
theorem tables_layout :
    imageOffset objectImageIndex = 512 ∧ maxDynamicObjects * objectFormat.size = 3648 ∧
      imageOffset relationshipImageIndex = 4608 ∧ maxDynamicObjects * relationshipFormat.size = 576 ∧
      imageOffset revisionImageIndex = 6656 ∧ maxDynamicObjects * revisionFormat.size = 3840 ∧
      priorRevisionOffset = 10496 ∧ maxRevisions * revisionFormat.size = 1280 := by
  decide

theorem writeTable_toList_outside {ε α : Type} {format : RecordFormat ε α} {limit count : ℕ}
    (h : format.Lawful limit) (memory : Memory) (table : Table α count) {offset position : ℕ}
    (houtside : position < offset ∨ offset + count * format.size ≤ position) :
    format.writeTable memory offset table.toList position = memory position :=
  RecordFormat.writeTable_outside h _ _ _ _ (by rwa [table.length_toList])

variable {snapshot : ObjectServiceSnapshot}

/-- The tables before the revisions leave their run blank. -/
theorem encodeRelationships_blank {position : ℕ} (h : 6656 ≤ position) :
    encodeRelationships (encodeObjects Memory.zero snapshot) snapshot position = 0 := by
  have hlayout := tables_layout
  rw [encodeRelationships, writeTable_toList_outside relationshipFormat_lawful _ _ (by omega)]
  exact writeTable_toList_outside objectFormat_lawful _ _ (by omega)

variable {memory : Memory}
  (hagree : ∀ position, 512 ≤ position → position < 12800 →
    memory position = encodeTables snapshot position)

include hagree

theorem readObjects_encodeTables :
    objectFormat.readTable memory (imageOffset objectImageIndex) maxDynamicObjects =
      .ok snapshot.objects.toList := by
  have hlayout := tables_layout
  refine RecordFormat.readTable_of_agree objectFormat_lawful Memory.zero
    snapshot.objects.length_toList (by decide) (fun _ _ _ ↦ rfl) fun position hlow hhigh ↦ ?_
  rw [hagree position (by omega) (by omega), encodeTables, encodeRevisions,
    writeTable_toList_outside revisionFormat_lawful _ _ (by omega),
    writeTable_toList_outside revisionFormat_lawful _ _ (by omega)]
  exact writeTable_toList_outside relationshipFormat_lawful _ _ (by omega)

theorem readRelationships_encodeTables :
    relationshipFormat.readTable memory (imageOffset relationshipImageIndex) maxDynamicObjects =
      .ok snapshot.workspaceRelationships.toList := by
  have hlayout := tables_layout
  refine RecordFormat.readTable_of_agree relationshipFormat_lawful (encodeObjects Memory.zero snapshot)
    snapshot.workspaceRelationships.length_toList (by decide) (fun position hlow hhigh ↦ ?_)
    fun position hlow hhigh ↦ ?_
  · exact writeTable_toList_outside objectFormat_lawful _ _ (by omega)
  · rw [hagree position (by omega) (by omega), encodeTables, encodeRevisions,
      writeTable_toList_outside revisionFormat_lawful _ _ (by omega)]
    exact writeTable_toList_outside revisionFormat_lawful _ _ (by omega)

theorem readCurrent_encodeTables :
    revisionFormat.readTable memory (imageOffset revisionImageIndex) maxDynamicObjects =
      .ok snapshot.currentRevisions.toList := by
  have hlayout := tables_layout
  refine RecordFormat.readTable_of_agree revisionFormat_lawful
    (encodeRelationships (encodeObjects Memory.zero snapshot) snapshot)
    snapshot.currentRevisions.length_toList (by decide)
    (fun position hlow _ ↦ encodeRelationships_blank (by omega)) fun position hlow hhigh ↦ ?_
  rw [hagree position (by omega) (by omega)]
  exact writeTable_toList_outside revisionFormat_lawful _ _ (by omega)

theorem readPriors_encodeTables :
    revisionFormat.readTable memory priorRevisionOffset maxRevisions =
      .ok snapshot.priorRevisions.toList := by
  have hlayout := tables_layout
  refine RecordFormat.readTable_of_agree revisionFormat_lawful _
    snapshot.priorRevisions.length_toList (by decide) (fun position hlow hhigh ↦ ?_)
    fun position hlow hhigh ↦ hagree position (by omega) (by omega)
  rw [writeTable_toList_outside revisionFormat_lawful _ _ (by omega)]
  exact encodeRelationships_blank (by omega)

end Tables

/-! ### Header and checksum -/

section Header

variable (memory : Memory) (slot : CheckpointSlot) (snapshot : ObjectServiceSnapshot)
  (generation checksum : UInt64)

/-- The fields of the header. -/
def headerFields : List (ℕ × Bytes) :=
  headerWrites slot snapshot generation ++
    [(headerChecksumOffset, leBytes 8 checksum.toNat), (72, leBytes 8 snapshot.allocatedBitmap.toNat)]

theorem headerFields_fit :
    ∀ field ∈ headerFields slot snapshot generation checksum, field.1 + field.2.length ≤ 80 := by
  simp [headerFields, headerWrites, checkpointMagic, headerChecksumOffset]

theorem headerFields_disjoint : (headerFields slot snapshot generation checksum).Pairwise
    fun first second ↦ first.1 + first.2.length ≤ second.1 := by
  simp [headerFields, headerWrites, checkpointMagic, headerChecksumOffset]

/-- The bytes after the header are not its own. -/
theorem encodeHeader_outside {position : ℕ} (h : 80 ≤ position) :
    encodeHeader memory slot snapshot generation checksum position = memory position :=
  Memory.writeAll_outside fun write hwrite ↦ Or.inr ((headerFields_fit _ _ _ _ write hwrite).trans h)

/-- Writing the header again with another checksum changes the bytes of the checksum alone. -/
theorem encodeHeader_encodeHeader (checksum' : UInt64) {position : ℕ}
    (h : position < headerChecksumOffset ∨ headerChecksumOffset + 8 ≤ position) :
    encodeHeader (encodeHeader memory slot snapshot generation checksum) slot snapshot generation
      checksum' position = encodeHeader memory slot snapshot generation checksum position := by
  have hskip (other : Memory) (value : UInt64) :
      encodeHeader other slot snapshot generation value position =
        other.writeAll (headerWrites slot snapshot generation ++
          [(72, leBytes 8 snapshot.allocatedBitmap.toNat)]) position :=
    Memory.writeAll_skip (by rwa [length_leBytes])
  rw [hskip, Memory.writeAll_congr _ (hskip memory checksum), Memory.writeAll_writeAll, ← hskip]

end Header

theorem checksumImage_congr {memory memory' : Memory}
    (h : ∀ position, position < imageOffset commitImageIndex →
      position < headerChecksumOffset ∨ headerChecksumOffset + 8 ≤ position →
        memory position = memory' position) : checksumImage memory = checksumImage memory' := by
  refine List.foldl_ext _ _ _ fun checksum position hposition ↦ ?_
  obtain ⟨hrange, hcovered⟩ := List.mem_filter.mp hposition
  rw [h position (List.mem_range.mp hrange) (by
    have hnot := of_decide_eq_true hcovered
    omega)]

/-! ### The image -/

section Image

variable {slot : CheckpointSlot} {snapshot : ObjectServiceSnapshot} {generation : UInt64}

/-- The memory of the image before its commit sector is written. -/
def uncommittedMemory (slot : CheckpointSlot) (snapshot : ObjectServiceSnapshot)
    (generation : UInt64) : Memory :=
  let memory := encodeHeader (encodeTables snapshot) slot snapshot generation 0
  encodeHeader memory slot snapshot generation (checksumImage memory)

theorem encodeMemory_of_lt (committed : Bool) {position : ℕ} (h : position < 12800) :
    encodeMemory slot snapshot generation committed position =
      uncommittedMemory slot snapshot generation position := by
  have hcommit : imageOffset commitImageIndex = 12800 := rfl
  cases committed with
  | false => rfl
  | true =>
    change ((uncommittedMemory slot snapshot generation).write (imageOffset commitImageIndex)
      commitMagic).write (imageOffset commitImageIndex + 8) _ position = _
    rw [Memory.write_of_lt _ (by omega), Memory.write_of_lt _ (by omega)]

theorem uncommittedMemory_tables {position : ℕ} (h : 80 ≤ position) :
    uncommittedMemory slot snapshot generation position = encodeTables snapshot position := by
  simp only [uncommittedMemory]
  rw [encodeHeader_outside _ _ _ _ _ h, encodeHeader_outside _ _ _ _ _ h]

/-- The checksum of the image is the one in its header. -/
theorem checksumImage_uncommittedMemory :
    checksumImage (uncommittedMemory slot snapshot generation) =
      checksumImage (encodeHeader (encodeTables snapshot) slot snapshot generation 0) :=
  checksumImage_congr fun _ _ hcovered ↦ encodeHeader_encodeHeader _ _ _ _ _ _ hcovered

theorem toNat_storedCount {count : ℕ} (h : count ≤ 56) : (storedCount count).toNat = count :=
  UInt16.toNat_ofNat_of_lt' (lt_of_le_of_lt h (by decide))

section Agreement

variable {memory : Memory}
  (hagree : ∀ position, position < 80 →
    memory position = uncommittedMemory slot snapshot generation position)

include hagree

/-- The fields of the header are read from a memory that agrees with the image on the header. -/
theorem read_of_agree : ∀ field ∈ headerFields slot snapshot generation (checksumImage
      (encodeHeader (encodeTables snapshot) slot snapshot generation 0)),
    memory.read field.1 field.2.length = field.2 := by
  intro field hfield
  have hfits := headerFields_fit _ _ _ _ field hfield
  rw [Memory.read_congr fun position _ hhigh ↦ hagree position (by omega)]
  exact Memory.read_writeAll (headerFields_disjoint _ _ _ _) hfield rfl

/-- The header of a memory that agrees with the image on its first sector. -/
theorem decodeHeader_of_agree :
    decodeHeader memory = .ok
      { slot := slotCode slot
        objectCount := storedCount snapshot.objects.live.length
        relationshipCount := storedCount snapshot.workspaceRelationships.live.length
        revisionCount := storedCount
          (snapshot.currentRevisions.live.length + snapshot.priorRevisions.live.length)
        generation
        objectTableSector := UInt64.ofNat (slotLayout slot).objectTableSector
        relationshipTableSector := UInt64.ofNat (slotLayout slot).relationshipTableSector
        revisionTableSector := UInt64.ofNat (slotLayout slot).revisionTableSector
        commitSector := UInt64.ofNat (slotLayout slot).commitSector
        checksum := checksumImage
          (encodeHeader (encodeTables snapshot) slot snapshot generation 0) } := by
  have hfields := read_of_agree hagree
  simp only [headerFields, headerWrites, List.cons_append, List.nil_append, List.forall_mem_cons,
    length_leBytes] at hfields
  obtain ⟨hmagic, hversion, hslot, hobjects, hrelationships, hrevisions, hreserved, hgeneration,
    hobjectTable, hrelationshipTable, hrevisionTable, hcommit, hchecksum, -⟩ := hfields
  have hzero : memory.readU16 18 = 0 := Memory.readU16_eq hreserved
  rw [decodeHeader, show memory.read 0 8 = checkpointMagic from hmagic, Memory.readU16_eq hversion, hzero,
    Memory.readU16_eq hslot, Memory.readU16_eq hobjects, Memory.readU16_eq hrelationships,
    Memory.readU16_eq hrevisions, Memory.readU64_eq hgeneration, Memory.readU64_ofNat hobjectTable,
    Memory.readU64_ofNat hrelationshipTable, Memory.readU64_ofNat hrevisionTable,
    Memory.readU64_ofNat hcommit, Memory.readU64_eq hchecksum]
  simp

theorem readBitmap_of_agree : (memory.readU64 72).toBitVec = snapshot.allocatedBitmap := by
  have hread : memory.readU64 72 = UInt64.ofBitVec snapshot.allocatedBitmap :=
    Memory.readU64_eq (read_of_agree hagree (72, leBytes 8 snapshot.allocatedBitmap.toNat)
      (by simp [headerFields]))
  rw [hread]

end Agreement

/-- The tables of a memory that agrees with the image before its commit sector. -/
theorem decodeTables_of_agree {memory : Memory}
    (hagree : ∀ position, position < 12800 →
      memory position = uncommittedMemory slot snapshot generation position) :
    decodeTables memory generation = .ok { snapshot with generation } := by
  have htables (position : ℕ) (hlow : 512 ≤ position) (hhigh : position < 12800) :
      memory position = encodeTables snapshot position := by
    rw [hagree position hhigh, uncommittedMemory_tables (by omega)]
  rw [decodeTables, readObjects_encodeTables htables, ok_bind,
    readRelationships_encodeTables htables, ok_bind, readCurrent_encodeTables htables, ok_bind,
    readPriors_encodeTables htables, ok_bind,
    readBitmap_of_agree fun position hlt ↦ hagree position (by omega)]
  simp only [Table.ofList_toList]

/-- An image decodes to its snapshot whatever follows the commit record in its last sector. -/
theorem decodeMemory_of_agree {memory : Memory}
    (hagree : ∀ position, position < imageOffset commitImageIndex + 16 →
      memory position = encodeMemory slot snapshot generation true position) :
    decodeMemory memory = .ok { snapshot with generation } := by
  have hoffset : imageOffset commitImageIndex = 12800 := rfl
  have hbody (position : ℕ) (h : position < 12800) :
      memory position = uncommittedMemory slot snapshot generation position := by
    rw [hagree position (by omega), encodeMemory_of_lt true h]
  have hcommit (offset count : ℕ) (hlimit : offset + count ≤ imageOffset commitImageIndex + 16) :
      memory.read offset count = (encodeMemory slot snapshot generation true).read offset count :=
    Memory.read_congr fun position _ hhigh ↦ hagree position (by omega)
  have hmagic : memory.read (imageOffset commitImageIndex) 8 = commitMagic := by
    rw [hcommit _ _ (by omega)]
    exact (Memory.read_writeU64 _ (by omega)).trans (Memory.read_write_self rfl)
  have hgeneration : memory.readU64 (imageOffset commitImageIndex + 8) = generation := by
    rw [Memory.readU64_congr (hcommit _ _ (by omega))]
    exact Memory.readU64_eq (Memory.read_write_self (length_leBytes 8 _))
  have hchecksum : checksumImage memory =
      checksumImage (encodeHeader (encodeTables snapshot) slot snapshot generation 0) := by
    rw [← checksumImage_uncommittedMemory]
    exact checksumImage_congr fun position hlt _ ↦ hbody position (by omega)
  have hobjects := snapshot.objects.length_live_le
  have hrelationships := snapshot.workspaceRelationships.length_live_le
  have hcurrent := snapshot.currentRevisions.length_live_le
  have hpriors := snapshot.priorRevisions.length_live_le
  have hlimits : maxDynamicObjects = 24 ∧ maxRevisions = 8 := ⟨rfl, rfl⟩
  rw [decodeMemory, if_neg (not_not.mpr hmagic),
    decodeHeader_of_agree fun position hlt ↦ hbody position (by omega), ok_bind,
    slotFromCode_slotCode, ok_bind, if_neg, decodeTables_of_agree hbody, ok_bind, if_neg]
  · simp only [countsMatch]
    rw [toNat_storedCount (by omega), toNat_storedCount (by omega), toNat_storedCount (by omega)]
    simp
  · simp only [headerMatches, hgeneration, hchecksum]
    simp

/-- Decoding does not read what follows the commit record. -/
theorem decodeMemory_congr {memory memory' : Memory}
    (h : AgreeOn memory memory' 0 (imageOffset commitImageIndex + 16)) :
    decodeMemory memory = decodeMemory memory' := by
  have hoffset : imageOffset commitImageIndex = 12800 := rfl
  have hchecksum : checksumImage memory = checksumImage memory' :=
    checksumImage_congr fun position hlt _ ↦ h position (Nat.zero_le _) (by omega)
  have hheader : decodeHeader memory = decodeHeader memory' := by
    simp (disch := omega) only [decodeHeader, headerChecksumOffset, h.read, h.readU16, h.readU64]
  have htables (generation : UInt64) :
      decodeTables memory generation = decodeTables memory' generation := by
    have htable {ε α : Type} {format : RecordFormat ε α} {limit : ℕ} (hlawful : format.Lawful limit)
        (offset count : ℕ) (hlimit : offset + count * format.size ≤ 12816) :
        format.readTable memory offset count = format.readTable memory' offset count :=
      RecordFormat.readTable_congr hlawful count memory memory' offset fun position _ hhigh ↦
        h position (Nat.zero_le _) (by omega)
    simp only [decodeTables,
      htable objectFormat_lawful (imageOffset objectImageIndex) maxDynamicObjects (by decide),
      htable relationshipFormat_lawful (imageOffset relationshipImageIndex) maxDynamicObjects
        (by decide),
      htable revisionFormat_lawful (imageOffset revisionImageIndex) maxDynamicObjects (by decide),
      htable revisionFormat_lawful priorRevisionOffset maxRevisions (by decide),
      h.readU64 72 (by omega) (by omega)]
  have hmatches : headerMatches memory = headerMatches memory' := by
    funext header layout
    refine decide_eq_decide.mpr ?_
    rw [hchecksum, h.readU64 (imageOffset commitImageIndex + 8) (by omega) (by omega)]
  unfold decodeMemory
  rw [h.read (imageOffset commitImageIndex) 8 (by omega) (by omega), hheader, hmatches]
  simp only [htables]

/-- A committed image decodes to its snapshot under its generation. -/
theorem decodeSlot_encodeSlotWithGeneration (slot : CheckpointSlot)
    (snapshot : ObjectServiceSnapshot) (generation : UInt64) :
    decodeSlot (encodeSlotWithGeneration slot snapshot generation true) =
      .ok { snapshot with generation } :=
  decodeMemory_of_agree fun _ hlt ↦
    ObjectServiceSlotImage.memory_ofMemory _ (hlt.trans (by decide))

end Image

end Pythos.Core
