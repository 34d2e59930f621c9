import Pythos.Foundation.Checked
import Pythos.Foundation.Memory

/-!
# Typed object records

A typed object has an identity, a kind, a schema version and up to four fields of at most sixteen bytes.
The source keeps the fields in an array of four with a count, where the fields behind the count are
always the empty field; the model keeps the list of the counted fields, with its bound as part of the
type, so that two records are equal exactly when the arrays and counts are.

`encode` writes the fixed image of a record, and `decode` reads one back.
-/

namespace Pythos.Core

open Foundation

/-! ### Identities and kinds -/

structure ObjectId where
  raw : UInt64
  deriving DecidableEq, Repr, Inhabited

inductive ObjectKind
  | applicationLauncherWindow
  | bootIdentitySurface
  | serviceMonitorWindow
  | pythonConsoleWindow
  | settingsPanelWindow
  | workspaceSession
  | objectBrowserWindow
  | buttonWidget
  | textFieldWidget
  | note
  | nameBinding
  | task
  | taskProposal
  | taskEvent
  | taskRelation
  | relevanceAssertion
  | capabilityRequest
  | package
  | schemaDefinition
  | packageDefinedObject
  deriving DecidableEq, Repr

/-- `kind_code`. -/
def ObjectKind.code : ObjectKind → ℕ
  | .applicationLauncherWindow => 1
  | .bootIdentitySurface => 2
  | .serviceMonitorWindow => 3
  | .pythonConsoleWindow => 4
  | .settingsPanelWindow => 5
  | .buttonWidget => 6
  | .textFieldWidget => 7
  | .workspaceSession => 8
  | .objectBrowserWindow => 9
  | .note => 10
  | .nameBinding => 11
  | .task => 20
  | .taskProposal => 21
  | .taskEvent => 22
  | .taskRelation => 23
  | .relevanceAssertion => 24
  | .capabilityRequest => 25
  | .package => 30
  | .schemaDefinition => 31
  | .packageDefinedObject => 32

inductive ObjectFormatError
  | badMagic
  | unsupportedVersion
  | invalidRecordLength
  | invalidKind
  | fieldTableFull
  | fieldValueTooLarge
  | fieldReservedNonZero
  deriving DecidableEq, Repr

/-- `kind_from_code`. -/
def ObjectKind.ofCode : ℕ → Except ObjectFormatError ObjectKind
  | 1 => .ok .applicationLauncherWindow
  | 2 => .ok .bootIdentitySurface
  | 3 => .ok .serviceMonitorWindow
  | 4 => .ok .pythonConsoleWindow
  | 5 => .ok .settingsPanelWindow
  | 6 => .ok .buttonWidget
  | 7 => .ok .textFieldWidget
  | 8 => .ok .workspaceSession
  | 9 => .ok .objectBrowserWindow
  | 10 => .ok .note
  | 11 => .ok .nameBinding
  | 20 => .ok .task
  | 21 => .ok .taskProposal
  | 22 => .ok .taskEvent
  | 23 => .ok .taskRelation
  | 24 => .ok .relevanceAssertion
  | 25 => .ok .capabilityRequest
  | 30 => .ok .package
  | 31 => .ok .schemaDefinition
  | 32 => .ok .packageDefinedObject
  | _ => .error .invalidKind

@[simp] theorem ObjectKind.ofCode_code (kind : ObjectKind) : ObjectKind.ofCode kind.code = .ok kind := by
  cases kind <;> rfl

theorem ObjectKind.code_lt (kind : ObjectKind) : kind.code < 2 ^ 16 := by
  cases kind <;> decide

/-! ### Fields and records -/

def formatVersion : ℕ := 1
def maxFields : ℕ := 4
def fieldValueCapacity : ℕ := 16
def fieldSlotSize : ℕ := 24
def objectHeaderSize : ℕ := 24
def recordSize : ℕ := objectHeaderSize + maxFields * fieldSlotSize

/-- A field: the first `valueLen` bytes of `value` are its value. -/
structure TypedObjectField where
  fieldId : UInt16
  fieldVersion : UInt16
  valueLen : UInt16
  value : Vector UInt8 fieldValueCapacity
  valueLen_le : valueLen.toNat ≤ fieldValueCapacity
  deriving DecidableEq

/-- `TypedObjectField::new`: the value is padded with zeros. -/
def TypedObjectField.new (fieldId fieldVersion : UInt16) (value : Bytes) :
    Except ObjectFormatError TypedObjectField :=
  if h : value.length ≤ fieldValueCapacity then
    .ok
      { fieldId
        fieldVersion
        valueLen := UInt16.ofNat value.length
        value := ⟨(value ++ List.replicate (fieldValueCapacity - value.length) 0).toArray, by
          simp [Nat.add_sub_cancel' h]⟩
        valueLen_le := by
          have hsmall : value.length < 2 ^ 16 :=
            lt_of_le_of_lt h (by decide)
          rw [UInt16.toNat_ofNat_of_lt' hsmall]
          exact h }
  else .error .fieldValueTooLarge

structure TypedObjectRecord where
  objectId : ObjectId
  objectKind : ObjectKind
  schemaVersion : UInt16
  fields : List TypedObjectField
  length_fields_le : fields.length ≤ maxFields
  deriving DecidableEq

namespace TypedObjectRecord

/-- `TypedObjectRecord::new`. -/
def new (objectId : ObjectId) (objectKind : ObjectKind) (schemaVersion : UInt16) :
    TypedObjectRecord where
  objectId := objectId
  objectKind := objectKind
  schemaVersion := schemaVersion
  fields := []
  length_fields_le := Nat.zero_le _

def pushField (record : TypedObjectRecord) (field : TypedObjectField) :
    Except ObjectFormatError TypedObjectRecord :=
  if h : record.fields.length = maxFields then .error .fieldTableFull
  else
    .ok
      { record with
        fields := record.fields ++ [field]
        length_fields_le := by
          rw [List.length_append, List.length_singleton]
          exact Nat.lt_of_le_of_ne record.length_fields_le h }

@[simp] theorem objectId_new (objectId : ObjectId) (kind : ObjectKind) (version : UInt16) :
    (new objectId kind version).objectId = objectId := rfl

/-- A pushed field changes nothing but the fields. -/
theorem pushField_eq_ok {record record' : TypedObjectRecord} {field : TypedObjectField}
    (h : record.pushField field = .ok record') :
    record'.objectId = record.objectId ∧ record'.objectKind = record.objectKind ∧
      record'.fields = record.fields ++ [field] := by
  unfold pushField at h
  split_ifs at h
  obtain rfl := Except.ok.inj h
  exact ⟨rfl, rfl, rfl⟩

/-! ### Images -/

/-- `MAGIC`, the text `PYOB`. -/
def magic : Bytes := [0x50, 0x59, 0x4F, 0x42]

def writeField (memory : Memory) (offset : ℕ) (field : TypedObjectField) : Memory :=
  ((((memory.writeU16 offset field.fieldId).writeU16 (offset + 2) field.fieldVersion).writeU16
    (offset + 4) field.valueLen).writeU16 (offset + 6) 0).write (offset + 8) field.value.toList

/-- The loop of `encode` over the fields. -/
def writeFields (memory : Memory) (offset : ℕ) : List TypedObjectField → Memory
  | [] => memory
  | field :: rest => writeFields (writeField memory offset field) (offset + fieldSlotSize) rest

def writeHeader (memory : Memory) (record : TypedObjectRecord) : Memory :=
  (((((((memory.write 0 magic).writeU16 4 (UInt16.ofNat formatVersion)).writeU16 6
    (UInt16.ofNat recordSize)).writeU64 8 record.objectId.raw).writeU16 16
      (UInt16.ofNat record.objectKind.code)).writeU16 18 record.schemaVersion).writeU16 20
        (UInt16.ofNat record.fields.length)).writeU16 22 0

def encode (record : TypedObjectRecord) : Bytes :=
  (writeFields (writeHeader Memory.zero record) objectHeaderSize record.fields).read 0 recordSize

def readField (memory : Memory) (offset : ℕ) : Except ObjectFormatError TypedObjectField :=
  if memory.readU16 (offset + 6) ≠ 0 then .error .fieldReservedNonZero
  else if h : (memory.readU16 (offset + 4)).toNat ≤ fieldValueCapacity then
    .ok
      { fieldId := memory.readU16 offset
        fieldVersion := memory.readU16 (offset + 2)
        valueLen := memory.readU16 (offset + 4)
        value := ⟨(memory.read (offset + 8) fieldValueCapacity).toArray, by simp⟩
        valueLen_le := h }
  else .error .fieldValueTooLarge

/-- The loop of `decode` over the remaining fields. -/
def readFields (memory : Memory) (offset : ℕ) :
    ℕ → TypedObjectRecord → Except ObjectFormatError TypedObjectRecord
  | 0, record => .ok record
  | count + 1, record => do
    let field ← readField memory offset
    let record ← record.pushField field
    readFields memory (offset + fieldSlotSize) count record

def decode (bytes : Bytes) : Except ObjectFormatError TypedObjectRecord :=
  let memory := Memory.ofBytes bytes
  if bytes.length < recordSize then .error .invalidRecordLength
  else if memory.read 0 4 ≠ magic then .error .badMagic
  else if memory.readU16 4 ≠ UInt16.ofNat formatVersion then .error .unsupportedVersion
  else if memory.readU16 6 ≠ UInt16.ofNat recordSize ∨ memory.readU16 22 ≠ 0 then
    .error .invalidRecordLength
  else if (memory.readU16 20).toNat > maxFields then .error .invalidRecordLength
  else do
    let kind ← ObjectKind.ofCode (memory.readU16 16).toNat
    readFields memory objectHeaderSize (memory.readU16 20).toNat
      (new ⟨memory.readU64 8⟩ kind (memory.readU16 18))

theorem length_encode (record : TypedObjectRecord) : record.encode.length = recordSize :=
  Memory.length_read 0 recordSize

/-! ### Round trip -/

/-- What `writeField` writes, in order. -/
def slotWrites (offset : ℕ) (field : TypedObjectField) : List (ℕ × Bytes) :=
  [(offset, leBytes 2 field.fieldId.toNat), (offset + 2, leBytes 2 field.fieldVersion.toNat),
    (offset + 4, leBytes 2 field.valueLen.toNat), (offset + 6, leBytes 2 0),
    (offset + 8, field.value.toList)]

theorem writeField_outside (memory : Memory) (field : TypedObjectField) {offset position : ℕ}
    (h : position < offset ∨ offset + fieldSlotSize ≤ position) :
    writeField memory offset field position = memory position := by
  have hvalue : field.value.toList.length = 16 := field.value.length_toList
  unfold fieldSlotSize at h
  have houtside : ∀ write ∈ slotWrites offset field,
      position < write.1 ∨ write.1 + write.2.length ≤ position := by
    simp only [slotWrites, List.forall_mem_cons, length_leBytes, hvalue]
    exact ⟨by omega, by omega, by omega, by omega, by omega, nofun⟩
  exact Memory.writeAll_outside houtside

theorem writeFields_outside (fields : List TypedObjectField) :
    ∀ (memory : Memory) (offset position : ℕ), position < offset →
      writeFields memory offset fields position = memory position := by
  induction fields with
  | nil => exact fun _ _ _ _ ↦ rfl
  | cons field rest ih =>
    intro memory offset position hlt
    rw [writeFields, ih _ _ position (by unfold fieldSlotSize; omega)]
    exact writeField_outside memory field (Or.inl hlt)

theorem readField_congr {memory memory' : Memory} {offset : ℕ}
    (h : AgreeOn memory memory' offset fieldSlotSize) : readField memory offset = readField memory' offset := by
  unfold fieldSlotSize at h
  simp (disch := omega) only [readField, h.read (offset + 8) fieldValueCapacity (by omega) le_rfl, h.readU16]

theorem readField_writeField (memory : Memory) (offset : ℕ) (field : TypedObjectField) :
    readField (writeField memory offset field) offset = .ok field := by
  have hwrites : (slotWrites offset field).Pairwise fun first second ↦
      first.1 + first.2.length ≤ second.1 := by
    simp [slotWrites]
  have hfields : ∀ write ∈ slotWrites offset field,
      (writeField memory offset field).read write.1 write.2.length = write.2 :=
    fun _ hmem ↦ Memory.read_writeAll hwrites hmem rfl
  simp only [slotWrites, List.forall_mem_cons, length_leBytes, Vector.length_toList] at hfields
  obtain ⟨hid, hversion, hlen, hreserved, hbytes, -⟩ := hfields
  have hzero : (writeField memory offset field).readU16 (offset + 6) = 0 := Memory.readU16_eq hreserved
  have hle := field.valueLen_le
  unfold readField
  simp only [hzero, Memory.readU16_eq hlen, Memory.readU16_eq hversion, Memory.readU16_eq hid, hbytes,
    ne_eq, not_true_eq_false, if_false, hle, dif_pos]
  rfl

/-- The fields that were written are pushed onto the record that is read. -/
theorem readFields_writeFields (fields : List TypedObjectField) :
    ∀ (memory : Memory) (offset : ℕ) (record : TypedObjectRecord)
      (h : (record.fields ++ fields).length ≤ maxFields),
      readFields (writeFields memory offset fields) offset fields.length record =
        .ok { record with fields := record.fields ++ fields, length_fields_le := h } := by
  induction fields with
  | nil =>
    intro memory offset record h
    simp [readFields]
  | cons field rest ih =>
    intro memory offset record h
    have hfirst : readField (writeFields memory offset (field :: rest)) offset = .ok field := by
      rw [writeFields, ← readField_writeField memory offset field]
      refine readField_congr fun position hlow hhigh ↦ ?_
      exact writeFields_outside rest _ _ position hhigh
    have hroom : record.fields.length ≠ maxFields := by
      rw [List.length_append, List.length_cons] at h
      omega
    rw [List.length_cons, readFields, hfirst, ok_bind, pushField, dif_neg hroom, ok_bind,
      writeFields, ih _ _ _ (by simpa using h)]
    simp

theorem readFields_congr {memory memory' : Memory} (count : ℕ) :
    ∀ (offset : ℕ) (record : TypedObjectRecord),
      AgreeOn memory memory' offset (count * fieldSlotSize) →
        readFields memory offset count record = readFields memory' offset count record := by
  induction count with
  | zero => exact fun _ _ _ ↦ rfl
  | succ count ih =>
    intro offset record h
    rw [Nat.succ_mul] at h
    have hfield : readField memory offset = readField memory' offset :=
      readField_congr fun position hlow hhigh ↦ h position hlow (by omega)
    have hrest := fun next ↦ ih (offset + fieldSlotSize) next fun position hlow hhigh ↦
      h position (by omega) (by omega)
    simp only [readFields, hfield, hrest]

/-- The fields of the header. -/
def headerWrites (record : TypedObjectRecord) : List (ℕ × Bytes) :=
  [(0, magic), (4, leBytes 2 (UInt16.ofNat formatVersion).toNat),
    (6, leBytes 2 (UInt16.ofNat recordSize).toNat), (8, leBytes 8 record.objectId.raw.toNat),
    (16, leBytes 2 (UInt16.ofNat record.objectKind.code).toNat), (18, leBytes 2 record.schemaVersion.toNat),
    (20, leBytes 2 (UInt16.ofNat record.fields.length).toNat), (22, leBytes 2 0)]

theorem read_writeHeader (memory : Memory) (record : TypedObjectRecord) :
    ∀ write ∈ headerWrites record, (writeHeader memory record).read write.1 write.2.length = write.2 :=
  fun _ hmem ↦ Memory.read_writeAll (by simp [headerWrites, magic]) hmem rfl

theorem decode_encode (record : TypedObjectRecord) : decode record.encode = .ok record := by
  have hcount := record.length_fields_le
  unfold maxFields at hcount
  -- the image and the memory that it was read from agree on the record
  have hagree : ∀ position, position < recordSize → Memory.ofBytes record.encode position =
      writeFields (writeHeader Memory.zero record) objectHeaderSize record.fields position := by
    intro position hlt
    simp [Memory.ofBytes, encode, Memory.read, hlt]
  have hheader : AgreeOn (Memory.ofBytes record.encode) (writeHeader Memory.zero record) 0
      objectHeaderSize := by
    intro position _ hlt
    rw [Nat.zero_add] at hlt
    rw [hagree position (lt_trans hlt (by decide)), writeFields_outside _ _ _ _ hlt]
  have hfields : readFields (Memory.ofBytes record.encode) objectHeaderSize record.fields.length
      (new record.objectId record.objectKind record.schemaVersion) = .ok record := by
    have hbound : objectHeaderSize + record.fields.length * fieldSlotSize ≤ recordSize :=
      Nat.add_le_add_left (Nat.mul_le_mul_right _ hcount) _
    have hsame := readFields_congr record.fields.length objectHeaderSize
      (new record.objectId record.objectKind record.schemaVersion) fun position _ hhigh ↦
        hagree position (lt_of_lt_of_le hhigh hbound)
    rw [hsame, readFields_writeFields record.fields _ _ _
      (by simpa [new] using record.length_fields_le)]
    rfl
  have hwrites := read_writeHeader Memory.zero record
  simp only [headerWrites, List.forall_mem_cons, length_leBytes] at hwrites
  obtain ⟨hmagic, hversion, hsize, hraw, hkind, hschema, hnumber, hreserved, -⟩ := hwrites
  have hzero : (writeHeader Memory.zero record).readU16 22 = 0 := Memory.readU16_eq hreserved
  have hkindNat : (UInt16.ofNat record.objectKind.code).toNat = record.objectKind.code :=
    UInt16.toNat_ofNat_of_lt' record.objectKind.code_lt
  have hcountNat : (UInt16.ofNat record.fields.length).toNat = record.fields.length :=
    UInt16.toNat_ofNat_of_lt' (lt_of_le_of_lt hcount (by decide))
  have hlength := record.length_encode
  unfold decode
  simp (disch := decide) only [hlength, hheader.read, hheader.readU16, hheader.readU64,
    show (writeHeader Memory.zero record).read 0 4 = magic from hmagic, Memory.readU16_eq hversion,
    Memory.readU16_eq hsize, Memory.readU64_eq hraw, Memory.readU16_eq hkind, Memory.readU16_eq hschema,
    Memory.readU16_eq hnumber, hzero, hkindNat, hcountNat]
  rw [if_neg (by omega), if_neg (by simp), if_neg (by simp), if_neg (by simp),
    if_neg (by unfold maxFields; omega), ObjectKind.ofCode_code, ok_bind]
  exact hfields

end TypedObjectRecord

end Pythos.Core
