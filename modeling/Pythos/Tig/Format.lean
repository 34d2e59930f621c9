import Pythos.Foundation.Bytes
import Pythos.Foundation.Checked
import Pythos.Tig.Opcode

/-!
# The package format of the typed instruction graph

A package is a byte string: a 96-byte header, then the type, block, node and import records and the
two byte pools. `PythGraphPackage.decode` reads the header, checks its fields, checks that the six
sections follow each other and fill the package, and compares the checksum. A decoded package keeps
the bytes and the header, and its accessors slice the bytes again on every use; the slices panic when
a range leaves the package.

The fields of the records are natural numbers read from fixed-width little-endian words.
-/

namespace Pythos.Tig

open Foundation

/-! ### Limits and constants -/

def pythTigMagic : Bytes := [0x50, 0x59, 0x54, 0x48, 0x54, 0x49, 0x47, 0x31]
def pythTigMajor : ℕ := 1
def pythTigMinor : ℕ := 1

def maxPackageBytes : ℕ := 131072
def maxGraphNodes : ℕ := 1024
def maxBlocks : ℕ := 128
def maxCapabilityImports : ℕ := 32
def maxConstantPoolBytes : ℕ := 65536
def maxStringTableBytes : ℕ := 16384
def maxRuntimeValues : ℕ := 1024

/-- `u32::MAX`, the input of a node that takes no value there. -/
def noValue : ℕ := 0xFFFFFFFF

def headerSize : ℕ := 96
def typeRecordSize : ℕ := 8
def blockRecordSize : ℕ := 24
def nodeRecordSize : ℕ := 40
def importRecordSize : ℕ := 24
def recordSectionAlignment : ℕ := 4
def checksumOffset : ℕ := 84
def checksumEnd : ℕ := 92

/-! ### Records -/

structure PythGraphHeader where
  magic : Bytes
  major : ℕ
  minor : ℕ
  flags : ℕ
  packageId : ℕ
  principalId : ℕ
  entryBlock : ℕ
  typeCount : ℕ
  blockCount : ℕ
  nodeCount : ℕ
  importCount : ℕ
  constantPoolLen : ℕ
  stringTableLen : ℕ
  typesOffset : ℕ
  blocksOffset : ℕ
  nodesOffset : ℕ
  importsOffset : ℕ
  constantPoolOffset : ℕ
  stringTableOffset : ℕ
  checksum : ℕ
  reserved : ℕ
  deriving DecidableEq, Repr

structure TypeRecord where
  kind : ℕ
  flags : ℕ
  auxiliary : ℕ
  deriving DecidableEq, Repr

structure BlockRecord where
  blockId : ℕ
  firstNode : ℕ
  nodeCount : ℕ
  parameterCount : ℕ
  flags : ℕ
  terminatorNode : ℕ
  reserved : ℕ
  deriving DecidableEq, Repr

structure NodeRecord where
  opcode : ℕ
  resultType : ℕ
  flags : ℕ
  blockIndex : ℕ
  input0 : ℕ
  input1 : ℕ
  input2 : ℕ
  input3 : ℕ
  auxiliary0 : ℕ
  auxiliary1 : ℕ
  immediate : ℕ
  deriving DecidableEq, Repr

/-- `[node.input0, node.input1, node.input2, node.input3]`. -/
def NodeRecord.inputs (node : NodeRecord) : List ℕ :=
  [node.input0, node.input1, node.input2, node.input3]

structure CapabilityImportRecord where
  nameOffset : ℕ
  nameLen : ℕ
  resourceKind : ℕ
  rights : ℕ
  expectedType : ℕ
  importSlot : ℕ
  reserved : ℕ
  deriving DecidableEq, Repr

inductive PackageDecodeError
  | packageTooLarge
  | headerTooShort
  | badMagic
  | unsupportedMajor
  | unsupportedMinor
  | unsupportedFlags
  | nonZeroReserved
  | countLimit
  | lengthLimit
  | offsetOverflow
  | sectionOutOfBounds
  | sectionUnaligned
  | sectionOrder
  | sectionOverlap
  | checksumMismatch
  | stringOutOfBounds
  deriving DecidableEq, Repr

/-- The computations of the decoder. -/
abbrev Decode : Type → Type := Checked PackageDecodeError

/-! ### Reading words -/

/-- `left.checked_add(right).ok_or(error)?`. -/
def checkedAdd {ε : Type} (error : ε) (left right : ℕ) : Checked ε ℕ :=
  if left + right < usizeSize then .ok (left + right) else fail error

/-- `left.checked_mul(right).ok_or(error)?`. -/
def checkedMul {ε : Type} (error : ε) (left right : ℕ) : Checked ε ℕ :=
  if left * right < usizeSize then .ok (left * right) else fail error

def readBytes (bytes : Bytes) (width offset : ℕ) : Decode Bytes := do
  let stop ← checkedAdd .offsetOverflow offset width
  okOr .headerTooShort (slice? bytes offset stop)

def readMagic (bytes : Bytes) : Decode Bytes :=
  readBytes bytes 8 0

/-- The little-endian word of `width` bytes at an offset. -/
def readWord (bytes : Bytes) (width offset : ℕ) : Decode ℕ := do
  let raw ← readBytes bytes width offset
  pure (leNat raw)

def readU16 (bytes : Bytes) (offset : ℕ) : Decode ℕ :=
  readWord bytes 2 offset

def readU32 (bytes : Bytes) (offset : ℕ) : Decode ℕ :=
  readWord bytes 4 offset

def readU64 (bytes : Bytes) (offset : ℕ) : Decode ℕ :=
  readWord bytes 8 offset

def readHeader (bytes : Bytes) : Decode PythGraphHeader := do
  let magic ← readMagic bytes
  let major ← readU16 bytes 8
  let minor ← readU16 bytes 10
  let flags ← readU32 bytes 12
  let packageId ← readU64 bytes 16
  let principalId ← readU64 bytes 24
  let entryBlock ← readU32 bytes 32
  let typeCount ← readU32 bytes 36
  let blockCount ← readU32 bytes 40
  let nodeCount ← readU32 bytes 44
  let importCount ← readU32 bytes 48
  let constantPoolLen ← readU32 bytes 52
  let stringTableLen ← readU32 bytes 56
  let typesOffset ← readU32 bytes 60
  let blocksOffset ← readU32 bytes 64
  let nodesOffset ← readU32 bytes 68
  let importsOffset ← readU32 bytes 72
  let constantPoolOffset ← readU32 bytes 76
  let stringTableOffset ← readU32 bytes 80
  let checksum ← readU64 bytes checksumOffset
  let reserved ← readU32 bytes checksumEnd
  pure
    { magic, major, minor, flags, packageId, principalId, entryBlock, typeCount, blockCount,
      nodeCount, importCount, constantPoolLen, stringTableLen, typesOffset, blocksOffset,
      nodesOffset, importsOffset, constantPoolOffset, stringTableOffset, checksum, reserved }

def decodeTypeRecord (bytes : Bytes) : Decode TypeRecord := do
  let kind ← readU16 bytes 0
  let flags ← readU16 bytes 2
  let auxiliary ← readU32 bytes 4
  pure { kind, flags, auxiliary }

def decodeBlockRecord (bytes : Bytes) : Decode BlockRecord := do
  let blockId ← readU32 bytes 0
  let firstNode ← readU32 bytes 4
  let nodeCount ← readU32 bytes 8
  let parameterCount ← readU16 bytes 12
  let flags ← readU16 bytes 14
  let terminatorNode ← readU32 bytes 16
  let reserved ← readU32 bytes 20
  pure { blockId, firstNode, nodeCount, parameterCount, flags, terminatorNode, reserved }

def decodeNodeRecord (bytes : Bytes) : Decode NodeRecord := do
  let opcode ← readU16 bytes 0
  let resultType ← readU16 bytes 2
  let flags ← readU16 bytes 4
  let blockIndex ← readU16 bytes 6
  let input0 ← readU32 bytes 8
  let input1 ← readU32 bytes 12
  let input2 ← readU32 bytes 16
  let input3 ← readU32 bytes 20
  let auxiliary0 ← readU32 bytes 24
  let auxiliary1 ← readU32 bytes 28
  let immediate ← readU64 bytes 32
  pure
    { opcode, resultType, flags, blockIndex, input0, input1, input2, input3, auxiliary0, auxiliary1,
      immediate }

def decodeCapabilityImportRecord (bytes : Bytes) : Decode CapabilityImportRecord := do
  let nameOffset ← readU32 bytes 0
  let nameLen ← readU16 bytes 4
  let resourceKind ← readU16 bytes 6
  let rights ← readU64 bytes 8
  let expectedType ← readU16 bytes 16
  let importSlot ← readU16 bytes 18
  let reserved ← readU32 bytes 20
  pure { nameOffset, nameLen, resourceKind, rights, expectedType, importSlot, reserved }

/-! ### Record sections -/

/-- `record_bytes(bytes, index, record_size)`. -/
def recordBytes (bytes : Bytes) (index recordSize : ℕ) : Option Bytes :=
  if index * recordSize + recordSize < usizeSize then
    slice? bytes (index * recordSize) (index * recordSize + recordSize)
  else none

/-- A section of fixed-size records: the bytes of the section, the size of a record and its
decoder. -/
structure Records (α : Type) where
  bytes : Bytes
  recordSize : ℕ
  decode : Bytes → Decode α

namespace Records

variable {α : Type}

/-- The number of records. -/
def len (records : Records α) : ℕ :=
  records.bytes.length / records.recordSize

/-- `records.get(index)`. -/
def get (records : Records α) (index : ℕ) : Option α :=
  (recordBytes records.bytes index records.recordSize).bind fun part ↦
    match records.decode part with
    | .ok record => some record
    | .error _ => none

/-- The records in the order the iterator yields them. -/
def iter (records : Records α) : List α :=
  (List.range records.len).filterMap records.get

end Records

/-! ### Sections -/

structure SectionRange where
  start : ℕ
  stop : ℕ
  deriving DecidableEq, Repr

def rangeFromParts (start len : ℕ) : Decode SectionRange := do
  let stop ← checkedAdd .offsetOverflow start len
  pure { start, stop }

def recordRange (offset count recordSize : ℕ) : Decode SectionRange := do
  let len ← checkedMul .lengthLimit count recordSize
  rangeFromParts offset len

def byteRange (offset len : ℕ) : Decode SectionRange :=
  rangeFromParts offset len

def validateByteSection (bytes : Bytes) (range : SectionRange) : Decode Unit :=
  reject (range.stop > bytes.length) .sectionOutOfBounds

def validateRecordSection (bytes : Bytes) (range : SectionRange) : Decode Unit := do
  validateByteSection bytes range
  reject (range.start % recordSectionAlignment ≠ 0) .sectionUnaligned

def validateRecordReserved (bytes : Bytes) (range : SectionRange)
    (count recordSize fieldOffset : ℕ) : Decode Unit :=
  forRange 0 count () fun _ index ↦ do
    let recordDelta ← checkedMul .lengthLimit index recordSize
    let recordStart ← checkedAdd .offsetOverflow range.start recordDelta
    let reservedOffset ← checkedAdd .offsetOverflow recordStart fieldOffset
    let reserved ← readU32 bytes reservedOffset
    reject (reserved ≠ 0) .nonZeroReserved

def validateSectionLayout (bytesLen : ℕ) (sections : List SectionRange) : Decode Unit := do
  let expectedStart ← forEach sections headerSize fun expectedStart _ section' ↦
    if section'.start < expectedStart then fail .sectionOverlap
    else if section'.start > expectedStart then fail .sectionOrder
    else pure section'.stop
  reject (expectedStart ≠ bytesLen) .sectionOutOfBounds

def validateCount (count limit : ℕ) : Decode Unit :=
  reject (count > limit) .countLimit

def validateLen (len limit : ℕ) : Decode Unit :=
  reject (len > limit) .lengthLimit

def validateHeader (header : PythGraphHeader) : Decode Unit := do
  reject (header.magic ≠ pythTigMagic) .badMagic
  reject (header.major ≠ pythTigMajor) .unsupportedMajor
  reject (header.minor > pythTigMinor) .unsupportedMinor
  reject (header.flags ≠ 0) .unsupportedFlags
  reject (header.reserved ≠ 0) .nonZeroReserved
  validateCount header.typeCount maxRuntimeValues
  validateCount header.blockCount maxBlocks
  validateCount header.nodeCount maxGraphNodes
  validateCount header.importCount maxCapabilityImports
  validateLen header.constantPoolLen maxConstantPoolBytes
  validateLen header.stringTableLen maxStringTableBytes

def validateSections (bytes : Bytes) (header : PythGraphHeader) : Decode Unit := do
  let types ← recordRange header.typesOffset header.typeCount typeRecordSize
  let blocks ← recordRange header.blocksOffset header.blockCount blockRecordSize
  let nodes ← recordRange header.nodesOffset header.nodeCount nodeRecordSize
  let imports ← recordRange header.importsOffset header.importCount importRecordSize
  let constantPool ← byteRange header.constantPoolOffset header.constantPoolLen
  let stringTable ← byteRange header.stringTableOffset header.stringTableLen
  validateRecordSection bytes types
  validateRecordSection bytes blocks
  validateRecordSection bytes nodes
  validateRecordSection bytes imports
  validateRecordReserved bytes blocks header.blockCount blockRecordSize 20
  validateRecordReserved bytes imports header.importCount importRecordSize 20
  validateByteSection bytes constantPool
  validateByteSection bytes stringTable
  validateSectionLayout bytes.length [types, blocks, nodes, imports, constantPool, stringTable]

/-- One step of the 64-bit FNV-1a hash. -/
def fnvStep (hash byte : ℕ) : ℕ :=
  (hash ^^^ byte) * 0x100000001B3 % 2 ^ 64

/-- The hash of the bytes from an index on, with the checksum field read as zeros. -/
def checksumFrom : ℕ → ℕ → Bytes → ℕ
  | _, hash, [] => hash
  | index, hash, byte :: rest =>
    let masked := if checksumOffset ≤ index ∧ index < checksumEnd then 0 else byte.toNat
    checksumFrom (index + 1) (fnvStep hash masked) rest

def packageChecksum (bytes : Bytes) : ℕ :=
  checksumFrom 0 0xcbf29ce484222325 bytes

/-! ### Packages -/

/-- A decoded package. -/
structure PythGraphPackage where
  bytes : Bytes
  header : PythGraphHeader
  deriving DecidableEq, Repr

namespace PythGraphPackage

def decode (bytes : Bytes) : Decode PythGraphPackage := do
  reject (bytes.length > maxPackageBytes) .packageTooLarge
  reject (bytes.length < headerSize) .headerTooShort
  let header ← readHeader bytes
  validateHeader header
  validateSections bytes header
  reject (packageChecksum bytes ≠ header.checksum) .checksumMismatch
  pure { bytes, header }

variable {ε : Type}

/-- `result.expect(..)`: an error of the result is a panic of the caller. -/
def expectOk {ε' α : Type} : Checked ε' α → Checked ε α
  | .ok value => .ok value
  | .error (.returned _) => .error .panicked
  | .error .panicked => .error .panicked
  | .error .diverged => .error .diverged

def recordSection (package : PythGraphPackage) (offset count recordSize : ℕ) : Checked ε Bytes := do
  let range ← expectOk (recordRange offset count recordSize)
  expect (slice? package.bytes range.start range.stop)

def byteSection (package : PythGraphPackage) (offset len : ℕ) : Checked ε Bytes := do
  let range ← expectOk (byteRange offset len)
  expect (slice? package.bytes range.start range.stop)

def types (package : PythGraphPackage) : Checked ε (Records TypeRecord) := do
  let bytes ← package.recordSection package.header.typesOffset package.header.typeCount
    typeRecordSize
  pure { bytes, recordSize := typeRecordSize, decode := decodeTypeRecord }

def blocks (package : PythGraphPackage) : Checked ε (Records BlockRecord) := do
  let bytes ← package.recordSection package.header.blocksOffset package.header.blockCount
    blockRecordSize
  pure { bytes, recordSize := blockRecordSize, decode := decodeBlockRecord }

def nodes (package : PythGraphPackage) : Checked ε (Records NodeRecord) := do
  let bytes ← package.recordSection package.header.nodesOffset package.header.nodeCount
    nodeRecordSize
  pure { bytes, recordSize := nodeRecordSize, decode := decodeNodeRecord }

def imports (package : PythGraphPackage) : Checked ε (Records CapabilityImportRecord) := do
  let bytes ← package.recordSection package.header.importsOffset package.header.importCount
    importRecordSize
  pure { bytes, recordSize := importRecordSize, decode := decodeCapabilityImportRecord }

def constantPool (package : PythGraphPackage) : Checked ε Bytes :=
  package.byteSection package.header.constantPoolOffset package.header.constantPoolLen

def stringTable (package : PythGraphPackage) : Checked ε Bytes :=
  package.byteSection package.header.stringTableOffset package.header.stringTableLen

/-- `package.string_at(offset, len)`. The sum of the two `u32` words is checked at 32 bits. -/
def stringAt (package : PythGraphPackage) (offset len : ℕ) : Decode Bytes := do
  let stop ← if offset + len < 2 ^ 32 then pure (offset + len) else fail .offsetOverflow
  let table ← package.stringTable
  okOr .stringOutOfBounds (slice? table offset stop)

end PythGraphPackage

end Pythos.Tig
