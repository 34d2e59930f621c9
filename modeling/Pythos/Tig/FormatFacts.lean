import Pythos.Foundation.Words
import Pythos.Tig.Format

/-!
# What a decoded package guarantees

`PythGraphPackage.decode` never panics, and a package it accepts is `WellFormed`: the six sections
follow each other from byte 96 to the end of the package, within the limits of the format
(`safe_decode`). On a well-formed package every accessor returns, without a panic, the slice between
the bounds of its section (`nodes_eq` and its siblings), and the records of a section are the list its
iterator yields (`Records.get_eq_iter`, `Records.length_iter`).
-/

namespace Pythos.Tig

open Foundation

/-! ### Reading words is safe -/

section Words

variable {ε : Type} {error : ε} {left right : ℕ}

theorem safe_checkedAdd {post : ℕ → Prop} :
    Safe (checkedAdd error left right) post ↔ (left + right < usizeSize → post (left + right)) := by
  unfold checkedAdd
  split_ifs with hbound <;> simp [hbound, Safe, fail]

theorem safe_checkedMul {post : ℕ → Prop} :
    Safe (checkedMul error left right) post ↔ (left * right < usizeSize → post (left * right)) := by
  unfold checkedMul
  split_ifs with hbound <;> simp [hbound, Safe, fail]

theorem checkedAdd_eq_ok (h : left + right < usizeSize) :
    checkedAdd error left right = .ok (left + right) :=
  if_pos h

theorem checkedMul_eq_ok (h : left * right < usizeSize) :
    checkedMul error left right = .ok (left * right) :=
  if_pos h

/-- A word inside the byte string is read. -/
theorem readWord_eq {bytes : Bytes} {width offset : ℕ} (hbound : offset + width ≤ bytes.length)
    (hsize : bytes.length < usizeSize) :
    readWord bytes width offset = .ok (leNat ((bytes.drop offset).take width)) := by
  rw [readWord, readBytes, checkedAdd_eq_ok (by omega), ok_bind, slice?_eq_some (by omega) hbound,
    Nat.add_sub_cancel_left]
  rfl

end Words

/-! ### The header -/

/-- The widths of the words between the magic and the checksum. -/
def frontWidths : List ℕ := [2, 2, 4, 8, 8, 4, 4, 4, 4, 4, 4, 4, 4, 4, 4, 4, 4, 4]

/-- The words of a header between the magic and the checksum. -/
def PythGraphHeader.frontWords (header : PythGraphHeader) : List ℕ :=
  [header.major, header.minor, header.flags, header.packageId, header.principalId, header.entryBlock,
    header.typeCount, header.blockCount, header.nodeCount, header.importCount, header.constantPoolLen,
    header.stringTableLen, header.typesOffset, header.blocksOffset, header.nodesOffset,
    header.importsOffset, header.constantPoolOffset, header.stringTableOffset]

/-- The header is read from the first 96 bytes. -/
structure PythGraphHeader.ReadFrom (header : PythGraphHeader) (bytes : Bytes) : Prop where
  magic_eq : header.magic = field bytes 0 8
  front_eq : header.frontWords = words frontWidths (field bytes 8 76)
  checksum_eq : header.checksum = leNat (field bytes checksumOffset 8)
  reserved_eq : header.reserved = leNat (field bytes checksumEnd 4)

theorem readMagic_eq {bytes : Bytes} (hlong : 8 ≤ bytes.length) : readMagic bytes = .ok (field bytes 0 8) := by
  rw [readMagic, readBytes, checkedAdd_eq_ok (by decide), ok_bind, slice?_eq_some (by decide) hlong]
  rfl

theorem exists_readHeader {bytes : Bytes} (hlong : headerSize ≤ bytes.length)
    (hsize : bytes.length < usizeSize) :
    ∃ header, readHeader bytes = .ok header ∧ header.ReadFrom bytes := by
  have hlong : 96 ≤ bytes.length := hlong
  simp (disch := first | omega | simp only [checksumOffset, checksumEnd] <;> omega) only
    [readHeader, readMagic_eq, readU16, readU32, readU64, readWord_eq _ hsize, ok_bind]
  refine ⟨_, rfl, rfl, ?_, rfl, rfl⟩
  simp [PythGraphHeader.frontWords, frontWidths, words, field, List.drop_take, List.take_take]

theorem PythGraphHeader.ReadFrom.entryBlock_lt {header : PythGraphHeader} {bytes : Bytes}
    (h : header.ReadFrom bytes) : header.entryBlock < 2 ^ 32 := by
  have hfit := wordsFit_words frontWidths (field bytes 8 76)
  rw [← h.front_eq] at hfit
  simp only [frontWidths, PythGraphHeader.frontWords, List.forall₂_cons] at hfit
  exact hfit.2.2.2.2.2.1

/-! ### The records of a section -/

def typeFormat : WordFormat TypeRecord where
  widths := [2, 2, 4]
  toWords record := [record.kind, record.flags, record.auxiliary]
  length_toWords _ := rfl
  toWords_injective first second h := by cases first; cases second; simpa using h

def blockFormat : WordFormat BlockRecord where
  widths := [4, 4, 4, 2, 2, 4, 4]
  toWords record := [record.blockId, record.firstNode, record.nodeCount, record.parameterCount,
    record.flags, record.terminatorNode, record.reserved]
  length_toWords _ := rfl
  toWords_injective first second h := by cases first; cases second; simpa using h

def nodeFormat : WordFormat NodeRecord where
  widths := [2, 2, 2, 2, 4, 4, 4, 4, 4, 4, 8]
  toWords record := [record.opcode, record.resultType, record.flags, record.blockIndex, record.input0,
    record.input1, record.input2, record.input3, record.auxiliary0, record.auxiliary1, record.immediate]
  length_toWords _ := rfl
  toWords_injective first second h := by cases first; cases second; simpa using h

def importFormat : WordFormat CapabilityImportRecord where
  widths := [4, 2, 2, 8, 2, 2, 4]
  toWords record := [record.nameOffset, record.nameLen, record.resourceKind, record.rights,
    record.expectedType, record.importSlot, record.reserved]
  length_toWords _ := rfl
  toWords_injective first second h := by cases first; cases second; simpa using h

/-- The decoder reads the layout of a format from every run of the record size. -/
def DecodesAs {α : Type} (format : WordFormat α) (recordSize : ℕ) (decode : Bytes → Decode α) : Prop :=
  ∀ part : Bytes, part.length = recordSize → ∃ record, decode part = .ok record ∧ format.Reads part record

theorem decodesAs_type : DecodesAs typeFormat typeRecordSize decodeTypeRecord := by
  intro part (hlength : part.length = 8)
  have hsize : part.length < usizeSize := by rw [hlength]; decide
  simp (disch := omega) only [decodeTypeRecord, readU16, readU32, readWord_eq _ hsize, ok_bind]
  exact ⟨_, rfl, by simp [WordFormat.Reads, typeFormat, words]⟩

theorem decodesAs_block : DecodesAs blockFormat blockRecordSize decodeBlockRecord := by
  intro part (hlength : part.length = 24)
  have hsize : part.length < usizeSize := by rw [hlength]; decide
  simp (disch := omega) only [decodeBlockRecord, readU16, readU32, readWord_eq _ hsize, ok_bind]
  exact ⟨_, rfl, by simp [WordFormat.Reads, blockFormat, words]⟩

theorem decodesAs_node : DecodesAs nodeFormat nodeRecordSize decodeNodeRecord := by
  intro part (hlength : part.length = 40)
  have hsize : part.length < usizeSize := by rw [hlength]; decide
  simp (disch := omega) only [decodeNodeRecord, readU16, readU32, readU64, readWord_eq _ hsize, ok_bind]
  exact ⟨_, rfl, by simp [WordFormat.Reads, nodeFormat, words]⟩

theorem decodesAs_import : DecodesAs importFormat importRecordSize decodeCapabilityImportRecord := by
  intro part (hlength : part.length = 24)
  have hsize : part.length < usizeSize := by rw [hlength]; decide
  simp (disch := omega) only [decodeCapabilityImportRecord, readU16, readU32, readU64,
    readWord_eq _ hsize, ok_bind]
  exact ⟨_, rfl, by simp [WordFormat.Reads, importFormat, words]⟩

/-- The bounds of the fields of a node record. -/
structure NodeRecord.InRange (node : NodeRecord) : Prop where
  opcode_lt : node.opcode < 2 ^ 16
  resultType_lt : node.resultType < 2 ^ 16
  blockIndex_lt : node.blockIndex < 2 ^ 16
  input_lt : ∀ input ∈ node.inputs, input < 2 ^ 32
  auxiliary0_lt : node.auxiliary0 < 2 ^ 32
  auxiliary1_lt : node.auxiliary1 < 2 ^ 32
  immediate_lt : node.immediate < 2 ^ 64

theorem NodeRecord.inRange_of_fits {node : NodeRecord} (h : nodeFormat.Fits node) : node.InRange := by
  simp only [WordFormat.Fits, nodeFormat, List.forall₂_cons] at h
  obtain ⟨hopcode, hresult, -, hblock, hinput0, hinput1, hinput2, hinput3, haux0, haux1, himmediate, -⟩ := h
  refine ⟨hopcode, hresult, hblock, ?_, haux0, haux1, himmediate⟩
  simp only [NodeRecord.inputs, List.forall_mem_cons]
  exact ⟨hinput0, hinput1, hinput2, hinput3, List.forall_mem_nil _⟩

/-- A record decoder accepts every byte string of the record size. -/
def DecodesAll {α : Type} (recordSize : ℕ) (decode : Bytes → Decode α) : Prop :=
  ∀ part : Bytes, part.length = recordSize → ∃ record, decode part = .ok record

theorem DecodesAs.decodesAll {α : Type} {format : WordFormat α} {recordSize : ℕ}
    {decode : Bytes → Decode α} (h : DecodesAs format recordSize decode) : DecodesAll recordSize decode :=
  fun part hpart ↦ (h part hpart).imp fun _ ↦ And.left

namespace Records

variable {α : Type}

/-- A section whose decoder accepts every record, small enough for `usize` arithmetic. -/
structure Total (records : Records α) : Prop where
  size_pos : 0 < records.recordSize
  size_lt : records.bytes.length < 2 ^ 63
  decodes : DecodesAll records.recordSize records.decode

variable {records : Records α}

theorem Total.get_isSome_iff (h : records.Total) {index : ℕ} :
    (records.get index).isSome ↔ index < records.len := by
  have hiff : index < records.len ↔
      index * records.recordSize + records.recordSize ≤ records.bytes.length := by
    unfold len
    rw [← Nat.succ_le_iff, Nat.le_div_iff_mul_le h.size_pos, Nat.succ_mul]
  rw [hiff]
  unfold get recordBytes
  constructor
  · intro hsome
    by_contra hout
    split_ifs at hsome with hsize
    · rw [slice?, if_neg fun hin ↦ hout hin.2] at hsome
      simp at hsome
    · simp at hsome
  · intro hin
    have hsize : index * records.recordSize + records.recordSize < usizeSize := by
      have := h.size_lt
      unfold usizeSize
      omega
    rw [if_pos hsize]
    obtain ⟨part, hpart⟩ : ∃ part, slice? records.bytes (index * records.recordSize)
        (index * records.recordSize + records.recordSize) = some part :=
      ⟨_, slice?_eq_some (by omega) hin⟩
    have hlength := length_of_slice? hpart
    rw [Nat.add_sub_cancel_left] at hlength
    obtain ⟨record, hrecord⟩ := h.decodes part hlength
    simp [hpart, hrecord]

theorem Total.len_eq (h : records.Total) {count : ℕ}
    (hcount : records.bytes.length = count * records.recordSize) : records.len = count := by
  rw [len, hcount, Nat.mul_div_cancel _ h.size_pos]

theorem filterMap_range_eq_map {β : Type} (f : ℕ → Option β) (count : ℕ)
    (h : ∀ index < count, (f index).isSome) :
    ((List.range count).filterMap f).length = count ∧
      ∀ index < count, ((List.range count).filterMap f)[index]? = f index := by
  induction count with
  | zero => exact ⟨rfl, fun index hindex ↦ absurd hindex (Nat.not_lt_zero index)⟩
  | succ count ih =>
    obtain ⟨hlength, hget⟩ := ih fun index hindex ↦ h index (by omega)
    obtain ⟨last, hlast⟩ := Option.isSome_iff_exists.mp (h count (by omega))
    rw [List.range_succ, List.filterMap_append, List.filterMap_cons, List.filterMap_nil, hlast]
    constructor
    · rw [List.length_append, hlength]
      rfl
    · intro index hindex
      by_cases hend : index < count
      · rw [List.getElem?_append_left (by omega)]
        exact hget index hend
      · obtain rfl : index = count := by omega
        rw [List.getElem?_append_right (by omega), hlength, Nat.sub_self, hlast]
        rfl

theorem Total.length_iter (h : records.Total) : records.iter.length = records.len :=
  (filterMap_range_eq_map records.get records.len fun _ hindex ↦ h.get_isSome_iff.mpr hindex).1

/-- The record at an index is the item the iterator yields there. -/
theorem Total.get_eq_iter (h : records.Total) (index : ℕ) :
    records.get index = records.iter[index]? := by
  by_cases hindex : index < records.len
  · exact ((filterMap_range_eq_map records.get records.len
      fun _ hlt ↦ h.get_isSome_iff.mpr hlt).2 index hindex).symm
  · rw [List.getElem?_eq_none (by rw [h.length_iter]; omega)]
    by_contra hsome
    exact hindex (h.get_isSome_iff.mp (Option.isSome_iff_ne_none.mpr hsome))

/-- The accessors of the section answer as the list of its records does. -/
structure Shows (records : Records α) (items : List α) : Prop where
  get_eq : ∀ index, records.get index = items[index]?
  len_eq : records.len = items.length
  iter_eq : records.iter = items

theorem Total.shows (h : records.Total) : records.Shows records.iter :=
  ⟨h.get_eq_iter, h.length_iter.symm, rfl⟩

end Records

/-! ### Well-formed packages -/

namespace PythGraphPackage

/-- The sections of the package follow each other from the end of the header to the end of the
package, and the counts respect the limits of the format. -/
structure WellFormed (package : PythGraphPackage) : Prop where
  length_le : package.bytes.length ≤ maxPackageBytes
  header_eq : readHeader package.bytes = .ok package.header
  entryBlock_lt : package.header.entryBlock < 2 ^ 32
  blockCount_le : package.header.blockCount ≤ maxBlocks
  nodeCount_le : package.header.nodeCount ≤ maxGraphNodes
  importCount_le : package.header.importCount ≤ maxCapabilityImports
  constantPoolLen_le : package.header.constantPoolLen ≤ maxConstantPoolBytes
  stringTableLen_le : package.header.stringTableLen ≤ maxStringTableBytes
  typesOffset_eq : package.header.typesOffset = headerSize
  blocksOffset_eq : package.header.blocksOffset =
    package.header.typesOffset + package.header.typeCount * typeRecordSize
  nodesOffset_eq : package.header.nodesOffset =
    package.header.blocksOffset + package.header.blockCount * blockRecordSize
  importsOffset_eq : package.header.importsOffset =
    package.header.nodesOffset + package.header.nodeCount * nodeRecordSize
  constantPoolOffset_eq : package.header.constantPoolOffset =
    package.header.importsOffset + package.header.importCount * importRecordSize
  stringTableOffset_eq : package.header.stringTableOffset =
    package.header.constantPoolOffset + package.header.constantPoolLen
  length_eq : package.bytes.length =
    package.header.stringTableOffset + package.header.stringTableLen

end PythGraphPackage

theorem safe_validateRecordReserved (bytes : Bytes) (range : SectionRange)
    (count recordSize fieldOffset : ℕ) :
    Safe (validateRecordReserved bytes range count recordSize fieldOffset) fun _ ↦ True := by
  refine (safe_forRange (fun _ _ ↦ True) (Nat.zero_le count) trivial
    fun _ _ _ _ _ ↦ ?_).mono fun _ _ ↦ trivial
  simp only [readU32, readWord, readBytes, safe_bind_iff, safe_checkedMul, safe_checkedAdd, safe_okOr,
    safe_pure, safe_reject]
  intros
  trivial

/-- The layout check accepts exactly consecutive sections from the header to the end. -/
theorem safe_validateSectionLayout (bytesLen : ℕ) (s0 s1 s2 s3 s4 s5 : SectionRange) :
    Safe (validateSectionLayout bytesLen [s0, s1, s2, s3, s4, s5]) fun _ ↦
      s0.start = headerSize ∧ s1.start = s0.stop ∧ s2.start = s1.stop ∧ s3.start = s2.stop ∧
        s4.start = s3.stop ∧ s5.start = s4.stop ∧ bytesLen = s5.stop := by
  have hstep (expected : ℕ) (range : SectionRange) (post : ℕ → Prop) :
      Safe (if range.start < expected then fail .sectionOverlap
        else if range.start > expected then fail .sectionOrder else pure range.stop : Decode ℕ) post ↔
        (range.start = expected → post range.stop) := by
    split_ifs with hlow hhigh
    · simp [hlow.ne]
    · simp [hhigh.ne']
    · simp [show range.start = expected by omega]
  simp only [validateSectionLayout, forEach, List.zipIdx_cons, List.zipIdx_nil, List.foldlM_cons,
    List.foldlM_nil, safe_bind_iff, hstep, safe_pure, safe_reject, not_not]
  intro h0 h1 h2 h3 h4 h5 hend
  exact ⟨h0, h1, h2, h3, h4, h5, hend.symm⟩

theorem safe_validateHeader (header : PythGraphHeader) :
    Safe (validateHeader header) fun _ ↦
      (header.magic = pythTigMagic ∧ header.major = pythTigMajor ∧ header.minor ≤ pythTigMinor ∧
          header.flags = 0 ∧ header.reserved = 0) ∧
        header.blockCount ≤ maxBlocks ∧ header.nodeCount ≤ maxGraphNodes ∧
          header.importCount ≤ maxCapabilityImports ∧ header.constantPoolLen ≤ maxConstantPoolBytes ∧
            header.stringTableLen ≤ maxStringTableBytes := by
  simp only [validateHeader, validateCount, validateLen, safe_bind_iff, safe_reject, not_not, not_lt]
  intro hmagic hmajor hminor hflags hreserved _ hblocks hnodes himports hconstants hstrings
  exact ⟨⟨hmagic, hmajor, hminor, hflags, hreserved⟩, hblocks, hnodes, himports, hconstants, hstrings⟩

/-- The section check accepts only consecutive sections that fill the package. -/
theorem safe_validateSections (bytes : Bytes) (header : PythGraphHeader) :
    Safe (validateSections bytes header) fun _ ↦
      header.typesOffset = headerSize ∧
        header.blocksOffset = header.typesOffset + header.typeCount * typeRecordSize ∧
          header.nodesOffset = header.blocksOffset + header.blockCount * blockRecordSize ∧
            header.importsOffset = header.nodesOffset + header.nodeCount * nodeRecordSize ∧
              header.constantPoolOffset =
                  header.importsOffset + header.importCount * importRecordSize ∧
                header.stringTableOffset = header.constantPoolOffset + header.constantPoolLen ∧
                  bytes.length = header.stringTableOffset + header.stringTableLen := by
  simp only [validateSections, recordRange, byteRange, rangeFromParts, validateRecordSection,
    validateByteSection, safe_bind_iff, safe_checkedMul, safe_checkedAdd, safe_pure, safe_reject]
  intros
  refine (safe_validateRecordReserved _ _ _ _ _).mono fun _ _ ↦ ?_
  refine (safe_validateRecordReserved _ _ _ _ _).mono fun _ _ ↦ ?_
  intro _ _
  exact safe_validateSectionLayout ..

namespace PythGraphPackage

/-- The fixed words of the header have their values, and the checksum is that of the package. -/
structure Sealed (package : PythGraphPackage) : Prop where
  readFrom : package.header.ReadFrom package.bytes
  magic_eq : package.header.magic = pythTigMagic
  major_eq : package.header.major = pythTigMajor
  minor_le : package.header.minor ≤ pythTigMinor
  flags_eq : package.header.flags = 0
  reserved_eq : package.header.reserved = 0
  checksum_eq : package.header.checksum = packageChecksum package.bytes

theorem safe_decode_checks (bytes : Bytes) :
    Safe (decode bytes) fun package ↦ (package.bytes = bytes ∧ package.WellFormed) ∧ package.Sealed := by
  refine safe_reject_bind fun hlength ↦ ?_
  refine safe_reject_bind fun hlong ↦ ?_
  obtain ⟨header, hheader, hread⟩ := exists_readHeader (not_lt.mp hlong)
    (lt_of_le_of_lt (not_lt.mp hlength) (by decide))
  rw [hheader, ok_bind]
  refine safe_bind (safe_validateHeader header) fun _ hvalid ↦ ?_
  refine safe_bind (safe_validateSections bytes header) fun _ hsections ↦ ?_
  refine safe_reject_bind fun hchecksum ↦ ?_
  obtain ⟨⟨hmagic, hmajor, hminor, hflags, hreserved⟩, hblocks, hnodes, himports, hconstants, hstrings⟩ := hvalid
  obtain ⟨htypesAt, hblocksAt, hnodesAt, himportsAt, hconstantsAt, hstringsAt, hend⟩ := hsections
  exact ⟨⟨rfl, not_lt.mp hlength, hheader, hread.entryBlock_lt, hblocks, hnodes, himports, hconstants,
    hstrings, htypesAt, hblocksAt, hnodesAt, himportsAt, hconstantsAt, hstringsAt, hend⟩,
    hread, hmagic, hmajor, hminor, hflags, hreserved, (not_not.mp hchecksum).symm⟩

/-- The decoder does not panic, and a package it accepts is well formed. -/
theorem safe_decode (bytes : Bytes) :
    Safe (decode bytes) fun package ↦ package.bytes = bytes ∧ package.WellFormed :=
  (safe_decode_checks bytes).mono fun _ ↦ And.left

theorem safe_decode_sealed (bytes : Bytes) : Safe (decode bytes) Sealed :=
  (safe_decode_checks bytes).mono fun _ ↦ And.right

/-! ### Accessors of a well-formed package -/

/-- The bytes between two offsets of the package. -/
def part (package : PythGraphPackage) (start len : ℕ) : Bytes :=
  (package.bytes.drop start).take len

def typeRecords (package : PythGraphPackage) : Records TypeRecord where
  bytes := package.part package.header.typesOffset (package.header.typeCount * typeRecordSize)
  recordSize := typeRecordSize
  decode := decodeTypeRecord

def blockRecords (package : PythGraphPackage) : Records BlockRecord where
  bytes := package.part package.header.blocksOffset (package.header.blockCount * blockRecordSize)
  recordSize := blockRecordSize
  decode := decodeBlockRecord

def nodeRecords (package : PythGraphPackage) : Records NodeRecord where
  bytes := package.part package.header.nodesOffset (package.header.nodeCount * nodeRecordSize)
  recordSize := nodeRecordSize
  decode := decodeNodeRecord

def importRecords (package : PythGraphPackage) : Records CapabilityImportRecord where
  bytes := package.part package.header.importsOffset (package.header.importCount * importRecordSize)
  recordSize := importRecordSize
  decode := decodeCapabilityImportRecord

def constantBytes (package : PythGraphPackage) : Bytes :=
  package.part package.header.constantPoolOffset package.header.constantPoolLen

def stringBytes (package : PythGraphPackage) : Bytes :=
  package.part package.header.stringTableOffset package.header.stringTableLen

section Accessors

variable {ε : Type} {package : PythGraphPackage}

namespace WellFormed

theorem nodes_bound (h : package.WellFormed) :
    package.header.nodesOffset + package.header.nodeCount * nodeRecordSize ≤
      package.bytes.length := by
  have := h.importsOffset_eq
  have := h.constantPoolOffset_eq
  have := h.stringTableOffset_eq
  have := h.length_eq
  omega

theorem blocks_bound (h : package.WellFormed) :
    package.header.blocksOffset + package.header.blockCount * blockRecordSize ≤
      package.bytes.length := by
  have := h.nodesOffset_eq
  have := h.nodes_bound
  omega

theorem types_bound (h : package.WellFormed) :
    package.header.typesOffset + package.header.typeCount * typeRecordSize ≤
      package.bytes.length := by
  have := h.blocksOffset_eq
  have := h.blocks_bound
  omega

theorem imports_bound (h : package.WellFormed) :
    package.header.importsOffset + package.header.importCount * importRecordSize ≤
      package.bytes.length := by
  have := h.constantPoolOffset_eq
  have := h.stringTableOffset_eq
  have := h.length_eq
  omega

end WellFormed

theorem byteSection_eq {offset len : ℕ} (hbound : offset + len ≤ package.bytes.length)
    (hsize : package.bytes.length < usizeSize) :
    (package.byteSection offset len : Checked ε Bytes) = .ok (package.part offset len) := by
  rw [byteSection, byteRange, rangeFromParts, checkedAdd_eq_ok (by omega)]
  show expect (slice? package.bytes offset (offset + len)) = _
  rw [slice?_eq_some (by omega) hbound, Nat.add_sub_cancel_left]
  rfl

theorem recordSection_eq {offset count recordSize : ℕ}
    (hbound : offset + count * recordSize ≤ package.bytes.length)
    (hsize : package.bytes.length < usizeSize) :
    (package.recordSection offset count recordSize : Checked ε Bytes) =
      .ok (package.part offset (count * recordSize)) := by
  rw [recordSection, recordRange, checkedMul_eq_ok (by omega), ok_bind]
  exact byteSection_eq hbound hsize

section

variable (h : package.WellFormed)

include h

theorem WellFormed.length_lt : package.bytes.length < usizeSize :=
  lt_of_le_of_lt h.length_le (by decide)

theorem WellFormed.types_eq :
    (package.types : Checked ε (Records TypeRecord)) = .ok package.typeRecords := by
  unfold types
  rw [recordSection_eq h.types_bound h.length_lt]
  rfl

theorem WellFormed.blocks_eq :
    (package.blocks : Checked ε (Records BlockRecord)) = .ok package.blockRecords := by
  unfold blocks
  rw [recordSection_eq h.blocks_bound h.length_lt]
  rfl

theorem WellFormed.nodes_eq :
    (package.nodes : Checked ε (Records NodeRecord)) = .ok package.nodeRecords := by
  unfold nodes
  rw [recordSection_eq h.nodes_bound h.length_lt]
  rfl

theorem WellFormed.imports_eq :
    (package.imports : Checked ε (Records CapabilityImportRecord)) = .ok package.importRecords := by
  unfold imports
  rw [recordSection_eq h.imports_bound h.length_lt]
  rfl

theorem WellFormed.constantPool_eq :
    (package.constantPool : Checked ε Bytes) = .ok package.constantBytes :=
  byteSection_eq (by have := h.stringTableOffset_eq; have := h.length_eq; omega) h.length_lt

theorem WellFormed.stringTable_eq :
    (package.stringTable : Checked ε Bytes) = .ok package.stringBytes :=
  byteSection_eq (by have := h.length_eq; omega) h.length_lt

end

end Accessors

end PythGraphPackage

/-! ### The graph of a package -/

/-- The contents of the sections of a package: what its accessors return, as lists. -/
structure Graph where
  nodes : List NodeRecord
  blocks : List BlockRecord
  imports : List CapabilityImportRecord
  constantPool : Bytes
  stringTable : Bytes
  entryBlock : ℕ
  deriving DecidableEq, Repr

namespace PythGraphPackage

def graph (package : PythGraphPackage) : Graph where
  nodes := package.nodeRecords.iter
  blocks := package.blockRecords.iter
  imports := package.importRecords.iter
  constantPool := package.constantBytes
  stringTable := package.stringBytes
  entryBlock := package.header.entryBlock

variable {package : PythGraphPackage}

theorem length_part {start len : ℕ} (h : start + len ≤ package.bytes.length) :
    (package.part start len).length = len := by
  rw [part, List.length_take, List.length_drop]
  omega

namespace WellFormed

section

variable (h : package.WellFormed)

include h

theorem length_part_lt (start len : ℕ) : (package.part start len).length < 2 ^ 63 := by
  refine lt_of_le_of_lt ?_ (lt_of_le_of_lt h.length_le (show maxPackageBytes < 2 ^ 63 by decide))
  rw [part, List.length_take, List.length_drop]
  omega

theorem total_types : package.typeRecords.Total :=
  ⟨show 0 < typeRecordSize by decide, h.length_part_lt _ _, decodesAs_type.decodesAll⟩

theorem total_blocks : package.blockRecords.Total :=
  ⟨show 0 < blockRecordSize by decide, h.length_part_lt _ _, decodesAs_block.decodesAll⟩

theorem total_nodes : package.nodeRecords.Total :=
  ⟨show 0 < nodeRecordSize by decide, h.length_part_lt _ _, decodesAs_node.decodesAll⟩

theorem total_imports : package.importRecords.Total :=
  ⟨show 0 < importRecordSize by decide, h.length_part_lt _ _, decodesAs_import.decodesAll⟩

theorem shows_nodes : package.nodeRecords.Shows package.graph.nodes :=
  h.total_nodes.shows

theorem shows_blocks : package.blockRecords.Shows package.graph.blocks :=
  h.total_blocks.shows

theorem shows_imports : package.importRecords.Shows package.graph.imports :=
  h.total_imports.shows

theorem length_nodes : package.graph.nodes.length = package.header.nodeCount :=
  h.shows_nodes.len_eq.symm.trans (h.total_nodes.len_eq (length_part h.nodes_bound))

theorem length_blocks : package.graph.blocks.length = package.header.blockCount :=
  h.shows_blocks.len_eq.symm.trans (h.total_blocks.len_eq (length_part h.blocks_bound))

theorem length_imports : package.graph.imports.length = package.header.importCount :=
  h.shows_imports.len_eq.symm.trans (h.total_imports.len_eq (length_part h.imports_bound))

theorem length_nodes_le : package.graph.nodes.length ≤ maxGraphNodes :=
  h.length_nodes.trans_le h.nodeCount_le

theorem index_lt {index : ℕ} {node : NodeRecord} (hnode : package.graph.nodes[index]? = some node) :
    index < maxGraphNodes :=
  lt_of_lt_of_le (List.getElem?_eq_some_iff.mp hnode).1 h.length_nodes_le

theorem length_blocks_le : package.graph.blocks.length ≤ maxBlocks :=
  h.length_blocks.trans_le h.blockCount_le

theorem length_stringTable_le : package.graph.stringTable.length ≤ maxStringTableBytes :=
  (List.length_take_le _ _).trans h.stringTableLen_le

end

/-- The fields of every node of the graph are words of their width. -/
theorem inRange_of_mem {node : NodeRecord} (hnode : node ∈ package.graph.nodes) :
    node.InRange := by
  obtain ⟨index, -, hget⟩ := List.mem_filterMap.mp hnode
  obtain ⟨bytes, hbytes, hdecode⟩ := Option.bind_eq_some_iff.mp hget
  have hlength : bytes.length = nodeRecordSize := by
    unfold recordBytes at hbytes
    split_ifs at hbytes
    rw [length_of_slice? hbytes, Nat.add_sub_cancel_left]
    rfl
  obtain ⟨record, hrecord, hreads⟩ := decodesAs_node bytes hlength
  obtain rfl : record = node := by simpa [nodeRecords, hrecord] using hdecode
  exact NodeRecord.inRange_of_fits hreads.fits

end WellFormed

end PythGraphPackage

end Pythos.Tig
