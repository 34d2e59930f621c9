import Pythos.Tig.FormatFacts

/-!
# The bytes of a package are determined by its contents

A package that the decoder accepts has one spelling. Its magic, major version, flags and reserved words are
fixed, its counts and offsets follow from the lengths of its sections, and its checksum follows from the other
bytes. What is left free are four words of the header (the minor version, the package id, the principal and the
entry block), the records and the two pools: the `PackageContent`. Writing the content of an accepted package
gives the package back (`encode_content`), and a content is known from the bytes written for it
(`PackageContent.encode_inj`).
-/

namespace Pythos.Tig

open Foundation

variable {bytes : Bytes}

/-- The bytes of a section are the encodings of its records. -/
structure Records.Spelled {α : Type} (records : Records α) (format : WordFormat α) : Prop where
  flatMap_encode : records.iter.flatMap format.encode = records.bytes
  fits : ∀ record ∈ records.iter, format.Fits record

namespace Records

variable {α : Type} {records : Records α} {format : WordFormat α} {count : ℕ}

theorem flatMap_filterMap_eq {get : ℕ → Option α} {encode : α → Bytes} {run : ℕ → Bytes}
    {indices : List ℕ} (h : ∀ index ∈ indices, ∃ record, get index = some record ∧
      encode record = run index) : (indices.filterMap get).flatMap encode = indices.flatMap run := by
  induction indices with
  | nil => rfl
  | cons index rest ih =>
    obtain ⟨record, hget, hencode⟩ := h index List.mem_cons_self
    rw [List.filterMap_cons_some hget, List.flatMap_cons, List.flatMap_cons, hencode,
      ih fun other hother ↦ h other (List.mem_cons_of_mem _ hother)]

/-- The record at an index is decoded from the run at the index. -/
theorem Total.exists_run (h : records.Total) (hcount : records.bytes.length = count * records.recordSize)
    {index : ℕ} (hindex : index < count) : ∃ record, records.get index = some record ∧
      records.decode (field records.bytes (index * records.recordSize) records.recordSize) =
        .ok record := by
  have hinside : index * records.recordSize + records.recordSize ≤ records.bytes.length := by
    rw [hcount, ← Nat.succ_mul]
    exact Nat.mul_le_mul_right _ hindex
  have hsize : index * records.recordSize + records.recordSize < usizeSize :=
    lt_of_le_of_lt hinside (h.size_lt.trans (by decide))
  have hslice := slice?_eq_some (Nat.le_add_right _ _) hinside
  rw [Nat.add_sub_cancel_left] at hslice
  obtain ⟨record, hrecord⟩ := h.decodes _ (length_field hinside)
  refine ⟨record, ?_, hrecord⟩
  rw [get, recordBytes, if_pos hsize, hslice, Option.bind_some]
  rw [field] at hrecord
  rw [hrecord]

theorem Total.spelled (h : records.Total) (hcount : records.bytes.length = count * records.recordSize)
    (hsize : format.size = records.recordSize)
    (hreads : DecodesAs format records.recordSize records.decode) : records.Spelled format := by
  have hlen := h.len_eq hcount
  have hrun : ∀ index < count, ∃ record, records.get index = some record ∧ format.Fits record ∧
      format.encode record = field records.bytes (index * records.recordSize) records.recordSize := by
    intro index hindex
    obtain ⟨record, hget, hdecode⟩ := h.exists_run hcount hindex
    have hlength : (field records.bytes (index * records.recordSize) records.recordSize).length =
        records.recordSize := by
      refine length_field ?_
      rw [hcount, ← Nat.succ_mul]
      exact Nat.mul_le_mul_right _ hindex
    obtain ⟨record', hdecode', hread⟩ := hreads _ hlength
    obtain rfl := Except.ok.inj (hdecode.symm.trans hdecode')
    exact ⟨record, hget, hread.fits, hread.encode_eq (hlength.trans hsize.symm)⟩
  constructor
  · rw [iter, hlen]
    refine (flatMap_filterMap_eq fun index hindex ↦ ?_).trans (flatMap_field_range _ _ count hcount)
    obtain ⟨record, hget, -, hencode⟩ := hrun index (List.mem_range.mp hindex)
    exact ⟨record, hget, hencode⟩
  · intro record hrecord
    obtain ⟨index, hindex, hget⟩ := List.mem_filterMap.mp hrecord
    rw [hlen, List.mem_range] at hindex
    obtain ⟨record', hget', hfits, -⟩ := hrun index hindex
    rw [hget, Option.some_inj] at hget'
    exact hget' ▸ hfits

end Records

/-! ### The content of a package -/

/-- What a package is free to choose. -/
structure PackageContent where
  minor : ℕ
  packageId : ℕ
  principalId : ℕ
  entryBlock : ℕ
  types : List TypeRecord
  blocks : List BlockRecord
  nodes : List NodeRecord
  imports : List CapabilityImportRecord
  constantPool : Bytes
  stringTable : Bytes
  deriving DecidableEq, Repr

namespace PackageContent

def typesOffset : ℕ := headerSize

def blocksOffset (content : PackageContent) : ℕ :=
  typesOffset + content.types.length * typeRecordSize

def nodesOffset (content : PackageContent) : ℕ :=
  content.blocksOffset + content.blocks.length * blockRecordSize

def importsOffset (content : PackageContent) : ℕ :=
  content.nodesOffset + content.nodes.length * nodeRecordSize

def constantPoolOffset (content : PackageContent) : ℕ :=
  content.importsOffset + content.imports.length * importRecordSize

def stringTableOffset (content : PackageContent) : ℕ :=
  content.constantPoolOffset + content.constantPool.length

/-- The words of the header between the magic and the checksum. -/
def frontWords (content : PackageContent) : List ℕ :=
  [pythTigMajor, content.minor, 0, content.packageId, content.principalId, content.entryBlock,
    content.types.length, content.blocks.length, content.nodes.length, content.imports.length,
    content.constantPool.length, content.stringTable.length, typesOffset, content.blocksOffset,
    content.nodesOffset, content.importsOffset, content.constantPoolOffset, content.stringTableOffset]

/-- The header with a given checksum field. -/
def headerBytes (content : PackageContent) (checksum : ℕ) : Bytes :=
  pythTigMagic ++ unwords frontWidths content.frontWords ++ leBytes 8 checksum ++ leBytes 4 0

/-- The sections behind the header. -/
def sectionBytes (content : PackageContent) : Bytes :=
  content.types.flatMap typeFormat.encode ++ content.blocks.flatMap blockFormat.encode ++
    content.nodes.flatMap nodeFormat.encode ++ content.imports.flatMap importFormat.encode ++
      content.constantPool ++ content.stringTable

/-- The package of a content. Its checksum is that of the package whose checksum field is zero. -/
def encode (content : PackageContent) : Bytes :=
  content.headerBytes (packageChecksum (content.headerBytes 0 ++ content.sectionBytes)) ++
    content.sectionBytes

/-- The content of a package of principal 1 that starts at its first block. -/
def of (blocks : List BlockRecord) (nodes : List NodeRecord) (imports : List CapabilityImportRecord)
    (stringTable : Bytes) : PackageContent where
  minor := pythTigMinor
  packageId := 0
  principalId := 1
  entryBlock := 0
  types := []
  blocks := blocks
  nodes := nodes
  imports := imports
  constantPool := []
  stringTable := stringTable

end PackageContent

/-- A block of consecutive nodes, of which the last leaves the block. -/
def BlockRecord.of (blockId firstNode nodeCount parameterCount : ℕ) : BlockRecord :=
  ⟨blockId, firstNode, nodeCount, parameterCount, 0, firstNode + nodeCount - 1, 0⟩

/-- A node without an immediate, with the inputs it has. -/
def NodeRecord.of (opcode : Opcode) (resultType : PythType) (blockIndex : ℕ) (inputs : List ℕ)
    (auxiliary0 auxiliary1 : ℕ) : NodeRecord :=
  ⟨opcode.code, resultType.code, 0, blockIndex, inputs.getD 0 noValue, inputs.getD 1 noValue,
    inputs.getD 2 noValue, inputs.getD 3 noValue, auxiliary0, auxiliary1, 0⟩

/-- The import of a capability with one right, whose name has three letters. -/
def CapabilityImportRecord.of (nameOffset resourceKind importSlot : ℕ) : CapabilityImportRecord :=
  ⟨nameOffset, 3, resourceKind, 1, PythType.capability.code, importSlot, 0⟩

namespace PythGraphPackage

/-- The content of a package, as its accessors return it. -/
def content (package : PythGraphPackage) : PackageContent where
  minor := package.header.minor
  packageId := package.header.packageId
  principalId := package.header.principalId
  entryBlock := package.header.entryBlock
  types := package.typeRecords.iter
  blocks := package.blockRecords.iter
  nodes := package.nodeRecords.iter
  imports := package.importRecords.iter
  constantPool := package.constantBytes
  stringTable := package.stringBytes

end PythGraphPackage

/-! ### The checksum does not read its own field -/

theorem checksumFrom_append (first rest : Bytes) : ∀ index hash,
    checksumFrom index hash (first ++ rest) =
      checksumFrom (index + first.length) (checksumFrom index hash first) rest := by
  induction first with
  | nil => exact fun _ _ ↦ rfl
  | cons byte first ih =>
    intro index hash
    rw [List.cons_append, checksumFrom, checksumFrom, ih, List.length_cons, Nat.add_right_comm]
    rfl

theorem checksumFrom_masked {first second : Bytes} (hlength : first.length = second.length) :
    ∀ index hash, checksumOffset ≤ index → index + first.length ≤ checksumEnd →
      checksumFrom index hash first = checksumFrom index hash second := by
  induction first generalizing second with
  | nil =>
    rw [List.length_eq_zero_iff.mp hlength.symm]
    exact fun _ _ _ _ ↦ rfl
  | cons byte first ih =>
    cases second with
    | nil => simp at hlength
    | cons byte' second =>
      intro index hash hlow hhigh
      rw [List.length_cons] at hhigh
      have hin : checksumOffset ≤ index ∧ index < checksumEnd := ⟨hlow, by omega⟩
      simp only [checksumFrom, if_pos hin]
      exact ih (Nat.succ.inj hlength) _ _ (by omega) (by omega)

/-- The checksum of a package does not depend on its checksum field. -/
theorem packageChecksum_field {front field₁ field₂ rest : Bytes} (hfront : front.length = checksumOffset)
    (h₁ : field₁.length = 8) (h₂ : field₂.length = 8) :
    packageChecksum (front ++ (field₁ ++ rest)) = packageChecksum (front ++ (field₂ ++ rest)) := by
  have hmasked := checksumFrom_masked (h₁.trans h₂.symm) (0 + front.length)
    (checksumFrom 0 0xcbf29ce484222325 front) (by omega) (by rw [h₁, hfront]; decide)
  simp only [packageChecksum, checksumFrom_append, hmasked, h₁, h₂]

theorem length_front (content : PackageContent) :
    (pythTigMagic ++ unwords frontWidths content.frontWords).length = checksumOffset := by
  have hwords : content.frontWords.length = frontWidths.length := rfl
  rw [List.length_append, length_unwords hwords]
  rfl

/-- The checksum of a written package does not depend on the checksum written into it. -/
theorem PackageContent.packageChecksum_headerBytes (content : PackageContent) (checksum : ℕ) :
    packageChecksum (content.headerBytes checksum ++ content.sectionBytes) =
      packageChecksum (content.headerBytes 0 ++ content.sectionBytes) := by
  have hsplit : ∀ word, content.headerBytes word ++ content.sectionBytes =
      pythTigMagic ++ unwords frontWidths content.frontWords ++
        (leBytes 8 word ++ (leBytes 4 0 ++ content.sectionBytes)) := by
    intro word
    simp only [headerBytes, List.append_assoc]
  rw [hsplit, hsplit]
  exact packageChecksum_field (length_front content) (length_leBytes _ _) (length_leBytes _ _)

/-! ### Writing the content of a package -/

theorem field_append_field {offset first next second : ℕ} (h : offset + first = next) :
    field bytes offset first ++ field bytes next second = field bytes offset (first + second) := by
  rw [field, field, field, ← h, ← List.drop_drop, ← List.take_add]

theorem leBytes_leNat_field {offset width : ℕ} (h : offset + width ≤ bytes.length) :
    leBytes width (leNat (field bytes offset width)) = field bytes offset width := by
  have hword := leBytes_leNat (field bytes offset width)
  rwa [length_field h] at hword

namespace PythGraphPackage

variable {package : PythGraphPackage}

theorem part_eq (package : PythGraphPackage) (start len : ℕ) :
    package.part start len = field package.bytes start len := rfl

namespace WellFormed

section

variable (h : package.WellFormed)

include h

theorem spelled_types : package.typeRecords.Spelled typeFormat :=
  h.total_types.spelled (length_part h.types_bound) rfl decodesAs_type

theorem spelled_blocks : package.blockRecords.Spelled blockFormat :=
  h.total_blocks.spelled (length_part h.blocks_bound) rfl decodesAs_block

theorem spelled_nodes : package.nodeRecords.Spelled nodeFormat :=
  h.total_nodes.spelled (length_part h.nodes_bound) rfl decodesAs_node

theorem spelled_imports : package.importRecords.Spelled importFormat :=
  h.total_imports.spelled (length_part h.imports_bound) rfl decodesAs_import

theorem length_types : package.typeRecords.iter.length = package.header.typeCount :=
  h.total_types.length_iter.trans (h.total_types.len_eq (length_part h.types_bound))

theorem headerSize_le : headerSize ≤ package.bytes.length := by
  rw [h.length_eq, h.stringTableOffset_eq, h.constantPoolOffset_eq, h.importsOffset_eq, h.nodesOffset_eq,
    h.blocksOffset_eq, h.typesOffset_eq]
  omega

theorem length_constantBytes : package.constantBytes.length = package.header.constantPoolLen :=
  length_part (by have := h.stringTableOffset_eq; have := h.length_eq; omega)

theorem length_stringBytes : package.stringBytes.length = package.header.stringTableLen :=
  length_part (by have := h.length_eq; omega)

/-- The sections follow each other to the end of the package. -/
theorem sectionBytes_content : package.content.sectionBytes = package.bytes.drop headerSize := by
  have hjoin : package.content.sectionBytes = field package.bytes headerSize
      (package.header.typeCount * typeRecordSize + package.header.blockCount * blockRecordSize +
        package.header.nodeCount * nodeRecordSize + package.header.importCount * importRecordSize +
          package.header.constantPoolLen + package.header.stringTableLen) := by
    simp only [PackageContent.sectionBytes, content, h.spelled_types.flatMap_encode,
      h.spelled_blocks.flatMap_encode, h.spelled_nodes.flatMap_encode, h.spelled_imports.flatMap_encode]
    simp only [typeRecords, blockRecords, nodeRecords, importRecords, constantBytes, stringBytes, part_eq,
      h.stringTableOffset_eq, h.constantPoolOffset_eq, h.importsOffset_eq, h.nodesOffset_eq,
      h.blocksOffset_eq, h.typesOffset_eq]
    simp (disch := omega) only [field_append_field]
  rw [hjoin, field, List.take_of_length_le]
  rw [List.length_drop, h.length_eq, h.stringTableOffset_eq, h.constantPoolOffset_eq, h.importsOffset_eq,
    h.nodesOffset_eq, h.blocksOffset_eq, h.typesOffset_eq]
  omega

theorem frontWords_content (hsealed : package.Sealed) :
    package.content.frontWords = package.header.frontWords := by
  have hblocks := h.length_blocks
  have hnodes := h.length_nodes
  have himports := h.length_imports
  simp only [graph] at hblocks hnodes himports
  simp only [PackageContent.frontWords, PythGraphHeader.frontWords, PackageContent.stringTableOffset,
    PackageContent.constantPoolOffset, PackageContent.importsOffset, PackageContent.nodesOffset,
    PackageContent.blocksOffset, PackageContent.typesOffset, content, h.length_types, hblocks, hnodes,
    himports, h.length_constantBytes, h.length_stringBytes, hsealed.major_eq, hsealed.flags_eq,
    h.stringTableOffset_eq, h.constantPoolOffset_eq, h.importsOffset_eq, h.nodesOffset_eq,
    h.blocksOffset_eq, h.typesOffset_eq]

theorem headerBytes_content (hsealed : package.Sealed) :
    package.content.headerBytes package.header.checksum = package.bytes.take headerSize := by
  have hlong : 96 ≤ package.bytes.length := h.headerSize_le
  have hread := hsealed.readFrom
  have hmagic : pythTigMagic = field package.bytes 0 8 := hsealed.magic_eq.symm.trans hread.magic_eq
  have hfront : unwords frontWidths package.content.frontWords = field package.bytes 8 76 := by
    rw [h.frontWords_content hsealed, hread.front_eq]
    exact unwords_words (length_field (by omega))
  have hchecksum : leBytes 8 package.header.checksum = field package.bytes 84 8 := by
    rw [hread.checksum_eq]
    exact leBytes_leNat_field (show 84 + 8 ≤ package.bytes.length by omega)
  have hreserved : leBytes 4 0 = field package.bytes 92 4 := by
    rw [← hsealed.reserved_eq, hread.reserved_eq]
    exact leBytes_leNat_field (show 92 + 4 ≤ package.bytes.length by omega)
  rw [PackageContent.headerBytes, hfront, hchecksum, hreserved, hmagic]
  simp (disch := omega) only [field_append_field]
  rfl

end

end WellFormed

/-- Writing the content of an accepted package gives the package back. -/
theorem encode_content {bytes : Bytes} {package : PythGraphPackage} (h : decode bytes = .ok package) :
    package.content.encode = bytes := by
  obtain ⟨hbytes, hwell⟩ := (safe_decode bytes).of_ok h
  have hsealed := (safe_decode_sealed bytes).of_ok h
  have hwritten : package.content.headerBytes package.header.checksum ++ package.content.sectionBytes =
      package.bytes := by
    rw [hwell.headerBytes_content hsealed, hwell.sectionBytes_content, List.take_append_drop]
  rw [PackageContent.encode, ← package.content.packageChecksum_headerBytes package.header.checksum, hwritten,
    ← hsealed.checksum_eq, hwritten, hbytes]

/-- The content of a package, read through its accessors. -/
def readContent {ε : Type} (package : PythGraphPackage) : Checked ε PackageContent := do
  let types ← package.types
  let blocks ← package.blocks
  let nodes ← package.nodes
  let imports ← package.imports
  let constantPool ← package.constantPool
  let stringTable ← package.stringTable
  pure
    { minor := package.header.minor, packageId := package.header.packageId
      principalId := package.header.principalId, entryBlock := package.header.entryBlock
      types := types.iter, blocks := blocks.iter, nodes := nodes.iter, imports := imports.iter
      constantPool, stringTable }

theorem WellFormed.readContent_eq {ε : Type} (h : package.WellFormed) :
    (package.readContent : Checked ε PackageContent) = .ok package.content := by
  simp only [readContent, h.types_eq, h.blocks_eq, h.nodes_eq, h.imports_eq, h.constantPool_eq,
    h.stringTable_eq, ok_bind]
  rfl

end PythGraphPackage

/-! ### A content is known from its package -/

namespace PackageContent

/-- The words of the header and of the records are words of their widths. -/
structure Fits (content : PackageContent) : Prop where
  front : WordsFit frontWidths content.frontWords
  types : ∀ record ∈ content.types, typeFormat.Fits record
  blocks : ∀ record ∈ content.blocks, blockFormat.Fits record
  nodes : ∀ record ∈ content.nodes, nodeFormat.Fits record
  imports : ∀ record ∈ content.imports, importFormat.Fits record

theorem length_flatMap_encode {α : Type} (format : WordFormat α) (records : List α) :
    (records.flatMap format.encode).length = records.length * format.size :=
  length_flatMap_of_length fun record _ ↦ format.length_encode record

variable {first second : PackageContent}

theorem length_headerBytes (content : PackageContent) (checksum : ℕ) :
    (content.headerBytes checksum).length = headerSize := by
  rw [headerBytes, List.length_append, List.length_append, length_front, length_leBytes, length_leBytes]
  rfl

theorem encode_inj (hfirst : first.Fits) (hsecond : second.Fits) (h : first.encode = second.encode) :
    first = second := by
  obtain ⟨hheader, hsections⟩ := List.append_inj h (by rw [length_headerBytes, length_headerBytes])
  have hfront : first.frontWords = second.frontWords := by
    simp only [headerBytes, List.append_assoc] at hheader
    have hrest := List.append_cancel_left hheader
    have hlength : ∀ content : PackageContent, (unwords frontWidths content.frontWords).length = 76 :=
      fun content ↦ length_unwords (show content.frontWords.length = frontWidths.length from rfl)
    have hwords := (List.append_inj hrest (by rw [hlength, hlength])).1
    rw [← words_unwords hfirst.front, ← words_unwords hsecond.front, hwords]
  simp only [frontWords, List.cons.injEq] at hfront
  obtain ⟨-, hminor, -, hpackage, hprincipal, hentry, htypes, hblocks, hnodes, himports, hconstants, -⟩ :=
    hfront
  simp only [sectionBytes, List.append_assoc] at hsections
  obtain ⟨htypesEq, hsections⟩ := List.append_inj hsections
    (by rw [length_flatMap_encode, length_flatMap_encode, htypes])
  obtain ⟨hblocksEq, hsections⟩ := List.append_inj hsections
    (by rw [length_flatMap_encode, length_flatMap_encode, hblocks])
  obtain ⟨hnodesEq, hsections⟩ := List.append_inj hsections
    (by rw [length_flatMap_encode, length_flatMap_encode, hnodes])
  obtain ⟨himportsEq, hsections⟩ := List.append_inj hsections
    (by rw [length_flatMap_encode, length_flatMap_encode, himports])
  obtain ⟨hconstantsEq, hstringsEq⟩ := List.append_inj hsections hconstants
  cases first
  cases second
  simp only [mk.injEq]
  exact ⟨hminor, hpackage, hprincipal, hentry,
    WordFormat.encodeAll_inj htypes hfirst.types hsecond.types htypesEq,
    WordFormat.encodeAll_inj hblocks hfirst.blocks hsecond.blocks hblocksEq,
    WordFormat.encodeAll_inj hnodes hfirst.nodes hsecond.nodes hnodesEq,
    WordFormat.encodeAll_inj himports hfirst.imports hsecond.imports himportsEq, hconstantsEq, hstringsEq⟩

end PackageContent

namespace PythGraphPackage

/-- The content of an accepted package fits its words. -/
theorem WellFormed.fits_content {package : PythGraphPackage} (h : package.WellFormed)
    (hsealed : package.Sealed) : package.content.Fits where
  front := by
    rw [h.frontWords_content hsealed, hsealed.readFrom.front_eq]
    exact wordsFit_words _ _
  types := h.spelled_types.fits
  blocks := h.spelled_blocks.fits
  nodes := h.spelled_nodes.fits
  imports := h.spelled_imports.fits

/-- A package that was written for a content has the content. -/
theorem content_of_decode_encode {content : PackageContent} {package : PythGraphPackage}
    (hfits : content.Fits) (h : decode content.encode = .ok package) : package.content = content := by
  have hwell := ((safe_decode _).of_ok h).2
  have hsealed := (safe_decode_sealed _).of_ok h
  exact PackageContent.encode_inj (hwell.fits_content hsealed) hfits (encode_content h)

end PythGraphPackage

end Pythos.Tig
