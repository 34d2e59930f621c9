import Pythos.Pythc.Encode
import Pythos.Tig.Totality

/-!
# The compiler and the decoder agree on every byte

The encoder of the compiler and the decoder of the shared crate are written apart. The package of a graph is
the package of a content (`packageBytes_eq`), so that the decoder reads the graph back, and every package that
the verifier accepts is the package of its content. Packages that differ only in their minor version or their
package id are both accepted.
-/

namespace Pythos.Pythc

open Foundation Tig

/-! ### The records of a graph -/

def GraphImport.toRecord (record : GraphImport) : CapabilityImportRecord where
  nameOffset := record.nameOffset.toNat
  nameLen := record.nameLen.toNat
  resourceKind := record.resourceKind.toNat
  rights := record.rights.toNat
  expectedType := record.expectedType.code
  importSlot := record.importSlot.toNat
  reserved := 0

def GraphBlock.toRecord (block : GraphBlock) : BlockRecord where
  blockId := block.blockId.toNat
  firstNode := block.firstNode.toNat
  nodeCount := block.nodeCount.toNat
  parameterCount := block.parameterCount.toNat
  flags := 0
  terminatorNode := block.terminatorNode.toNat
  reserved := 0

def GraphNode.toRecord (node : GraphNode) : NodeRecord where
  opcode := node.opcode.code
  resultType := node.resultType.code
  flags := 0
  blockIndex := node.blockIndex.toNat
  input0 := node.input0.toNat
  input1 := node.input1.toNat
  input2 := node.input2.toNat
  input3 := node.input3.toNat
  auxiliary0 := node.auxiliary0.toNat
  auxiliary1 := node.auxiliary1.toNat
  immediate := node.immediate.toNat

/-- The content of the package of a graph: no types, and block 0 as the entry. -/
def OwnedGraph.content (graph : OwnedGraph) : PackageContent where
  minor := pythTigMinor
  packageId := packageId.toNat
  principalId := graph.principalId.toNat
  entryBlock := 0
  types := []
  blocks := graph.blocks.map GraphBlock.toRecord
  nodes := graph.nodes.map GraphNode.toRecord
  imports := graph.imports.map GraphImport.toRecord
  constantPool := graph.constantPool
  stringTable := graph.stringTable

theorem writeBlock_eq (block : GraphBlock) : writeBlock block = blockFormat.encode block.toRecord := by
  simp [writeBlock, WordFormat.encode, blockFormat, GraphBlock.toRecord, unwords, leU16, leU32]

theorem writeNode_eq (node : GraphNode) : writeNode node = nodeFormat.encode node.toRecord := by
  simp [writeNode, WordFormat.encode, nodeFormat, GraphNode.toRecord, unwords, leU16, leU32, leU64]

theorem writeImport_eq (record : GraphImport) :
    writeImport record = importFormat.encode record.toRecord := by
  simp [writeImport, WordFormat.encode, importFormat, GraphImport.toRecord, unwords, leU16, leU32, leU64]

theorem headerBytes_eq (graph : OwnedGraph) (checksum : ℕ) :
    headerBytes graph checksum = graph.content.headerBytes checksum := by
  delta headerBytes
  simp only [PackageContent.headerBytes, frontWidths, PackageContent.frontWords, unwords,
    OwnedGraph.content, PackageContent.stringTableOffset, PackageContent.constantPoolOffset,
    PackageContent.importsOffset, PackageContent.nodesOffset, PackageContent.blocksOffset,
    PackageContent.typesOffset, leU64, List.length_map, List.length_nil, Nat.zero_mul, Nat.add_zero,
    List.append_nil, List.append_assoc]

theorem sectionBytes_eq (graph : OwnedGraph) : sectionBytes graph = graph.content.sectionBytes := by
  simp only [sectionBytes, PackageContent.sectionBytes, OwnedGraph.content, List.flatMap_map,
    List.flatMap_nil, List.nil_append, funext writeBlock_eq, funext writeNode_eq, funext writeImport_eq]

theorem packageBytes_eq (graph : OwnedGraph) : packageBytes graph = graph.content.encode := by
  rw [packageBytes, PackageContent.encode, headerBytes_eq, headerBytes_eq, sectionBytes_eq]

/-! ### The content of an encoded graph fits -/

theorem opcode_code_lt (opcode : Opcode) : opcode.code < 256 ^ 2 := by
  cases opcode <;> decide

theorem type_code_lt (type : PythType) : type.code < 256 ^ 2 := by
  cases type <;> decide

theorem fits_block (block : GraphBlock) : blockFormat.Fits block.toRecord :=
  .cons block.blockId.toNat_lt (.cons block.firstNode.toNat_lt (.cons block.nodeCount.toNat_lt
    (.cons block.parameterCount.toNat_lt (.cons (Nat.two_pow_pos 16) (.cons block.terminatorNode.toNat_lt
      (.cons (Nat.two_pow_pos 32) .nil))))))

theorem fits_node (node : GraphNode) : nodeFormat.Fits node.toRecord :=
  .cons (opcode_code_lt node.opcode) (.cons (type_code_lt node.resultType) (.cons (Nat.two_pow_pos 16)
    (.cons node.blockIndex.toNat_lt (.cons node.input0.toNat_lt (.cons node.input1.toNat_lt
      (.cons node.input2.toNat_lt (.cons node.input3.toNat_lt (.cons node.auxiliary0.toNat_lt
        (.cons node.auxiliary1.toNat_lt (.cons node.immediate.toNat_lt .nil))))))))))

theorem fits_import (record : GraphImport) : importFormat.Fits record.toRecord :=
  .cons record.nameOffset.toNat_lt (.cons record.nameLen.toNat_lt (.cons record.resourceKind.toNat_lt
    (.cons record.rights.toNat_lt (.cons (type_code_lt record.expectedType)
      (.cons record.importSlot.toNat_lt (.cons (Nat.two_pow_pos 32) .nil))))))

theorem checkedU32_eq_ok {value result : ℕ} (h : checkedU32 value = .ok result) : value < 2 ^ 32 := by
  unfold checkedU32 at h
  split_ifs at h with hlt
  exact hlt

/-- The counts and offsets of an encoded graph fit 32 bits. -/
theorem fits_content {graph : OwnedGraph} {bytes : Bytes} (h : encodeGraph graph = .ok bytes) :
    graph.content.Fits ∧ bytes = packageBytes graph := by
  simp only [encodeGraph, bind_eq_ok_iff] at h
  obtain ⟨_, hblocks, _, hnodes, _, himports, _, hconstants, _, hstrings, _, hoffset, hbytes⟩ := h
  refine ⟨⟨?_, nofun, ?_, ?_, ?_⟩, (Except.ok.inj hbytes).symm⟩
  · have hprincipal := graph.principalId.toNat_lt
    have hblocks := checkedU32_eq_ok hblocks
    have hnodes := checkedU32_eq_ok hnodes
    have himports := checkedU32_eq_ok himports
    have hconstants := checkedU32_eq_ok hconstants
    have hstrings := checkedU32_eq_ok hstrings
    have hoffset := checkedU32_eq_ok hoffset
    simp only [headerSize, blockRecordSize, nodeRecordSize, importRecordSize] at hoffset
    simp only [frontWidths, PackageContent.frontWords, List.forall₂_cons, List.forall₂_nil_left_iff,
      PackageContent.stringTableOffset, PackageContent.constantPoolOffset, PackageContent.importsOffset,
      PackageContent.nodesOffset, PackageContent.blocksOffset, PackageContent.typesOffset,
      OwnedGraph.content, List.length_map, List.length_nil, headerSize, typeRecordSize, blockRecordSize,
      nodeRecordSize, importRecordSize, pythTigMajor, pythTigMinor, and_true]
    refine ⟨by decide, by decide, by decide, packageId.toNat_lt, ?_⟩
    omega
  · intro record hrecord
    obtain ⟨block, -, rfl⟩ := List.mem_map.mp hrecord
    exact fits_block block
  · intro record hrecord
    obtain ⟨node, -, rfl⟩ := List.mem_map.mp hrecord
    exact fits_node node
  · intro record hrecord
    obtain ⟨entry, -, rfl⟩ := List.mem_map.mp hrecord
    exact fits_import entry

theorem mapRejected_eq_ok_iff {ε α : Type} {x : Checked ε α} {value : α} :
    mapRejected x = .ok value ↔ x = .ok value := by
  cases x with
  | ok other => simp [mapRejected]
  | error fault => cases fault <;> simp [mapRejected]

/-- The decoder reads an encoded graph back. -/
theorem exists_decode_of_encodeVerifiedGraph {graph : OwnedGraph} {bytes : Bytes}
    (h : encodeVerifiedGraph graph = .ok bytes) : ∃ package,
      PythGraphPackage.decode bytes = .ok package ∧ package.WellFormed ∧
        package.content = graph.content := by
  cases hencode : encodeGraph graph with
  | error diagnostic => simp [encodeVerifiedGraph, hencode, fail, bind, Except.bind] at h
  | ok encoded =>
    simp only [encodeVerifiedGraph, hencode, ok_bind, bind_eq_ok_iff, mapRejected_eq_ok_iff] at h
    obtain ⟨package, hdecode, -, -, hpure⟩ := h
    obtain rfl : encoded = bytes := Except.ok.inj hpure
    have hencoded := fits_content hencode
    refine ⟨package, hdecode, ((PythGraphPackage.safe_decode _).of_ok hdecode).2, ?_⟩
    rw [hencoded.2, packageBytes_eq] at hdecode
    exact PythGraphPackage.content_of_decode_encode hencoded.1 hdecode

/-! ### The codec is canonical -/

/-- The decoder returns the imports, blocks, nodes and pools of every graph the compiler encodes. A package
the verifier accepts is what its minor version, package id, principal, entry block, records and pools are
written as, so that packages with one content are one package. -/
theorem codec_canonical :
    (∀ (graph : OwnedGraph) (bytes : Bytes), encodeVerifiedGraph graph = .ok bytes →
      ∃ package, PythGraphPackage.decode bytes = .ok package ∧
        (package.readContent : Verify PackageContent) = .ok graph.content) ∧
    (∀ (bytes : Bytes) (verified : VerifiedGraph), verifyBytes bytes = .ok verified →
      ∃ content, (verified.package.readContent : Verify PackageContent) = .ok content ∧
        content.encode = bytes) ∧
    ∀ (first second : Bytes) (firstVerified secondVerified : VerifiedGraph) (content : PackageContent),
      verifyBytes first = .ok firstVerified → verifyBytes second = .ok secondVerified →
        (firstVerified.package.readContent : Verify PackageContent) = .ok content →
          (secondVerified.package.readContent : Verify PackageContent) = .ok content → first = second := by
  have hwritten : ∀ (bytes : Bytes) (verified : VerifiedGraph), verifyBytes bytes = .ok verified →
      ∃ content, (verified.package.readContent : Verify PackageContent) = .ok content ∧
        content.encode = bytes := by
    intro bytes verified h
    have hdecode := decode_of_verifyBytes h
    exact ⟨_, ((PythGraphPackage.safe_decode bytes).of_ok hdecode).2.readContent_eq,
      PythGraphPackage.encode_content hdecode⟩
  refine ⟨fun graph bytes h ↦ ?_, hwritten, fun first second firstVerified secondVerified content hfirst
    hsecond hcontent hcontent' ↦ ?_⟩
  · obtain ⟨package, hdecode, hwell, hcontent⟩ := exists_decode_of_encodeVerifiedGraph h
    exact ⟨package, hdecode, by rw [hwell.readContent_eq, hcontent]⟩
  · obtain ⟨_, hread, rfl⟩ := hwritten first firstVerified hfirst
    obtain ⟨_, hread', rfl⟩ := hwritten second secondVerified hsecond
    rw [Except.ok.inj (hread.symm.trans hcontent), Except.ok.inj (hread'.symm.trans hcontent')]

/-- One block with an imported capability and a text, and a byte in the constant pool. -/
def textGraph : OwnedGraph where
  principalId := 1
  imports := [{ nameOffset := 0, nameLen := 3, resourceKind := 1, rights := 1, expectedType := .capability
                importSlot := 0 }]
  blocks := [{ blockId := 0, firstNode := 0, nodeCount := 3, parameterCount := 1, terminatorNode := 2 }]
  nodes := [(Opcode.blockParam, PythType.capability, 0), (.constUtf8, .utf8, 3), (.ret, .unit, 0)].map
    fun (opcode, resultType, auxiliary1) ↦
      { opcode, resultType, blockIndex := 0, input0 := 0xFFFFFFFF, input1 := 0xFFFFFFFF
        input2 := 0xFFFFFFFF, input3 := 0xFFFFFFFF, auxiliary0 := 0, auxiliary1, immediate := 0 }
  constantPool := [7]
  stringTable := [108, 111, 103]
  loopBudgets := []

/-- The content of the bytes, when the verifier accepts them. -/
def acceptedContent (bytes : Bytes) : Option PackageContent :=
  match verifyBytes bytes with
  | .ok verified =>
    match (verified.package.readContent : Verify PackageContent) with
    | .ok content => some content
    | .error _ => none
  | .error _ => none

theorem exists_of_acceptedContent {bytes : Bytes} {content : PackageContent}
    (h : acceptedContent bytes = some content) : ∃ verified, verifyBytes bytes = .ok verified ∧
      (verified.package.readContent : Verify PackageContent) = .ok content := by
  unfold acceptedContent at h
  split at h
  · rename_i verified hverified
    split at h
    · rename_i read hread
      obtain rfl := Option.some.inj h
      exact ⟨verified, hverified, hread⟩
    · simp at h
  · simp at h

theorem codec_canonical_textGraph :
    (∃ bytes package, encodeVerifiedGraph textGraph = .ok bytes ∧
      PythGraphPackage.decode bytes = .ok package ∧
        (package.readContent : Verify PackageContent) = .ok textGraph.content) ∧
    ∃ verified, verifyBytes logPackage = .ok verified ∧
      (verified.package.readContent : Verify PackageContent) = .ok logContent ∧
        ∃ content, (verified.package.readContent : Verify PackageContent) = .ok content ∧
          content.encode = logPackage := by
  have haccepts : (encodeVerifiedGraph textGraph).isOk = true := by decide +kernel
  have hread : acceptedContent logPackage = some logContent := by decide +kernel
  obtain ⟨verified, hverified, hread⟩ := exists_of_acceptedContent hread
  refine ⟨?_, verified, hverified, hread, codec_canonical.2.1 logPackage verified hverified⟩
  cases hencode : encodeVerifiedGraph textGraph with
  | error fault => simp [hencode, Except.isOk, Except.toBool] at haccepts
  | ok bytes =>
    obtain ⟨package, hdecode, hcontent⟩ := codec_canonical.1 textGraph bytes hencode
    exact ⟨bytes, package, rfl, hdecode, hcontent⟩

/-- The decoder reads the package id and compares it with nothing, and accepts the minor versions up to its
own, so that packages with one principal, one entry block, the same records and the same pools are accepted
that differ in the one or in the other. -/
theorem codec_acceptsTwo : ∃ (first : Bytes) (firstVerified : VerifiedGraph) (content : PackageContent),
    verifyBytes first = .ok firstVerified ∧
      (firstVerified.package.readContent : Verify PackageContent) = .ok content ∧
        ∀ changed ∈ [{ content with packageId := 1 }, { content with minor := 0 }],
          ∃ second secondVerified, verifyBytes second = .ok secondVerified ∧
            (secondVerified.package.readContent : Verify PackageContent) = .ok changed ∧
              first ≠ second := by
  have hfirst : acceptedContent logPackage = some logContent := by decide +kernel
  obtain ⟨firstVerified, hverified, hread⟩ := exists_of_acceptedContent hfirst
  refine ⟨logPackage, firstVerified, logContent, hverified, hread, ?_⟩
  intro changed hchanged
  have hsecond : acceptedContent changed.encode = some changed ∧ logPackage ≠ changed.encode := by
    revert changed
    decide +kernel
  obtain ⟨secondVerified, hverified', hread'⟩ := exists_of_acceptedContent hsecond.1
  exact ⟨changed.encode, secondVerified, hverified', hread', hsecond.2⟩

end Pythos.Pythc
