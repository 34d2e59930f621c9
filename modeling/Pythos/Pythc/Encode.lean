import Pythos.Tig.Verify

/-!
# The package encoder of the compiler

`encodeGraph` writes the graph the compiler builds as a package: the header, the block, node and import
records, the two pools, and the checksum over everything but its own field. `encodeVerifiedGraph` gives
the bytes out only after the shared verifier accepted them.

The buffer that the source fills at computed offsets is written here as the concatenation of its
sections. The fields of the graph have the fixed-width types of the source, so that a graph whose
fields do not fit their records cannot be built.
-/

namespace Pythos.Pythc

open Foundation Tig

/-! ### Diagnostics -/

structure Span where
  start : ℕ
  stop : ℕ
  deriving DecidableEq, Repr, Inhabited

structure Diagnostic where
  code : String
  message : String
  span : Span
  deriving DecidableEq, Repr

def verifierRejected : Diagnostic where
  code := "G0001"
  message := "shared verifier rejected compiler output"
  span := ⟨0, 0⟩

/-! ### The graph of the compiler -/

structure GraphImport where
  nameOffset : UInt32
  nameLen : UInt16
  resourceKind : UInt16
  rights : UInt64
  expectedType : PythType
  importSlot : UInt16
  deriving DecidableEq, Repr

structure GraphBlock where
  blockId : UInt32
  firstNode : UInt32
  nodeCount : UInt32
  parameterCount : UInt16
  terminatorNode : UInt32
  deriving DecidableEq, Repr

structure GraphNode where
  opcode : Opcode
  resultType : PythType
  blockIndex : UInt16
  input0 : UInt32
  input1 : UInt32
  input2 : UInt32
  input3 : UInt32
  auxiliary0 : UInt32
  auxiliary1 : UInt32
  immediate : UInt64
  deriving DecidableEq, Repr

/-- The graph that lowering builds. The loop budgets are kept for the test suite only. -/
structure OwnedGraph where
  principalId : UInt64
  imports : List GraphImport
  blocks : List GraphBlock
  nodes : List GraphNode
  constantPool : Bytes
  stringTable : Bytes
  loopBudgets : List UInt64
  deriving DecidableEq, Repr

/-! ### Records -/

/-- `value.to_le_bytes()` for the three widths. -/
def leU16 (value : UInt16) : Bytes := leBytes 2 value.toNat
def leU32 (value : UInt32) : Bytes := leBytes 4 value.toNat
def leU64 (value : UInt64) : Bytes := leBytes 8 value.toNat

def writeBlock (block : GraphBlock) : Bytes :=
  leU32 block.blockId ++ leU32 block.firstNode ++ leU32 block.nodeCount ++
    leU16 block.parameterCount ++ leU16 0 ++ leU32 block.terminatorNode ++ leU32 0

def writeNode (node : GraphNode) : Bytes :=
  leBytes 2 node.opcode.code ++ leBytes 2 node.resultType.code ++ leU16 0 ++ leU16 node.blockIndex ++
    leU32 node.input0 ++ leU32 node.input1 ++ leU32 node.input2 ++ leU32 node.input3 ++
      leU32 node.auxiliary0 ++ leU32 node.auxiliary1 ++ leU64 node.immediate

def writeImport (record : GraphImport) : Bytes :=
  leU32 record.nameOffset ++ leU16 record.nameLen ++ leU16 record.resourceKind ++
    leU64 record.rights ++ leBytes 2 record.expectedType.code ++ leU16 record.importSlot ++ leU32 0

/-! ### The package -/

def packageId : UInt64 := 0x5059544854494706

def checkedU32 (value : ℕ) : Except Diagnostic ℕ :=
  if value < 2 ^ 32 then .ok value else .error verifierRejected

/-- The header of the package with a given checksum field. -/
def headerBytes (graph : OwnedGraph) (checksum : ℕ) : Bytes :=
  let blocksOffset := headerSize
  let nodesOffset := blocksOffset + graph.blocks.length * blockRecordSize
  let importsOffset := nodesOffset + graph.nodes.length * nodeRecordSize
  let constantPoolOffset := importsOffset + graph.imports.length * importRecordSize
  let stringTableOffset := constantPoolOffset + graph.constantPool.length
  pythTigMagic ++ leBytes 2 pythTigMajor ++ leBytes 2 pythTigMinor ++ leBytes 4 0 ++
    leU64 packageId ++ leU64 graph.principalId ++ leBytes 4 0 ++ leBytes 4 0 ++
      leBytes 4 graph.blocks.length ++ leBytes 4 graph.nodes.length ++
        leBytes 4 graph.imports.length ++ leBytes 4 graph.constantPool.length ++
          leBytes 4 graph.stringTable.length ++ leBytes 4 headerSize ++ leBytes 4 blocksOffset ++
            leBytes 4 nodesOffset ++ leBytes 4 importsOffset ++ leBytes 4 constantPoolOffset ++
              leBytes 4 stringTableOffset ++ leBytes 8 checksum ++ leBytes 4 0

/-- The sections after the header. -/
def sectionBytes (graph : OwnedGraph) : Bytes :=
  graph.blocks.flatMap writeBlock ++ graph.nodes.flatMap writeNode ++
    graph.imports.flatMap writeImport ++ graph.constantPool ++ graph.stringTable

/-- The package of a graph, with the checksum of `refresh_checksum`. -/
def packageBytes (graph : OwnedGraph) : Bytes :=
  let unsealed := headerBytes graph 0 ++ sectionBytes graph
  headerBytes graph (packageChecksum unsealed) ++ sectionBytes graph

/-- `encode_graph`: the counts and offsets of the header have to fit 32 bits. The last of them is the
largest. -/
def encodeGraph (graph : OwnedGraph) : Except Diagnostic Bytes := do
  let nodesOffset := headerSize + graph.blocks.length * blockRecordSize
  let importsOffset := nodesOffset + graph.nodes.length * nodeRecordSize
  let constantPoolOffset := importsOffset + graph.imports.length * importRecordSize
  let _ ← checkedU32 graph.blocks.length
  let _ ← checkedU32 graph.nodes.length
  let _ ← checkedU32 graph.imports.length
  let _ ← checkedU32 graph.constantPool.length
  let _ ← checkedU32 graph.stringTable.length
  let _ ← checkedU32 (constantPoolOffset + graph.constantPool.length)
  pure (packageBytes graph)

/-- `.map_err(|_| verifier_rejected())`. -/
def mapRejected {ε α : Type} : Checked ε α → Checked Diagnostic α
  | .ok value => .ok value
  | .error (.returned _) => .error (.returned verifierRejected)
  | .error .panicked => .error .panicked
  | .error .diverged => .error .diverged

def encodeVerifiedGraph (graph : OwnedGraph) : Checked Diagnostic Bytes := do
  let bytes ← match encodeGraph graph with
    | .ok bytes => .ok bytes
    | .error diagnostic => fail diagnostic
  let package ← mapRejected (PythGraphPackage.decode bytes)
  let _ ← mapRejected (verifyPackage package)
  pure bytes

end Pythos.Pythc
