import Pythos.Tig.Format

/-!
# The control-flow passes of the verifier

The passes of the verifier that read the shape of a graph: known types and opcodes, block ranges,
control flow, reachability of the blocks, and availability of every input by dominators.

The passes keep the fixed-size tables of the source, and every index, shift, `expect` and plain
arithmetic operator of the source that could fail panics here. The two `while` loops run on fuel and
diverge without it.
-/

namespace Pythos.Tig

open Foundation

inductive VerifyError
  | decode (error : PackageDecodeError)
  | unknownType (code : ℕ)
  | unknownOpcode (code : ℕ)
  | invalidBlockRange (block : ℕ)
  | missingTerminator (block : ℕ)
  | multipleTerminators (block : ℕ)
  | invalidControlTarget (block target : ℕ)
  | blockArgumentCountMismatch (source target : ℕ)
  | valueNotAvailable (node input : ℕ)
  | resultTypeForbidden (node : ℕ)
  | typeMismatch (node input : ℕ) (expected actual : PythType)
  | effectInputMissing (node : ℕ)
  | effectFork (producer : ℕ)
  | effectChainDisconnected (node : ℕ)
  | capabilityOriginInvalid (node : ℕ)
  | capabilityImportMissing (node importSlot : ℕ)
  | importTypeMismatch (importSlot : ℕ)
  | importRightsInsufficient (node importSlot : ℕ)
  | hostResultInvalid (node : ℕ)
  | resourceBudgetExceeded
  | nonCanonicalEncoding
  | checksumMismatch
  deriving DecidableEq, Repr

/-- The computations of the verifier. -/
abbrev Verify : Type → Type := Checked VerifyError

/-- A package the verifier accepted. -/
structure VerifiedGraph where
  package : PythGraphPackage
  deriving DecidableEq, Repr

/-- `usize::MAX`, the block of a node that no block has claimed yet. -/
def unassigned : ℕ := 2 ^ 64 - 1

/-- `value as u32`. -/
def asU32 (value : ℕ) : ℕ := value % 2 ^ 32

def isTerminator (opcode : Opcode) : Bool :=
  opcode = .jump || opcode = .branch || opcode = .ret

def countValues (inputs : List ℕ) : Verify ℕ :=
  forEach inputs 0 fun count _ input ↦ if input ≠ noValue then addUsize count 1 else pure count

/-! ### Known types and opcodes -/

def verifyKnownTypes (package : PythGraphPackage) : Verify Unit := do
  let types ← package.types
  forEach types.iter () fun _ _ type ↦
    reject (PythType.ofCode type.kind = none) (.unknownType type.kind)
  let nodes ← package.nodes
  forEach nodes.iter () fun _ _ node ↦
    reject (PythType.ofCode node.resultType = none) (.unknownType node.resultType)

def verifyKnownOpcodes (package : PythGraphPackage) : Verify Unit := do
  let nodes ← package.nodes
  forEach nodes.iter () fun _ _ node ↦
    reject (Opcode.ofCode node.opcode = none) (.unknownOpcode node.opcode)

/-! ### Block ranges -/

/-- The tables that the block-range pass fills: the first node and the end of every block, and the
block of every node. -/
structure BlockTables where
  blockStarts : List ℕ
  blockEnds : List ℕ
  nodeBlocks : List ℕ
  deriving DecidableEq, Repr

def BlockTables.init : BlockTables where
  blockStarts := List.replicate maxBlocks 0
  blockEnds := List.replicate maxBlocks 0
  nodeBlocks := List.replicate maxGraphNodes unassigned

/-- One node of a block range: it is claimed by the block, and a terminator stands last. The state is
the table of node blocks and the number of terminators seen. -/
def claimNode (nodes : Records NodeRecord) (block : BlockRecord) (blockIndex stop : ℕ)
    (state : List ℕ × ℕ) (nodeIndex : ℕ) : Verify (List ℕ × ℕ) := do
  let nodeBlock ← index state.1 nodeIndex
  reject (nodeBlock ≠ unassigned) (.invalidBlockRange block.blockId)
  let node ← okOr (.invalidBlockRange block.blockId) (nodes.get nodeIndex)
  reject (node.blockIndex ≠ blockIndex) (.invalidBlockRange block.blockId)
  let nodeBlocks ← setIndex state.1 nodeIndex blockIndex
  let opcode ← expect (Opcode.ofCode node.opcode)
  if isTerminator opcode then do
    let terminators ← addUsize state.2 1
    let next ← addUsize nodeIndex 1
    reject (next ≠ stop) (.multipleTerminators block.blockId)
    pure (nodeBlocks, terminators)
  else pure (nodeBlocks, state.2)

def verifyBlockRange (nodes : Records NodeRecord) (tables : BlockTables) (blockIndex : ℕ)
    (block : BlockRecord) : Verify BlockTables := do
  let first := block.firstNode
  let count := block.nodeCount
  let stop ← checkedAdd (.invalidBlockRange block.blockId) first count
  reject (block.blockId ≠ asU32 blockIndex ∨ count = 0 ∨ stop > nodes.len)
    (.invalidBlockRange block.blockId)
  let blockStarts ← setIndex tables.blockStarts blockIndex first
  let blockEnds ← setIndex tables.blockEnds blockIndex stop
  let claimed ← forRange first (min stop tables.nodeBlocks.length) (tables.nodeBlocks, 0)
    (claimNode nodes block blockIndex stop)
  reject (claimed.2 = 0) (.missingTerminator block.blockId)
  reject (claimed.2 > 1) (.multipleTerminators block.blockId)
  let expectedTerminator ← subUsize stop 1
  reject (block.terminatorNode ≠ asU32 expectedTerminator) (.missingTerminator block.blockId)
  pure { blockStarts, blockEnds, nodeBlocks := claimed.1 }

def verifyBlockRanges (package : PythGraphPackage) : Verify BlockTables := do
  let nodes ← package.nodes
  let blocks ← package.blocks
  let tables ← forEach blocks.iter BlockTables.init (verifyBlockRange nodes)
  forEach (tables.nodeBlocks.take nodes.len) () fun _ nodeIndex nodeBlock ↦
    if nodeBlock = unassigned then do
      let node ← okOr (.invalidBlockRange 0) (nodes.get nodeIndex)
      fail (.invalidBlockRange node.blockIndex)
    else pure ()
  pure tables

/-! ### Control flow -/

def validateTarget (blocks : Records BlockRecord) (source target : ℕ) : Verify Unit :=
  reject (target ≥ blocks.len) (.invalidControlTarget source target)

/-- One argument of a jump: the parameter node it initialises exists, is a block parameter and has
the type of the producer. -/
def validateJumpArgument (nodes : Records NodeRecord) (terminatorIndex : ℕ)
    (targetBlock : BlockRecord) (inputIndex input : ℕ) : Verify Unit := do
  reject (input = noValue) (.valueNotAvailable (asU32 terminatorIndex) inputIndex)
  let parameterIndex ← checkedAdd (.invalidBlockRange targetBlock.blockId) targetBlock.firstNode
    inputIndex
  let parameter ← okOr (.invalidBlockRange targetBlock.blockId) (nodes.get parameterIndex)
  let parameterOpcode ← expect (Opcode.ofCode parameter.opcode)
  reject (parameterOpcode ≠ .blockParam) (.invalidBlockRange targetBlock.blockId)
  let producer ← okOr (.valueNotAvailable (asU32 terminatorIndex) inputIndex) (nodes.get input)
  let actual ← expect (PythType.ofCode producer.resultType)
  let expected ← expect (PythType.ofCode parameter.resultType)
  reject (actual ≠ expected) (.typeMismatch (asU32 terminatorIndex) inputIndex expected actual)

def validateJumpArity (nodes : Records NodeRecord) (blocks : Records BlockRecord)
    (terminatorIndex : ℕ) (terminator : NodeRecord) (source target : ℕ) : Verify Unit := do
  let targetBlock ← expect (blocks.get target)
  let provided ← countValues terminator.inputs
  reject (provided ≠ targetBlock.parameterCount) (.blockArgumentCountMismatch source target)
  forEach (terminator.inputs.take targetBlock.parameterCount) () fun _ inputIndex input ↦
    validateJumpArgument nodes terminatorIndex targetBlock inputIndex input

def validateBranchArity (blocks : Records BlockRecord) (source target : ℕ) : Verify Unit := do
  let targetBlock ← expect (blocks.get target)
  reject (targetBlock.parameterCount ≠ 0) (.blockArgumentCountMismatch source target)

def verifyTerminator (nodes : Records NodeRecord) (blocks : Records BlockRecord)
    (block : BlockRecord) (terminatorIndex : ℕ) (terminator : NodeRecord) : Opcode → Verify Unit
  | .jump => do
    validateTarget blocks block.blockId terminator.auxiliary0
    validateJumpArity nodes blocks terminatorIndex terminator block.blockId terminator.auxiliary0
  | .branch => do
    validateTarget blocks block.blockId terminator.auxiliary0
    validateTarget blocks block.blockId terminator.auxiliary1
    validateBranchArity blocks block.blockId terminator.auxiliary0
    validateBranchArity blocks block.blockId terminator.auxiliary1
  | .ret => pure ()
  | _ => fail (.missingTerminator block.blockId)

def verifyBlockControlFlow (nodes : Records NodeRecord) (blocks : Records BlockRecord)
    (tables : BlockTables) (blockIndex : ℕ) : Verify Unit := do
  let block ← expect (blocks.get blockIndex)
  let blockEnd ← index tables.blockEnds blockIndex
  let terminatorIndex ← subUsize blockEnd 1
  let terminator ← expect (nodes.get terminatorIndex)
  let opcode ← expect (Opcode.ofCode terminator.opcode)
  verifyTerminator nodes blocks block terminatorIndex terminator opcode
  let blockStart ← index tables.blockStarts blockIndex
  forRange blockStart terminatorIndex () fun _ nodeIndex ↦ do
    let node ← expect (nodes.get nodeIndex)
    let nodeOpcode ← expect (Opcode.ofCode node.opcode)
    reject (isTerminator nodeOpcode) (.multipleTerminators block.blockId)

def verifyControlFlow (package : PythGraphPackage) (tables : BlockTables) : Verify Unit := do
  let nodes ← package.nodes
  let blocks ← package.blocks
  forRange 0 blocks.len () fun _ blockIndex ↦ verifyBlockControlFlow nodes blocks tables blockIndex

/-! ### Reachability -/

/-- `1u128 << block`. -/
def blockBit (block : ℕ) : Verify (BitVec 128) :=
  if block < 128 then .ok (1#128 <<< block) else .error .panicked

/-- `bits.trailing_zeros()`. -/
def trailingZeros (bits : BitVec 128) : ℕ :=
  ((List.range 128).find? fun position ↦ bits.getLsbD position).getD 128

/-- The terminator node of a block and its opcode. -/
def terminatorOf (nodes : Records NodeRecord) (block : BlockRecord) : Verify (NodeRecord × Opcode) := do
  let terminator ← okOr (.invalidBlockRange block.blockId) (nodes.get block.terminatorNode)
  let opcode ← expect (Opcode.ofCode terminator.opcode)
  pure (terminator, opcode)

/-- The blocks a terminator adds to the pending set. -/
def pendingTargets (pending : BitVec 128) (terminator : NodeRecord) : Opcode → Verify (BitVec 128)
  | .jump => do
    let target ← blockBit terminator.auxiliary0
    pure (pending ||| target)
  | .branch => do
    let onTrue ← blockBit terminator.auxiliary0
    let onFalse ← blockBit terminator.auxiliary1
    pure (pending ||| onTrue ||| onFalse)
  | _ => pure pending

/-- `while pending != 0`: the lowest pending block is moved to the reachable set and the targets of
its terminator become pending. -/
def reachableLoop (nodes : Records NodeRecord) (blocks : Records BlockRecord) :
    ℕ → BitVec 128 → BitVec 128 → Verify (BitVec 128)
  | 0, _, _ => .error .diverged
  | fuel + 1, reachable, pending =>
    if pending = 0 then pure reachable
    else do
      let blockIndex := trailingZeros pending
      let bit ← blockBit blockIndex
      let pending := pending &&& ~~~bit
      if reachable &&& bit ≠ 0 then reachableLoop nodes blocks fuel reachable pending
      else do
        let block ← expect (blocks.get blockIndex)
        let terminator ← terminatorOf nodes block
        let pending ← pendingTargets pending terminator.1 terminator.2
        reachableLoop nodes blocks fuel (reachable ||| bit) pending

/-- Fuel for the reachability loop: every iteration takes a bit out of the pending set, and at most
`maxBlocks` of them put back at most two. -/
def reachableFuel : ℕ := 4 * maxBlocks

def verifyReachableBlocks (package : PythGraphPackage) : Verify Unit := do
  let nodes ← package.nodes
  let blocks ← package.blocks
  let entry := package.header.entryBlock
  reject (entry ≥ blocks.len) (.invalidControlTarget entry entry)
  let pending ← blockBit entry
  let reachable ← reachableLoop nodes blocks reachableFuel 0 pending
  forRange 0 blocks.len () fun _ blockIndex ↦ do
    let bit ← blockBit blockIndex
    if reachable &&& bit = 0 then do
      let block ← expect (blocks.get blockIndex)
      fail (.invalidBlockRange block.blockId)
    else pure ()

/-! ### Dominators -/

/-- `predecessors[target] |= bit`. -/
def addPredecessor (predecessors : List (BitVec 128)) (target : ℕ) (bit : BitVec 128) :
    Verify (List (BitVec 128)) := do
  let current ← index predecessors target
  setIndex predecessors target (current ||| bit)

/-- The predecessor table after the edges of one block. -/
def blockPredecessors (nodes : Records NodeRecord) (blocks : Records BlockRecord)
    (predecessors : List (BitVec 128)) (blockIndex : ℕ) : Verify (List (BitVec 128)) := do
  let block ← expect (blocks.get blockIndex)
  let terminator ← terminatorOf nodes block
  match terminator.2 with
  | .jump => do
    let bit ← blockBit blockIndex
    addPredecessor predecessors terminator.1.auxiliary0 bit
  | .branch => do
    let bit ← blockBit blockIndex
    let predecessors ← addPredecessor predecessors terminator.1.auxiliary0 bit
    addPredecessor predecessors terminator.1.auxiliary1 bit
  | _ => pure predecessors

/-- `if block_count == 128 { u128::MAX } else { (1u128 << block_count) - 1 }`. -/
def allBlocksMask (blockCount : ℕ) : Verify (BitVec 128) :=
  if blockCount = 128 then pure (BitVec.allOnes 128)
  else do
    let bit ← blockBit blockCount
    pure (bit - 1)

/-- The intersection of the dominators of the predecessors of a block. -/
def intersectPredecessors (blockCount : ℕ) (allBlocks preds : BitVec 128)
    (dominators : List (BitVec 128)) : Verify (BitVec 128) :=
  forEach (dominators.take blockCount) allBlocks fun intersection pred dominator ↦ do
    let bit ← blockBit pred
    if preds &&& bit ≠ 0 then pure (intersection &&& dominator) else pure intersection

/-- One block of a dominator pass: the table and whether it changed. -/
def dominatorStep (blockCount entry : ℕ) (allBlocks : BitVec 128)
    (predecessors : List (BitVec 128)) (state : List (BitVec 128) × Bool) (blockIndex : ℕ) :
    Verify (List (BitVec 128) × Bool) :=
  if blockIndex = entry then pure state
  else do
    let preds ← index predecessors blockIndex
    let intersection ← intersectPredecessors blockCount allBlocks preds state.1
    let bit ← blockBit blockIndex
    let next := bit ||| intersection
    let current ← index state.1 blockIndex
    if current ≠ next then do
      let dominators ← setIndex state.1 blockIndex next
      pure (dominators, true)
    else pure state

/-- One pass over all blocks. -/
def dominatorPass (blockCount entry : ℕ) (allBlocks : BitVec 128)
    (predecessors dominators : List (BitVec 128)) : Verify (List (BitVec 128) × Bool) :=
  forRange 0 blockCount (dominators, false)
    (dominatorStep blockCount entry allBlocks predecessors)

/-- `while changed`. -/
def dominatorLoop (blockCount entry : ℕ) (allBlocks : BitVec 128)
    (predecessors : List (BitVec 128)) : ℕ → List (BitVec 128) → Verify (List (BitVec 128))
  | 0, _ => .error .diverged
  | fuel + 1, dominators => do
    let pass ← dominatorPass blockCount entry allBlocks predecessors dominators
    if pass.2 then dominatorLoop blockCount entry allBlocks predecessors fuel pass.1
    else pure pass.1

/-- Fuel for the dominator loop: every pass but the last takes a bit out of some set. -/
def dominatorFuel : ℕ := maxBlocks * maxBlocks + 1

/-- The initial set of a block: the entry block is dominated by itself, every other block by all. -/
def initialDominator (entry : ℕ) (allBlocks : BitVec 128) (blockIndex : ℕ) : Verify (BitVec 128) :=
  if blockIndex = entry then blockBit blockIndex else pure allBlocks

def initialDominators (blockCount entry : ℕ) (allBlocks : BitVec 128) :
    Verify (List (BitVec 128)) :=
  forRange 0 blockCount (List.replicate maxBlocks 0#128) fun dominators blockIndex ↦ do
    let value ← initialDominator entry allBlocks blockIndex
    setIndex dominators blockIndex value

def computeDominators (package : PythGraphPackage) : Verify (List (BitVec 128)) := do
  let nodes ← package.nodes
  let blocks ← package.blocks
  let entry := package.header.entryBlock
  reject (entry ≥ blocks.len) (.invalidControlTarget entry entry)
  let predecessors ← forRange 0 blocks.len (List.replicate maxBlocks 0#128)
    (blockPredecessors nodes blocks)
  let allBlocks ← allBlocksMask blocks.len
  let dominators ← initialDominators blocks.len entry allBlocks
  dominatorLoop blocks.len entry allBlocks predecessors dominatorFuel dominators

/-! ### Value availability -/

def verifyInputAvailability (nodes : Records NodeRecord) (nodeBlocks : List ℕ)
    (dominators : List (BitVec 128)) (nodeIndex inputIndex input : ℕ) : Verify Unit :=
  if input = noValue then pure ()
  else do
    let unavailable := VerifyError.valueNotAvailable (asU32 nodeIndex) inputIndex
    reject (input ≥ nodes.len) unavailable
    let consumerBlock ← index nodeBlocks nodeIndex
    let producerBlock ← index nodeBlocks input
    reject (consumerBlock = unassigned ∨ producerBlock = unassigned) unavailable
    if producerBlock = consumerBlock then reject (¬ input < nodeIndex) unavailable
    else do
      let dominator ← index dominators consumerBlock
      let bit ← blockBit producerBlock
      reject (dominator &&& bit = 0) unavailable

def verifyValueAvailability (package : PythGraphPackage) (nodeBlocks : List ℕ) : Verify Unit := do
  let dominators ← computeDominators package
  let nodes ← package.nodes
  forEach nodes.iter () fun _ nodeIndex node ↦
    forEach node.inputs () fun _ inputIndex input ↦
      verifyInputAvailability nodes nodeBlocks dominators nodeIndex inputIndex input

end Pythos.Tig
