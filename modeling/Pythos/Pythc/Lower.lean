import Pythos.Pythc.Typecheck

/-!
# Lowering to the typed instruction graph

The lowerer walks the statements of a program and appends nodes to the current block. A `let` gives a name
to the node of its value; names are looked up from the newest definition and are never dropped. Effects are
threaded through `currentEffect`, and the last host call stays pending for the expressions that project its
result.

The fields of the graph builder and of the lowerer are one record. Its last two fields log what was lowered
at which place and which node every import and `let` defined; nothing reads them.
-/

namespace Pythos.Pythc

open Foundation Tig

/-! ### State -/

/-- `text.as_bytes()`. -/
def textBytes (text : String) : Bytes := text.toList.flatMap String.utf8EncodeChar

/-- `NO_VALUE`. -/
def noInput : UInt32 := 0xFFFFFFFF

def compilerRejected (span : Span) : Diagnostic :=
  ⟨"G0001", "shared verifier rejected compiler output", span⟩

structure BlockBuilder where
  firstNode : Option UInt32
  nodeCount : UInt32
  deriving DecidableEq, Repr

/-- The effect token, and the calls whose results may still be projected. -/
structure Flow where
  currentEffect : UInt32
  hostProducer : Option (HostProducer × UInt32)
  taskContextProducer : Option (UInt32 × UInt32)
  commandReadProducer : Option (UInt32 × UInt32)
  deriving DecidableEq, Repr

/-- An expression was lowered at a place to a node, when there were `start` nodes. -/
structure Visit where
  path : Path
  expr : Expression
  node : UInt32
  start : ℕ

structure Lowerer where
  principalId : UInt64
  imports : List GraphImport
  blocks : List BlockBuilder
  nodes : List GraphNode
  constantPool : Bytes
  stringTable : Bytes
  loopBudgets : List UInt64
  locals : List (String × UInt32)
  currentBlock : ℕ
  flow : Flow
  visits : List Visit
  defined : List (Binder × UInt32)

abbrev Lower := Stateful (Fault Diagnostic) Lowerer

namespace Lowerer

def reject {α : Type} (span : Span) : Lower α := .fail (.returned (compilerRejected span))

def new (principalId : UInt64) (programName : String) : Lowerer where
  principalId := principalId
  imports := []
  blocks := []
  nodes := []
  constantPool := []
  stringTable := textBytes programName ++ [0]
  loopBudgets := []
  locals := []
  currentBlock := 0
  flow := ⟨noInput, none, none, none⟩
  visits := []
  defined := []

/-! ### The graph builder -/

def addBlock : Lower ℕ := fun lowerer ↦
  (.ok lowerer.blocks.length, { lowerer with blocks := lowerer.blocks ++ [⟨none, 0⟩] })

def BlockBuilder.push (block : BlockBuilder) (node : UInt32) : BlockBuilder :=
  ⟨block.firstNode <|> some node, block.nodeCount + 1⟩

/-- The node with the inputs in front, and no value behind them. -/
def nodeOf (blockIndex : ℕ) (opcode : Opcode) (resultType : PythType) (inputs : List UInt32)
    (auxiliary0 auxiliary1 : UInt32) (immediate : UInt64) : GraphNode where
  opcode := opcode
  resultType := resultType
  blockIndex := UInt16.ofNat blockIndex
  input0 := inputs[0]?.getD noInput
  input1 := inputs[1]?.getD noInput
  input2 := inputs[2]?.getD noInput
  input3 := inputs[3]?.getD noInput
  auxiliary0 := auxiliary0
  auxiliary1 := auxiliary1
  immediate := immediate

def pushNode (opcode : Opcode) (resultType : PythType) (inputs : List UInt32)
    (auxiliary0 auxiliary1 : UInt32) (immediate : UInt64) : Lower UInt32 := fun lowerer ↦
  let index := UInt32.ofNat lowerer.nodes.length
  (.ok index,
    { lowerer with
      blocks := lowerer.blocks.modify lowerer.currentBlock (BlockBuilder.push · index)
      nodes := lowerer.nodes ++
        [nodeOf lowerer.currentBlock opcode resultType inputs auxiliary0 auxiliary1 immediate] })

def currentBlockIsTerminated (lowerer : Lowerer) : Bool :=
  match lowerer.blocks[lowerer.currentBlock]? with
  | none => false
  | some block =>
    match block.firstNode with
    | none => false
    | some first =>
      lowerer.nodes[(first + block.nodeCount - 1).toNat]?.any (·.opcode.signature.terminator)

def findSubslice (haystack needle : Bytes) : Option ℕ :=
  (List.range (haystack.length + 1 - needle.length)).find? fun start ↦
    (haystack.drop start).take needle.length = needle

/-- The words of a slice of a pool, if it can be addressed. -/
def sliceWords (offset len : ℕ) : Lower (UInt32 × UInt16) :=
  if offset < 2 ^ 32 ∧ len < 2 ^ 16 then pure (UInt32.ofNat offset, UInt16.ofNat len)
  else reject ⟨0, 0⟩

def internString (bytes : Bytes) : Lower (UInt32 × UInt16) := do
  let lowerer ← Stateful.read
  match findSubslice lowerer.stringTable bytes with
  | some offset => sliceWords offset bytes.length
  | none => do
    let words ← sliceWords lowerer.stringTable.length bytes.length
    Stateful.modify fun lowerer ↦ { lowerer with stringTable := lowerer.stringTable ++ bytes }
    pure words

def internConstant (bytes : Bytes) : Lower (UInt32 × UInt16) := do
  let lowerer ← Stateful.read
  let words ← sliceWords lowerer.constantPool.length bytes.length
  Stateful.modify fun lowerer ↦ { lowerer with constantPool := lowerer.constantPool ++ bytes }
  pure words

def defineLocal (name : String) (binder : Binder) (node : UInt32) : Lower Unit :=
  .modify fun lowerer ↦
    { lowerer with
      locals := (name, node) :: lowerer.locals
      defined := (binder, node) :: lowerer.defined }

def finishBlocks : ℕ → List BlockBuilder → Lower (List GraphBlock)
  | _, [] => pure []
  | id, block :: blocks =>
    match block.firstNode with
    | none => reject ⟨0, 0⟩
    | some firstNode => do
      let rest ← finishBlocks (id + 1) blocks
      pure ({ blockId := UInt32.ofNat id, firstNode, nodeCount := block.nodeCount, parameterCount := 0,
              terminatorNode := firstNode + block.nodeCount - 1 } :: rest)

def finish : Lower OwnedGraph := do
  let lowerer ← Stateful.read
  let blocks ← finishBlocks 0 lowerer.blocks
  pure
    { principalId := lowerer.principalId, imports := lowerer.imports, blocks, nodes := lowerer.nodes,
      constantPool := lowerer.constantPool, stringTable := lowerer.stringTable,
      loopBudgets := lowerer.loopBudgets }

/-! ### Flow -/

def setFlow (change : Flow → Flow) : Lower Unit :=
  .modify fun lowerer ↦ { lowerer with flow := change lowerer.flow }

def clearPendingProducers : Lower Unit :=
  setFlow fun flow ↦ ⟨flow.currentEffect, none, none, none⟩

/-- A node that is no host call: nothing stays pending. -/
def pushPure (opcode : Opcode) (resultType : PythType) (inputs : List UInt32)
    (auxiliary0 auxiliary1 : UInt32) (immediate : UInt64) : Lower UInt32 := do
  clearPendingProducers
  pushNode opcode resultType inputs auxiliary0 auxiliary1 immediate

/-- A host call with its arguments behind an effect token. -/
def pushEffectNode (opcode : Opcode) (effect : UInt32) (args : List UInt32)
    (producer : Option HostProducer) : Lower UInt32 := do
  let node ← pushNode opcode .effect (effect :: args) 0 0 0
  setFlow fun flow ↦
    { currentEffect := node
      hostProducer := producer.map (·, node)
      taskContextProducer := if opcode = .taskContextRead then flow.taskContextProducer else none
      commandReadProducer := if opcode = .commandRead then flow.commandReadProducer else none }
  pure node

def pushHostResult (producer : UInt32) (field : ℕ) (resultType : PythType) : Lower UInt32 :=
  pushNode .hostResult resultType [producer] (UInt32.ofNat field) 0 0

/-- A host call behind the last one. -/
def pushNextEffect (opcode : Opcode) (args : List UInt32) (producer : Option HostProducer) :
    Lower UInt32 := do
  let lowerer ← Stateful.read
  pushEffectNode opcode lowerer.flow.currentEffect args producer

/-! ### Literals -/

def lowerLiteral (expected : Option PythType) : Literal → Lower UInt32
  | .bool value _ => pushPure .constBool .bool [] 0 0 value.toUInt64
  | .string value _ =>
    if expected = some .bytes then do
      let (offset, len) ← internConstant (textBytes value)
      pushPure .constBytes .bytes [] offset len.toUInt32 0
    else do
      let (offset, len) ← internString (textBytes value)
      pushPure .constUtf8 .utf8 [] offset len.toUInt32 0
  | .integer text span =>
    match parseU64 text with
    | none => reject span
    | some value =>
      let type := integerType expected
      pushPure (if type = .i64 then .constI64 else .constU64) type [] 0 0 value

/-! ### Intrinsics -/

def opcodeForIntrinsic : Intrinsic → Option Opcode
  | .systemLog => some .systemLog
  | .objectCreate => some .objectCreate
  | .objectQuery => some .objectQuery
  | .objectInspect => some .objectInspect
  | .objectRevise => some .objectRevise
  | .objectHistory => some .objectHistory
  | .commandResultEmit => some .commandResultEmit
  | _ => none

/-- The name of an object kind: `1` is a note, `2` a package-defined object. -/
def objectKindName : UInt64 → Option Bytes
  | 1 => some (textBytes "note")
  | 2 => some (textBytes "package-defined")
  | _ => none

def lowerObjectKind : Expression → Lower UInt32
  | .literal (.integer text span) =>
    match (parseU64 text).bind objectKindName with
    | none => reject span
    | some kind => do
      let (offset, len) ← internString kind
      pushPure .constUtf8 .utf8 [] offset len.toUInt32 0
  | expr => reject expr.span

/-- The field of a host result and its type for an access to the pending producer. -/
def accessField : HostProducer → HostResultAccess → Option (ℕ × PythType)
  | .objectCreate, .createdCapability => some (hostResultCapability, .capability)
  | .objectQuery, .queriedCapability => some (hostResultCapability, .capability)
  | .objectCreate, .createdRevision => some (hostResultRevision, .revisionId)
  | .objectInspect, .inspectedRevision => some (hostResultRevision, .revisionId)
  | _, _ => none

def lowerHostResultAccess (access : HostResultAccess) (span : Span) : Lower UInt32 := do
  let lowerer ← Stateful.read
  match lowerer.flow.hostProducer with
  | none => reject span
  | some (producer, node) =>
    match accessField producer access with
    | none => reject span
    | some (field, resultType) => pushHostResult node field resultType

def taskContextField : Intrinsic → Option (ℕ × PythType)
  | .taskContextActive => some (taskContextResultActiveTaskId, .taskId)
  | .taskContextCandidate => some (taskContextResultCandidateTaskId, .taskId)
  | .taskContextScore => some (taskContextResultConfidenceScore, .u64)
  | .taskContextKind => some (taskContextResultProposalKind, .u64)
  | .taskContextReason => some (taskContextResultReasonUtf8, .utf8)
  | _ => none

def commandField : Intrinsic → Option (ℕ × PythType)
  | .commandKind => some (commandFieldKind, .u64)
  | .commandObject => some (commandFieldObjectId, .objectId)
  | .commandTask => some (commandFieldTaskId, .taskId)
  | .commandProposal => some (commandFieldProposalId, .proposalId)
  | .commandText => some (commandFieldTextUtf8, .utf8)
  | _ => none

/-- The lowering of the argument at an index, for a type. -/
abbrev LowerArg := ℕ → PythType → Lower UInt32

/-- A read through a capability; one that is still pending is shared. -/
def sharedRead (opcode : Opcode) (pending : Flow → Option (UInt32 × UInt32)) (capability : UInt32) :
    Lower UInt32 := do
  let lowerer ← Stateful.read
  if pending lowerer.flow = some (capability, lowerer.flow.currentEffect) then
    pure lowerer.flow.currentEffect
  else pushNextEffect opcode [capability] none

/-- A field of a read through the capability in front. -/
def lowerAccessor (opcode : Opcode) (pending : Flow → Option (UInt32 × UInt32))
    (setPending : UInt32 × UInt32 → Flow → Flow) (field : ℕ × PythType) (arg : LowerArg) :
    Lower UInt32 := do
  let capability ← arg 0 .capability
  let producer ← sharedRead opcode pending capability
  setFlow (setPending (capability, producer))
  pushHostResult producer field.1 field.2

def lowerTaskContextAccessor (field : ℕ × PythType) (arg : LowerArg) : Lower UInt32 :=
  lowerAccessor .taskContextRead (·.taskContextProducer)
    (fun pending flow ↦ { flow with taskContextProducer := some pending }) field arg

def lowerCommandAccessor (field : ℕ × PythType) (arg : LowerArg) : Lower UInt32 :=
  lowerAccessor .commandRead (·.commandReadProducer)
    (fun pending flow ↦ { flow with commandReadProducer := some pending }) field arg

/-- The arguments from an index on, left to right. -/
def lowerInOrder (arg : LowerArg) : ℕ → List PythType → Lower (List UInt32)
  | _, [] => pure []
  | index, type :: types => do
    let node ← arg index type
    let nodes ← lowerInOrder arg (index + 1) types
    pure (node :: nodes)

/-- The call takes the effect token from before its arguments. -/
def lowerGenericEffectfulIntrinsic (intrinsic : Intrinsic) (args : List Expression) (arg : LowerArg)
    (span : Span) : Lower UInt32 :=
  match opcodeForIntrinsic intrinsic with
  | none => reject span
  | some opcode => do
    let lowerer ← Stateful.read
    let lowered ← lowerInOrder arg 0 (intrinsic.argTypes.take args.length)
    pushEffectNode opcode lowerer.flow.currentEffect lowered none

/-- The result of a call is projected where a value is expected. -/
def projected (producer : UInt32) (expected : Option PythType) (field : ℕ) (resultType : PythType) :
    Lower UInt32 :=
  if expected.isSome then pushHostResult producer field resultType else pure producer

/-- `args[index]`. -/
def argAt (args : List Expression) (index : ℕ) : Lower Expression :=
  .ofExcept (expect args[index]?)

def lowerObjectWorkspaceIntrinsic (opcode : Opcode) (producer : HostProducer) (args : List Expression)
    (arg : LowerArg) (expected : Option PythType) : Lower UInt32 := do
  let capability ← arg 0 .capability
  let objectKind ← argAt args 1 >>= lowerObjectKind
  let node ← pushNextEffect opcode [capability, objectKind] (some producer)
  projected node expected hostResultObjectId .objectId

def lowerRevisionPayload (args : List Expression) (arg : LowerArg) : Lower UInt32 := do
  match ← argAt args 3 with
  | .literal (.string _ _) => arg 3 .bytes
  | expr => reject expr.span

/-- The third argument of the call is not looked at. -/
def lowerObjectRevise (args : List Expression) (arg : LowerArg) (expected : Option PythType) :
    Lower UInt32 := do
  let capability ← arg 0 .capability
  let objectId ← arg 1 .objectId
  let payload ← lowerRevisionPayload args arg
  let node ← pushNextEffect .objectRevise [capability, objectId, payload] none
  projected node expected hostResultRevision .revisionId

def lowerObjectInspect (arg : LowerArg) (expected : Option PythType) : Lower UInt32 := do
  let capability ← arg 0 .capability
  let objectId ← arg 1 .objectId
  let node ← pushNextEffect .objectInspect [capability, objectId] (some .objectInspect)
  if expected = some .utf8 then pushHostResult node hostResultUtf8 .utf8 else pure node

def lowerObjectHistory (arg : LowerArg) (span : Span) (expected : Option PythType) : Lower UInt32 := do
  let capability ← arg 0 .capability
  let objectId ← arg 1 .objectId
  let node ← pushNextEffect .objectHistory [capability, objectId] none
  if expected.isSome then reject span else pure node

def lowerTaskPropose (arg : LowerArg) (span : Span) (expected : Option PythType) : Lower UInt32 :=
  if expected.isSome then reject span
  else do
    let lowered ← lowerInOrder arg 0 [.capability, .taskId, .u64]
    pushNextEffect .taskProposalEmit lowered none

def lowerIntrinsic (intrinsic : Intrinsic) (args : List Expression) (arg : LowerArg) (span : Span)
    (expected : Option PythType) : Lower UInt32 :=
  match intrinsic.hostResultAccess, taskContextField intrinsic, commandField intrinsic with
  | some access, _, _ => lowerHostResultAccess access span
  | none, some field, _ => lowerTaskContextAccessor field arg
  | none, none, some field => lowerCommandAccessor field arg
  | none, none, none =>
    match intrinsic with
    | .objectCreate => lowerObjectWorkspaceIntrinsic .objectCreate .objectCreate args arg expected
    | .objectQuery => lowerObjectWorkspaceIntrinsic .objectQuery .objectQuery args arg expected
    | .objectInspect => lowerObjectInspect arg expected
    | .objectHistory => lowerObjectHistory arg span expected
    | .objectRevise => lowerObjectRevise args arg expected
    | .taskPropose => lowerTaskPropose arg span expected
    | _ => lowerGenericEffectfulIntrinsic intrinsic args arg span

/-! ### Expressions -/

/-- The opcode of an operator, the type of its result and of its operands. -/
def operatorOpcode : BinaryOp → Opcode × PythType × PythType
  | .equal => (.eq, .bool, .u64)
  | .less => (.lessThanU64, .bool, .u64)
  | .add => (.addU64, .u64, .u64)
  | .subtract => (.subU64, .u64, .u64)
  | .and => (.boolAnd, .bool, .bool)
  | .or => (.boolOr, .bool, .bool)

def lookupLocal (ident : Ident) : Lower UInt32 := do
  let lowerer ← Stateful.read
  match lowerer.locals.lookup ident.text with
  | none => reject ident.span
  | some node => pure node

/-- The log of what a program lowers. -/
def visited (path : Path) (expr : Expression) (program : Lower UInt32) : Lower UInt32 := do
  let before ← Stateful.read
  let node ← program
  Stateful.modify fun lowerer ↦
    { lowerer with visits := ⟨path, expr, node, before.nodes.length⟩ :: lowerer.visits }
  pure node

end Lowerer

open Lowerer

mutual

/-- The match of `lower_expression`, which `visited` logs. -/
def lowerExpression (path : Path) : Expression → Option PythType → Lower UInt32
  | .literal value, expected => visited path (.literal value) (lowerLiteral expected value)
  | .name ident, _ => visited path (.name ident) (lookupLocal ident)
  | .call callee args span, expected =>
    visited path (.call callee args span)
      (match Intrinsic.fromName callee.text with
        | none => reject callee.span
        | some intrinsic => lowerIntrinsic intrinsic args (lowerArg path 0 args) span expected)
  | .unary op expr span, _ =>
    visited path (.unary op expr span) do
      let input ← lowerExpression (0 :: path) expr (some .bool)
      pushPure .boolNot .bool [input] 0 0 0
  | .binary op left right span, _ =>
    visited path (.binary op left right span) do
      let (opcode, result, operands) := operatorOpcode op
      let left ← lowerExpression (0 :: path) left (some operands)
      let right ← lowerExpression (1 :: path) right (some operands)
      pushPure opcode result [left, right] 0 0 0

/-- `lower_expression(&args[index], ..)`, for the arguments from a position on. -/
def lowerArg (path : Path) (position : ℕ) : List Expression → LowerArg
  | [], _, _ => .fail .panicked
  | arg :: args, index, type =>
    if index = position then lowerExpression (position :: path) arg (some type)
    else lowerArg path (position + 1) args index type

end

/-! ### Statements -/

namespace Lowerer

/-- The end of a branch of an `if`: unless it is terminated it jumps to the join, which is allocated by
the first branch that needs it. -/
def leaveBranch (join : Option ℕ) : Lower (Option Flow × Option ℕ) := do
  let lowerer ← Stateful.read
  if lowerer.currentBlockIsTerminated then pure (none, join)
  else do
    let target ← match join with
      | some block => pure block
      | none => addBlock
    let _ ← pushPure .jump .unit [] (UInt32.ofNat target) 0 0
    pure (some lowerer.flow, some target)

def enterBlock (block : ℕ) (flow : Flow) : Lower Unit :=
  .modify fun lowerer ↦ { lowerer with currentBlock := block, flow }

/-- The flow behind the branches that reach the join. -/
def joinedFlow : Option Flow → Option Flow → Flow → Flow
  | some flow, none, _ => flow
  | none, some flow, _ => flow
  | some first, some second, _ =>
    if first.currentEffect = second.currentEffect then first else ⟨noInput, none, none, none⟩
  | none, none, flow => flow

def enterJoin (join : Option ℕ) (thenFlow elseFlow : Option Flow) : Lower Unit :=
  match join with
  | none => pure ()
  | some block => .modify fun lowerer ↦
    { lowerer with currentBlock := block, flow := joinedFlow thenFlow elseFlow lowerer.flow }

/-- A loop becomes a jump of the current block to itself. -/
def pushLoop (budget : UInt64) : Lower Unit := do
  Stateful.modify fun lowerer ↦ { lowerer with loopBudgets := lowerer.loopBudgets ++ [budget] }
  let lowerer ← Stateful.read
  let _ ← pushPure .jump .unit [] (UInt32.ofNat lowerer.currentBlock) 0 0
  pure ()

def pushReturn : Lower Unit := do
  let _ ← pushPure .ret .unit [] 0 0 0
  pure ()

end Lowerer

mutual

def lowerStatement (path : Path) : Statement → Lower Unit
  | .letLocal name typeName value _ => do
    let node ← lowerExpression (0 :: path) value (some typeName.pythType)
    defineLocal name.text (.declared path) node
  | .expr expr => do
    let _ ← lowerExpression (0 :: path) expr none
    pure ()
  | .ret _ => pushReturn
  | .ifElse condition thenStatements elseStatements _ => do
    let condition ← lowerExpression (0 :: path) condition (some .bool)
    clearPendingProducers
    let incoming ← Stateful.read
    let thenBlock ← addBlock
    let elseBlock ← addBlock
    let _ ← pushNode .branch .unit [condition] (UInt32.ofNat thenBlock) (UInt32.ofNat elseBlock) 0
    enterBlock thenBlock incoming.flow
    lowerStatements (1 :: path) 0 thenStatements
    let (thenFlow, join) ← leaveBranch none
    enterBlock elseBlock incoming.flow
    lowerStatements (2 :: path) 0 elseStatements
    let (elseFlow, join) ← leaveBranch join
    enterJoin join thenFlow elseFlow
  | .whileLoop budget _ _ _ => pushLoop budget

/-- The statements of a block from an index on, up to one that terminates the current block. -/
def lowerStatements (path : Path) (index : ℕ) : List Statement → Lower Unit
  | [] => pure ()
  | statement :: statements => do
    let lowerer ← Stateful.read
    if lowerer.currentBlockIsTerminated then pure ()
    else do
      lowerStatement (index :: path) statement
      lowerStatements path (index + 1) statements

end

/-! ### Programs -/

def importOf (slot : ℕ) (info : CapabilityInfo) (name : UInt32 × UInt16) : GraphImport where
  nameOffset := name.1
  nameLen := name.2
  resourceKind := UInt16.ofNat info.resourceKind
  rights := UInt64.ofNat info.rights
  expectedType := .capability
  importSlot := UInt16.ofNat slot

/-- The import of a slot becomes a parameter of the entry block. A name that cannot be interned panics. -/
def lowerImport (slot : ℕ) (record : ImportDecl) : Lower Unit :=
  match importInfo record with
  | .error _ => reject record.span
  | .ok info =>
    if slot < 2 ^ 16 then do
      let name ← .handle (internString (textBytes record.name.text)) fun _ ↦ .fail .panicked
      Stateful.modify fun lowerer ↦
        { lowerer with imports := lowerer.imports ++ [importOf slot info name] }
      let node ← pushNode .blockParam .capability [] (UInt32.ofNat slot) 0 0
      defineLocal record.name.text (.imported slot) node
    else reject record.span

/-- The imports from a slot on. -/
def lowerImports (slot : ℕ) : List ImportDecl → Lower Unit
  | [] => pure ()
  | record :: records => do
    lowerImport slot record
    lowerImports (slot + 1) records

def firstLoopBudget (statements : List Statement) : Option UInt64 :=
  statements.findSome? fun statement ↦
    match statement with
    | .whileLoop budget _ _ _ => some budget
    | _ => none

def startEntry : Lower Unit := do
  let _ ← addBlock
  let effect ← pushNode .effectStart .effect [] 0 0 0
  setFlow fun flow ↦ { flow with currentEffect := effect }

/-- The body of `main`. A loop among its statements replaces all of it. -/
def lowerMain (statements : List Statement) : Lower Unit :=
  match firstLoopBudget statements with
  | some budget => pushLoop budget
  | none => do
    lowerStatements [] 0 statements
    let lowerer ← Stateful.read
    if lowerer.currentBlockIsTerminated then pure () else pushReturn

def lowerProgram (program : Program) : Lower OwnedGraph := do
  startEntry
  lowerImports 0 program.imports
  lowerMain program.main.statements
  finish

/-- The lowerer that `lower_program` starts with. -/
def Program.lowerer (program : Program) : Lowerer := .new program.principalId program.name.text

end Pythos.Pythc
