import Pythos.Pythc.Parser

/-!
# The type checker of Pyth

The checker walks a program with a table of the visible symbols. A block sees the symbols around it and
drops its own when it ends; a name that is visible cannot be defined again. A capability carries the
resource and the rights of its import, and a call is checked against the requirement of its intrinsic.

Symbols stand newest first. Beside the table of the source, a symbol names the import or `let` that defined
it, and the checker logs what every occurrence of a name was resolved to; nothing reads the two.
-/

namespace Pythos.Pythc

open Foundation Tig

/-! ### Intrinsics -/

inductive Intrinsic
  | systemLog
  | objectCreate
  | objectCreatedCapability
  | objectCreatedRevision
  | objectQuery
  | objectQueriedCapability
  | objectInspect
  | objectInspectedRevision
  | objectRevise
  | objectHistory
  | taskActive
  | taskContextActive
  | taskContextCandidate
  | taskContextScore
  | taskContextKind
  | taskContextReason
  | taskPropose
  | commandKind
  | commandObject
  | commandTask
  | commandProposal
  | commandText
  | commandResultEmit
  | graphRelated
  | relevanceEmit
  | capabilityRequest
  deriving DecidableEq, Repr

/-- A resource and rights on it: what an intrinsic requires, and what a capability grants. -/
structure CapabilityInfo where
  resourceKind : ℕ
  rights : ℕ
  deriving DecidableEq, Repr

inductive HostProducer
  | objectCreate
  | objectQuery
  | objectInspect
  deriving DecidableEq, Repr

inductive HostResultAccess
  | createdCapability
  | createdRevision
  | queriedCapability
  | inspectedRevision
  deriving DecidableEq, Repr

namespace Intrinsic

def fromName (name : String) : Option Intrinsic :=
  [("system.log", systemLog), ("object.create", objectCreate),
    ("object.created_capability", objectCreatedCapability),
    ("object.created_revision", objectCreatedRevision), ("object.query", objectQuery),
    ("object.queried_capability", objectQueriedCapability), ("object.inspect", objectInspect),
    ("object.inspected_revision", objectInspectedRevision), ("object.revise", objectRevise),
    ("object.history", objectHistory), ("task.active", taskActive),
    ("task.context_active", taskContextActive), ("task.context_candidate", taskContextCandidate),
    ("task.context_score", taskContextScore), ("task.context_kind", taskContextKind),
    ("task.context_reason", taskContextReason), ("task.propose", taskPropose),
    ("command.kind", commandKind), ("command.object", commandObject), ("command.task", commandTask),
    ("command.proposal", commandProposal), ("command.text", commandText),
    ("command.result_emit", commandResultEmit), ("graph.related", graphRelated),
    ("relevance.emit", relevanceEmit), ("capability.request", capabilityRequest)].lookup name

def argTypes : Intrinsic → List PythType
  | systemLog => [.capability, .utf8]
  | objectCreate | objectQuery => [.capability, .u64]
  | objectCreatedCapability | objectCreatedRevision | objectQueriedCapability
  | objectInspectedRevision => []
  | objectInspect | objectHistory => [.capability, .objectId]
  | objectRevise | relevanceEmit => [.capability, .objectId, .u64, .utf8]
  | taskPropose | graphRelated => [.capability, .taskId, .u64]
  | commandResultEmit => [.capability, .errorCode, .utf8]
  | capabilityRequest => [.capability, .u64, .u64]
  | _ => [.capability]

def resultType : Intrinsic → PythType
  | systemLog | commandResultEmit | relevanceEmit | taskPropose => .unit
  | objectCreate | objectQuery | graphRelated | commandObject => .objectId
  | objectCreatedCapability | objectQueriedCapability => .capability
  | objectCreatedRevision | objectInspectedRevision | objectRevise => .revisionId
  | objectInspect | taskContextReason | commandText => .utf8
  | objectHistory | taskContextScore | taskContextKind | commandKind => .u64
  | taskActive | taskContextActive | taskContextCandidate | commandTask => .taskId
  | commandProposal | capabilityRequest => .proposalId

def requirement : Intrinsic → Option CapabilityInfo
  | systemLog => some ⟨resourceSystemLog, rightsRead⟩
  | objectCreate => some ⟨resourceObjectWorkspace, rightsCreate⟩
  | objectQuery => some ⟨resourceObjectWorkspace, rightsQuery⟩
  | objectInspect | objectHistory => some ⟨resourceObject, rightsRead⟩
  | objectRevise => some ⟨resourceObject, rightsRevise⟩
  | taskActive | taskContextActive | taskContextCandidate | taskContextScore | taskContextKind
  | taskContextReason => some ⟨resourceTask, rightsRead⟩
  | taskPropose => some ⟨resourceTask, rightsCreate⟩
  | commandKind | commandObject | commandTask | commandProposal | commandText =>
    some ⟨resourceCommand, rightsRead⟩
  | commandResultEmit => some ⟨resourceCommand, rightsAppend⟩
  | capabilityRequest => some ⟨resourceTask, rightsAppend⟩
  | graphRelated => some ⟨resourceGraph, rightsQuery⟩
  | relevanceEmit => some ⟨resourceGraph, rightsAppend⟩
  | objectCreatedCapability | objectCreatedRevision | objectQueriedCapability
  | objectInspectedRevision => none

def producer : Intrinsic → Option HostProducer
  | objectCreate => some .objectCreate
  | objectQuery => some .objectQuery
  | objectInspect => some .objectInspect
  | _ => none

def hostResultAccess : Intrinsic → Option HostResultAccess
  | objectCreatedCapability => some .createdCapability
  | objectCreatedRevision => some .createdRevision
  | objectQueriedCapability => some .queriedCapability
  | objectInspectedRevision => some .inspectedRevision
  | _ => none

/-- `capability_for_intrinsic_result`. -/
def resultCapability : Intrinsic → Option CapabilityInfo
  | objectCreatedCapability | objectQueriedCapability =>
    some ⟨resourceObject, rightsRead ||| rightsRevise⟩
  | _ => none

end Intrinsic

/-! ### Types and imports -/

def TypeName.pythType : TypeName → PythType
  | bool => .bool
  | u64 => .u64
  | i64 => .i64
  | bytes => .bytes
  | utf8 => .utf8
  | objectId => .objectId
  | revisionId => .revisionId
  | taskId => .taskId
  | proposalId => .proposalId
  | capability => .capability
  | errorCode => .errorCode
  | unit => .unit

def isIntegerLikeType (type : PythType) : Bool :=
  type ∈ [PythType.u64, .i64, .objectId, .revisionId, .taskId, .proposalId, .errorCode]

/-- The type of an integer literal. -/
def integerType (expected : Option PythType) : PythType :=
  (expected.filter isIntegerLikeType).getD .u64

def resourceKind (resource : String) : Option ℕ :=
  [("system.log", resourceSystemLog), ("object.workspace", resourceObjectWorkspace),
    ("object", resourceObject), ("task", resourceTask), ("task.context", resourceTask),
    ("task.proposal", resourceTask), ("graph", resourceGraph), ("command", resourceCommand)].lookup
      resource

def rightBit (right : String) : Option ℕ :=
  [("read", rightsRead), ("write", rightsRead), ("query", rightsQuery), ("revise", rightsRevise),
    ("create", rightsCreate), ("append", rightsAppend), ("approve", rightsApprove),
    ("control", rightsControl)].lookup right

def rightsBits (rights : String) : Option ℕ :=
  (rights.toList.splitOn '|').foldlM (fun bits right ↦ (rightBit (.ofList right)).map (bits ||| ·)) 0

/-- The resource and the rights an import asks for. -/
def importInfo (record : ImportDecl) : Except Diagnostic CapabilityInfo :=
  match resourceKind record.resource, rightsBits record.rights with
  | none, _ => .error ⟨"T0011", "import resource mismatch", record.span⟩
  | some _, none => .error ⟨"T0012", "import rights insufficient", record.span⟩
  | some resourceKind, some rights => .ok ⟨resourceKind, rights⟩

/-! ### The checker -/

/-- A place in a program: the positions of its parents among their siblings, innermost first. -/
abbrev Path := List ℕ

/-- What defines a local name: the import of a slot, or the `let` statement at a place. -/
inductive Binder
  | imported (slot : ℕ)
  | declared (path : Path)
  deriving DecidableEq, Repr

structure SymbolInfo where
  type : PythType
  capability : Option CapabilityInfo
  binder : Binder
  deriving DecidableEq, Repr

structure ExprOutcome where
  type : PythType
  capability : Option CapabilityInfo
  producer : Option HostProducer
  hostResultAccess : Bool
  deriving DecidableEq, Repr

def ExprOutcome.plain (type : PythType) : ExprOutcome := ⟨type, none, none, false⟩

structure Checker where
  symbols : List (String × SymbolInfo)
  requiredIntrinsics : List Intrinsic
  pendingHostProducer : Option HostProducer
  resolved : List (Path × Binder)
  deriving DecidableEq, Repr

abbrev Check := Stateful Diagnostic Checker

/-- `if condition { return Err(Diagnostic::new(code, message, span)); }`. -/
def refuse (condition : Bool) (code message : String) (span : Span) : Check Unit :=
  if condition then .fail ⟨code, message, span⟩ else pure ()

namespace Checker

def new : Checker := ⟨[], [], none, []⟩

def lookupSymbol (checker : Checker) (name : String) : Option SymbolInfo :=
  checker.symbols.lookup name

def defineSymbol (ident : Ident) (info : SymbolInfo) : Check Unit := do
  let checker ← Stateful.read
  refuse (checker.lookupSymbol ident.text).isSome "T0001" "duplicate local" ident.span
  Stateful.modify fun checker ↦ { checker with symbols := (ident.text, info) :: checker.symbols }

def recordIntrinsic (intrinsic : Intrinsic) : Check Unit :=
  .modify fun checker ↦
    if intrinsic ∈ checker.requiredIntrinsics then checker
    else { checker with requiredIntrinsics := checker.requiredIntrinsics ++ [intrinsic] }

def setPending (producer : Option HostProducer) : Check Unit :=
  .modify fun checker ↦ { checker with pendingHostProducer := producer }

def finishExpression (outcome : ExprOutcome) : Check Unit :=
  if outcome.hostResultAccess then pure () else setPending outcome.producer

/-- The name at a place is resolved, and the binder is logged. -/
def checkName (path : Path) (ident : Ident) : Check ExprOutcome := do
  let checker ← Stateful.read
  match checker.lookupSymbol ident.text with
  | none => .fail ⟨"T0002", "unknown name", ident.span⟩
  | some symbol => do
    Stateful.modify fun checker ↦
      { checker with resolved := (path, symbol.binder) :: checker.resolved }
    pure ⟨symbol.type, symbol.capability, none, false⟩

def checkLiteral (expected : Option PythType) : Literal → Check ExprOutcome
  | .bool _ _ => pure (.plain .bool)
  | .string _ _ => pure (.plain .utf8)
  | .integer text span => do
    refuse (parseU64 text).isNone "T0013" "integer literal overflow" span
    pure (.plain (integerType expected))

def accessIsValid : Option HostProducer → HostResultAccess → Bool
  | some .objectCreate, .createdCapability => true
  | some .objectCreate, .createdRevision => true
  | some .objectQuery, .queriedCapability => true
  | some .objectInspect, .inspectedRevision => true
  | _, _ => false

def validateHostResultAccess (access : HostResultAccess) (span : Span) : Check Unit := do
  let checker ← Stateful.read
  refuse (!accessIsValid checker.pendingHostProducer access) "T0010" "stale host result access" span

def checkRequirement (intrinsic : Intrinsic) (firstCapability : Option CapabilityInfo) (span : Span) :
    Check Unit :=
  match intrinsic.requirement, firstCapability with
  | none, _ => pure ()
  | some _, none => .fail ⟨"T0011", "import resource mismatch", span⟩
  | some requirement, some capability => do
    refuse (capability.resourceKind ≠ requirement.resourceKind) "T0011" "import resource mismatch" span
    refuse (capability.rights &&& requirement.rights ≠ requirement.rights) "T0012"
      "import rights insufficient" span

/-- The checks of a call behind its arguments. -/
def checkAuthority (intrinsic : Intrinsic) (firstCapability : Option CapabilityInfo) (span : Span) :
    Check ExprOutcome := do
  checkRequirement intrinsic firstCapability span
  match intrinsic.hostResultAccess with
  | none => pure ()
  | some access => validateHostResultAccess access span
  pure ⟨intrinsic.resultType, intrinsic.resultCapability, intrinsic.producer,
    intrinsic.hostResultAccess.isSome⟩

/-- The operand type that an operator other than equality takes, and the type of its result. -/
def operatorTypes : BinaryOp → Option PythType × PythType
  | .equal => (none, .bool)
  | .less => (some .u64, .bool)
  | .add | .subtract => (some .u64, .u64)
  | .and | .or => (some .bool, .bool)

def checkOperands (op : BinaryOp) (left right : ExprOutcome) (span : Span) : Check ExprOutcome := do
  refuse (left.type = .capability ∨ right.type = .capability) "T0008" "capability operation forbidden"
    span
  refuse (match (operatorTypes op).1 with
    | none => left.type ≠ right.type
    | some type => left.type ≠ type ∨ right.type ≠ type) "T0003" "type mismatch" span
  pure (.plain (operatorTypes op).2)

/-- A block drops the symbols it defined, and the producer it left pending. -/
def checkNestedBlock (block : Check Unit) : Check Unit := do
  let checker ← Stateful.read
  setPending none
  block
  Stateful.modify fun after ↦
    { after with
      symbols := after.symbols.drop (after.symbols.length - checker.symbols.length)
      pendingHostProducer := checker.pendingHostProducer }

end Checker

open Checker

mutual

def checkExpression (path : Path) : Expression → Option PythType → Check ExprOutcome
  | .literal value, expected => checkLiteral expected value
  | .name ident, _ => checkName path ident
  | .call callee args span, _ =>
    match Intrinsic.fromName callee.text with
    | none => .fail ⟨"T0006", "unsupported intrinsic", callee.span⟩
    | some intrinsic => do
      recordIntrinsic intrinsic
      refuse (args.length ≠ intrinsic.argTypes.length) "T0007" "wrong argument count" span
      let firstCapability ← checkArgs path 0 args intrinsic.argTypes
      checkAuthority intrinsic firstCapability span
  | .unary _ expr span, _ => do
    let operand ← checkExpression (0 :: path) expr (some .bool)
    refuse (operand.type = .capability) "T0008" "capability operation forbidden" span
    refuse (operand.type ≠ .bool) "T0003" "type mismatch" expr.span
    pure (.plain .bool)
  | .binary op left right span, _ => do
    let left ← checkExpression (0 :: path) left none
    let right ← checkExpression (1 :: path) right none
    checkOperands op left right span

/-- The arguments from an index on, against their types; the capability of the first argument. -/
def checkArgs (path : Path) (index : ℕ) :
    List Expression → List PythType → Check (Option CapabilityInfo)
  | arg :: args, expected :: types => do
    let outcome ← checkExpression (index :: path) arg (some expected)
    refuse (outcome.type ≠ expected) "T0003" "type mismatch" arg.span
    let _ ← checkArgs path (index + 1) args types
    pure (if expected = .capability then outcome.capability else none)
  | _, _ => pure none

end

def checkCondition (path : Path) (condition : Expression) : Check Unit := do
  let outcome ← checkExpression path condition (some .bool)
  refuse (outcome.type ≠ .bool) "T0004" "non-bool condition" condition.span
  setPending none

def maxLoopBudget : UInt64 := 65536

mutual

def checkStatement (path : Path) : Statement → Check Unit
  | .letLocal name typeName value _ => do
    let expected := typeName.pythType
    let outcome ← checkExpression (0 :: path) value (some expected)
    refuse (outcome.type ≠ expected) "T0003" "type mismatch" value.span
    defineSymbol name
      ⟨expected, if expected = .capability then outcome.capability else none, .declared path⟩
    finishExpression outcome
  | .ifElse condition thenStatements elseStatements _ => do
    checkCondition (0 :: path) condition
    checkNestedBlock (checkStatements (1 :: path) 0 thenStatements)
    checkNestedBlock (checkStatements (2 :: path) 0 elseStatements)
    setPending none
  | .whileLoop budget condition statements span => do
    refuse (budget > maxLoopBudget) "T0014" "loop budget exceeds 65536" span
    checkCondition (0 :: path) condition
    checkNestedBlock (checkStatements (1 :: path) 0 statements)
    setPending none
  | .expr expr => do
    let outcome ← checkExpression (0 :: path) expr none
    finishExpression outcome
  | .ret _ => setPending none

/-- The statements of a block from an index on. -/
def checkStatements (path : Path) (index : ℕ) : List Statement → Check Unit
  | [] => pure ()
  | statement :: statements => do
    checkStatement (index :: path) statement
    checkStatements path (index + 1) statements

end

/-- The imports from a slot on are defined as capabilities. -/
def checkImports (slot : ℕ) : List ImportDecl → Check Unit
  | [] => pure ()
  | record :: records => do
    let capability ← .ofExcept (importInfo record)
    defineSymbol record.name ⟨.capability, some capability, .imported slot⟩
    checkImports (slot + 1) records

/-- `check_program`. The typed program is the program itself with the intrinsics that the checker
recorded. -/
def checkProgram (program : Program) : Check Unit := do
  checkImports 0 program.imports
  checkStatements [] 0 program.main.statements

end Pythos.Pythc
