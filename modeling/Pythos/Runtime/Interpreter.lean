import Pythos.Shared.Abi
import Pythos.Tig.SemanticsFacts

/-!
# The interpreter of verified graphs

`execute` runs a graph node by node against a host. A node is dispatched in two stages: `prepare` reads
its operands and says what it does (an `Action`), and `perform` carries the action out: it stores a
value, or calls the host, validates the reply and stores it. No handler of the source changes the
machine before its host call, so the two stages are the handler. The `loop` over blocks runs on fuel, and
`executeBlocks` returns nothing without it.

The interpreter reads the package through its accessors; on a decoded package they return the lists of
`PythGraphPackage.graph`, which the model reads instead. Host state is an arbitrary type, and a host
answers every request with a reply or an error; the reply of a method without a result is ignored, as
in the source. The machine carries a trace of what happened, which no function reads.
-/

namespace Pythos.Runtime

open Foundation Shared Tig

/-! ### Values and host records -/

inductive Value
  | unit
  | bool (value : Bool)
  | u64 (value : UInt64)
  | i64 (value : Int64)
  | slice (offset len : ℕ) (utf8 : Bool)
  | objectId (id : UInt64)
  | revisionId (id : UInt64)
  | taskId (id : UInt64)
  | proposalId (id : UInt64)
  | capability (capability : PackedCapability)
  | effect (token : ℕ)
  | errorCode (code : UInt16)
  | hostUtf8 (producerNode : ℕ) (len : UInt16)
  deriving DecidableEq

/-- The type of a value. -/
def Value.type : Value → PythType
  | .unit => .unit
  | .bool _ => .bool
  | .u64 _ => .u64
  | .i64 _ => .i64
  | .slice _ _ utf8 => if utf8 then .utf8 else .bytes
  | .objectId _ => .objectId
  | .revisionId _ => .revisionId
  | .taskId _ => .taskId
  | .proposalId _ => .proposalId
  | .capability _ => .capability
  | .effect _ => .effect
  | .errorCode _ => .errorCode
  | .hostUtf8 _ _ => .utf8

def maxHostResultBytes : ℕ := 64
def maxPythGraphImports : ℕ := 32

structure HostCallResult where
  status : UInt16
  bytesLen : UInt16
  reserved0 : UInt32
  objectId : UInt64
  revision : UInt64
  capability : PackedCapability
  bytes : Vector UInt8 maxHostResultBytes
  reserved1 : Vector UInt8 16
  deriving DecidableEq

/-- The text of a result: the first `bytes_len` bytes. -/
def HostCallResult.text (result : HostCallResult) : Bytes :=
  result.bytes.toList.take result.bytesLen.toNat

inductive HostError
  | denied
  | failed
  deriving DecidableEq, Repr

inductive RuntimeError
  | budgetExhausted
  | invalidBlock
  | invalidNode
  | invalidInput
  | invalidValue
  | invalidString
  | missingImport
  | unsupportedOpcode
  | host (error : HostError)
  deriving DecidableEq, Repr

def RuntimeError.code : RuntimeError → ℕ
  | .budgetExhausted => 1
  | .invalidBlock => 2
  | .invalidNode => 3
  | .invalidInput => 4
  | .invalidValue => 5
  | .invalidString => 6
  | .missingImport => 7
  | .unsupportedOpcode => 8
  | .host .denied => 9
  | .host .failed => 10

/-- The methods of a host, with their arguments. -/
inductive HostRequest
  | systemLog (capability : PackedCapability) (text : Bytes)
  | objectCreate (capability : PackedCapability) (kind : Bytes)
  | objectQuery (capability : PackedCapability) (kind : Bytes)
  | objectInspect (capability : PackedCapability) (objectId : UInt64)
  | objectRevise (capability : PackedCapability) (objectId : UInt64) (text : Bytes)
  | objectHistory (capability : PackedCapability) (objectId : UInt64)
  | taskContext (capability : PackedCapability)
  | taskPropose (capability : PackedCapability) (candidateTaskId score : UInt64)
  | commandRead (capability : PackedCapability)
  | commandResultEmit (capability : PackedCapability) (status : UInt16) (text : Bytes)
  deriving DecidableEq

/-- The capability that a request passes to the host. -/
def HostRequest.capability : HostRequest → PackedCapability
  | .systemLog capability _ | .objectCreate capability _ | .objectQuery capability _
  | .objectInspect capability _ | .objectRevise capability _ _ | .objectHistory capability _
  | .taskContext capability | .taskPropose capability _ _ | .commandRead capability
  | .commandResultEmit capability _ _ => capability

/-- The opcode whose handler makes a request. -/
def HostRequest.opcode : HostRequest → Opcode
  | .systemLog _ _ => .systemLog
  | .objectCreate _ _ => .objectCreate
  | .objectQuery _ _ => .objectQuery
  | .objectInspect _ _ => .objectInspect
  | .objectRevise _ _ _ => .objectRevise
  | .objectHistory _ _ => .objectHistory
  | .taskContext _ => .taskContextRead
  | .taskPropose _ _ _ => .taskProposalEmit
  | .commandRead _ => .commandRead
  | .commandResultEmit _ _ _ => .commandResultEmit

abbrev HostReply := Except HostError HostCallResult

/-- A host: a state and an answer to every request. -/
abbrev Host (σ : Type) := HostRequest → σ → HostReply × σ

/-! ### Validation of host replies -/

def validateHostCallResult (result : HostCallResult) : Except RuntimeError Unit :=
  if result.reserved0 ≠ 0 ∨ result.reserved1 ≠ Vector.replicate 16 0 ∨
      result.bytesLen.toNat > maxHostResultBytes then .error .invalidValue
  else .ok ()

def validateTaskContextResult (result : HostCallResult) : Except RuntimeError Unit :=
  if result.reserved1 ≠ Vector.replicate 16 0 ∨ result.bytesLen.toNat > maxHostResultBytes then
    .error .invalidValue
  else if ¬ utf8Valid result.text then .error .invalidString
  else .ok ()

/-- `command_kind_is_known` on the kind that `u16::try_from` accepts. -/
def commandKindIsKnown (kind : ℕ) : Bool := 1 ≤ kind && kind ≤ 12

def validateCommandReadResult (result : HostCallResult) : Except RuntimeError Unit :=
  if ¬ result.reserved0.toNat < 2 ^ 16 then .error .invalidValue
  else if result.reserved1 ≠ Vector.replicate 16 0 ∨ result.bytesLen.toNat > maxHostResultBytes ∨
      ¬ commandKindIsKnown result.reserved0.toNat then .error .invalidValue
  else if ¬ utf8Valid result.text then .error .invalidString
  else .ok ()

/-- The validation that the handler of a request applies to its result, if the method has one. -/
def HostRequest.validator : HostRequest → Option (HostCallResult → Except RuntimeError Unit)
  | .systemLog _ _ => none
  | .objectCreate _ _ => some validateHostCallResult
  | .objectQuery _ _ => some validateHostCallResult
  | .objectInspect _ _ => some validateHostCallResult
  | .objectRevise _ _ _ => some validateHostCallResult
  | .objectHistory _ _ => some validateHostCallResult
  | .taskContext _ => some validateTaskContextResult
  | .taskPropose _ _ _ => none
  | .commandRead _ => some validateCommandReadResult
  | .commandResultEmit _ _ _ => none

/-! ### The machine -/

/-- What happened in a run. -/
inductive Event
  | entered (block : ℕ)
  | dispatched (node : ℕ)
  | called (node : ℕ) (request : HostRequest) (reply : HostReply)

/-- The state of the interpreter together with the state of its host. The trace has the last event
first. -/
structure Machine (σ : Type) where
  values : List (Option Value)
  hostResults : List (Option HostCallResult)
  budget : ℕ
  executedNodes : ℕ
  lastNode : ℕ
  host : σ
  trace : List Event

variable {σ : Type}

/-- `Interpreter::new`. -/
def Machine.init (budget : UInt64) (host : σ) : Machine σ where
  values := List.replicate maxRuntimeValues none
  hostResults := List.replicate maxRuntimeValues none
  budget := budget.toNat
  executedNodes := 0
  lastNode := noValue
  host := host
  trace := []

def Machine.enter (machine : Machine σ) (block : ℕ) : Machine σ :=
  { machine with trace := .entered block :: machine.trace }

/-- The bookkeeping of `dispatch_node` before it looks at the node. -/
def Machine.charge (machine : Machine σ) (index : ℕ) : Machine σ :=
  { machine with
    budget := machine.budget - 1
    executedNodes := machine.executedNodes + 1
    lastNode := index
    trace := .dispatched index :: machine.trace }

/-! ### Operands -/

section Operands

variable (g : Graph) (values : List (Option Value)) (hostResults : List (Option HostCallResult))

def okOrElse {α : Type} (error : RuntimeError) : Option α → Except RuntimeError α
  | some value => .ok value
  | none => .error error

theorem okOrElse_eq_ok_iff {α : Type} {error : RuntimeError} {option : Option α} {value : α} :
    okOrElse error option = .ok value ↔ option = some value := by
  cases option <;> simp [okOrElse]

def loadValue (index : ℕ) : Except RuntimeError Value :=
  okOrElse .invalidInput (values[index]?.join)

def expectEffect (index : ℕ) : Except RuntimeError ℕ := do
  match ← loadValue values index with
  | .effect token => .ok token
  | _ => .error .invalidValue

def expectCapability (index : ℕ) : Except RuntimeError PackedCapability := do
  match ← loadValue values index with
  | .capability capability => .ok capability
  | _ => .error .invalidValue

/-- `package.string_at` with the length read as `u16`. -/
def stringAt (offset len : ℕ) : Except RuntimeError Bytes :=
  if len < 2 ^ 16 then okOrElse .invalidString (referencedBytes g.stringTable offset len)
  else .error .invalidString

/-- On a decoded package this is the accessor of the package. -/
theorem stringAt_graph {package : PythGraphPackage} (h : package.WellFormed) {offset len : ℕ}
    (hlen : len < 2 ^ 16) : stringAt package.graph offset len =
      (package.stringAt offset len).mapError fun _ ↦ RuntimeError.invalidString := by
  rw [stringAt, if_pos hlen, referencedBytes, PythGraphPackage.stringAt, h.stringTable_eq]
  by_cases hsum : offset + len < 2 ^ 32
  · rw [if_pos hsum, if_pos hsum]
    change okOrElse _ (slice? package.stringBytes _ _) = _
    cases hslice : slice? package.stringBytes offset (offset + len) <;>
      simp [hslice, okOrElse, okOr, fail, Except.mapError, pure, Except.pure, bind, Except.bind]
  · rw [if_neg hsum, if_neg hsum]
    rfl

def expectUtf8Bytes (index : ℕ) : Except RuntimeError Bytes := do
  match ← loadValue values index with
  | .slice offset len true => stringAt g offset len
  | .hostUtf8 producerNode len => do
    let result ← okOrElse .invalidValue (hostResults[producerNode]?.join)
    if len.toNat > maxHostResultBytes then .error .invalidString
    else
      let bytes := result.bytes.toList.take len.toNat
      if utf8Valid bytes then .ok bytes else .error .invalidString
  | _ => .error .invalidValue

/-- `constant_pool().get(offset..offset + len)` in `usize`. -/
def constantAt (offset len : ℕ) : Except RuntimeError Bytes :=
  if offset + len < usizeSize then
    okOrElse .invalidString (slice? g.constantPool offset (offset + len))
  else .error .invalidString

def expectBytes (index : ℕ) : Except RuntimeError Bytes := do
  match ← loadValue values index with
  | .slice offset len false => constantAt g offset len
  | _ => .error .invalidValue

def expectObjectId (index : ℕ) : Except RuntimeError UInt64 := do
  match ← loadValue values index with
  | .objectId id => .ok id
  | _ => .error .invalidValue

def expectTaskId (index : ℕ) : Except RuntimeError UInt64 := do
  match ← loadValue values index with
  | .taskId id => .ok id
  | _ => .error .invalidValue

def expectU64 (index : ℕ) : Except RuntimeError UInt64 := do
  match ← loadValue values index with
  | .u64 value => .ok value
  | _ => .error .invalidValue

def expectErrorCode (index : ℕ) : Except RuntimeError UInt16 := do
  match ← loadValue values index with
  | .errorCode code => .ok code
  | _ => .error .invalidValue

def expectBool (index : ℕ) : Except RuntimeError Bool := do
  match ← loadValue values index with
  | .bool value => .ok value
  | _ => .error .invalidValue

end Operands

/-! ### Handlers -/

/-- What a dispatched node does once its operands are read. -/
inductive Action
  | store (value : Value)
  | call (request : HostRequest)
  | proceed
  deriving DecidableEq

section Handlers

variable (g : Graph) (imports : Vector PackedCapability maxPythGraphImports)
  (values : List (Option Value)) (hostResults : List (Option HostCallResult)) (index : ℕ)
  (node : NodeRecord)

/-- `PythType::try_from(node.result_type).map_err(|_| RuntimeError::InvalidValue)`. -/
def resultType : Except RuntimeError PythType :=
  okOrElse .invalidValue (PythType.ofCode node.resultType)

def executeBlockParam : Except RuntimeError Action := do
  let type ← resultType node
  if type ≠ .capability then .error .unsupportedOpcode
  else do
    let capability ← okOrElse .missingImport imports[node.auxiliary0]?
    if capability.raw = 0 then .error .missingImport
    else .ok (.store (.capability capability))

def executeConstBool : Except RuntimeError Action := do
  let type ← resultType node
  if type ≠ .bool then .error .unsupportedOpcode
  else if node.immediate = 0 then .ok (.store (.bool false))
  else if node.immediate = 1 then .ok (.store (.bool true))
  else .error .invalidValue

def executeConstU64 : Except RuntimeError Action := do
  let immediate := UInt64.ofNat node.immediate
  match ← resultType node with
  | .u64 => .ok (.store (.u64 immediate))
  | .objectId => .ok (.store (.objectId immediate))
  | .revisionId => .ok (.store (.revisionId immediate))
  | .taskId => .ok (.store (.taskId immediate))
  | .proposalId => .ok (.store (.proposalId immediate))
  | .errorCode =>
    if node.immediate < 2 ^ 16 then .ok (.store (.errorCode (UInt16.ofNat node.immediate)))
    else .error .invalidValue
  | _ => .error .unsupportedOpcode

/-- The two comparisons: `execute_eq` and `execute_less_than_u64` differ in the relation only. -/
def executeComparison (relation : UInt64 → UInt64 → Bool) : Except RuntimeError Action := do
  let type ← resultType node
  if type ≠ .bool then .error .unsupportedOpcode
  else do
    let lhs ← expectU64 values node.input0
    let rhs ← expectU64 values node.input1
    .ok (.store (.bool (relation lhs rhs)))

def executeEq : Except RuntimeError Action :=
  executeComparison values node fun lhs rhs ↦ lhs = rhs

def executeLessThanU64 : Except RuntimeError Action :=
  executeComparison values node fun lhs rhs ↦ lhs < rhs

def executeConstUtf8 : Except RuntimeError Action := do
  let _ ← stringAt g node.auxiliary0 node.auxiliary1
  .ok (.store (.slice node.auxiliary0 node.auxiliary1 true))

def executeConstBytes : Except RuntimeError Action := do
  let _ ← constantAt g node.auxiliary0 node.auxiliary1
  .ok (.store (.slice node.auxiliary0 node.auxiliary1 false))

def hostUtf8Value (producerNode : ℕ) (result : HostCallResult) : Except RuntimeError Value :=
  if result.bytesLen.toNat > maxHostResultBytes ∨ ¬ utf8Valid result.text then
    .error .invalidString
  else .ok (.hostUtf8 producerNode result.bytesLen)

def taskContextHostResultValue (producerNode field : ℕ) (result : HostCallResult) :
    Except RuntimeError Value :=
  if field = taskContextResultActiveTaskId then .ok (.taskId result.objectId)
  else if field = taskContextResultCandidateTaskId then .ok (.taskId result.revision)
  else if field = taskContextResultConfidenceScore then .ok (.u64 result.capability.raw)
  else if field = taskContextResultProposalKind then .ok (.u64 result.reserved0.toUInt64)
  else if field = taskContextResultReasonUtf8 then hostUtf8Value producerNode result
  else .error .invalidValue

def commandHostResultValue (producerNode field : ℕ) (result : HostCallResult) :
    Except RuntimeError Value :=
  if field = commandFieldKind then .ok (.u64 result.reserved0.toUInt64)
  else if field = commandFieldObjectId then .ok (.objectId result.objectId)
  else if field = commandFieldTaskId then .ok (.taskId result.revision)
  else if field = commandFieldProposalId then .ok (.proposalId result.capability.raw)
  else if field = commandFieldTextUtf8 then hostUtf8Value producerNode result
  else .error .invalidValue

/-- The fields of the result of an object operation. -/
def objectHostResultValue (producerNode field : ℕ) (result : HostCallResult) :
    Except RuntimeError Value :=
  if field = hostResultStatus then .ok (.errorCode result.status)
  else if field = hostResultObjectId then .ok (.objectId result.objectId)
  else if field = hostResultRevision then .ok (.revisionId result.revision)
  else if field = hostResultCapability then
    if result.capability.raw = 0 then .error .invalidValue
    else .ok (.capability result.capability)
  else if field = hostResultUtf8 then hostUtf8Value producerNode result
  else .error .invalidValue

def projectedValue (producerOpcode : Opcode) (producerNode field : ℕ) (result : HostCallResult) :
    Except RuntimeError Value :=
  match producerOpcode with
  | .taskContextRead => taskContextHostResultValue producerNode field result
  | .commandRead => commandHostResultValue producerNode field result
  | _ => objectHostResultValue producerNode field result

def executeHostResult : Except RuntimeError Action := do
  let producer ← okOrElse .invalidInput g.nodes[node.input0]?
  let producerOpcode ← okOrElse .unsupportedOpcode (Opcode.ofCode producer.opcode)
  let result ← okOrElse .invalidValue (hostResults[node.input0]?.join)
  let value ← projectedValue producerOpcode node.input0 node.auxiliary0 result
  .ok (.store value)

def executeSystemLog : Except RuntimeError Action := do
  let _ ← expectEffect values node.input0
  let capability ← expectCapability values node.input1
  let text ← expectUtf8Bytes g values hostResults node.input2
  .ok (.call (.systemLog capability text))

def executeObjectCreate : Except RuntimeError Action := do
  let _ ← expectEffect values node.input0
  let capability ← expectCapability values node.input1
  let kind ← expectUtf8Bytes g values hostResults node.input2
  .ok (.call (.objectCreate capability kind))

def executeObjectQuery : Except RuntimeError Action := do
  let _ ← expectEffect values node.input0
  let capability ← expectCapability values node.input1
  let kind ← expectUtf8Bytes g values hostResults node.input2
  .ok (.call (.objectQuery capability kind))

def executeObjectInspect : Except RuntimeError Action := do
  let _ ← expectEffect values node.input0
  let capability ← expectCapability values node.input1
  let objectId ← expectObjectId values node.input2
  .ok (.call (.objectInspect capability objectId))

def executeObjectRevise : Except RuntimeError Action := do
  let _ ← expectEffect values node.input0
  let capability ← expectCapability values node.input1
  let objectId ← expectObjectId values node.input2
  let text ← expectBytes g values node.input3
  .ok (.call (.objectRevise capability objectId text))

def executeObjectHistory : Except RuntimeError Action := do
  let _ ← expectEffect values node.input0
  let capability ← expectCapability values node.input1
  let objectId ← expectObjectId values node.input2
  .ok (.call (.objectHistory capability objectId))

def executeTaskContext : Except RuntimeError Action := do
  let _ ← expectEffect values node.input0
  let capability ← expectCapability values node.input1
  .ok (.call (.taskContext capability))

def executeTaskProposalEmit : Except RuntimeError Action := do
  let _ ← expectEffect values node.input0
  let capability ← expectCapability values node.input1
  let candidateTaskId ← expectTaskId values node.input2
  let score ← expectU64 values node.input3
  .ok (.call (.taskPropose capability candidateTaskId score))

def executeCommandRead : Except RuntimeError Action := do
  let _ ← expectEffect values node.input0
  let capability ← expectCapability values node.input1
  .ok (.call (.commandRead capability))

def executeCommandResultEmit : Except RuntimeError Action := do
  let _ ← expectEffect values node.input0
  let capability ← expectCapability values node.input1
  let status ← expectErrorCode values node.input2
  let text ← expectUtf8Bytes g values hostResults node.input3
  .ok (.call (.commandResultEmit capability status text))

/-- The match of `dispatch_node` on the opcode. -/
def prepare : Opcode → Except RuntimeError Action
  | .blockParam => executeBlockParam imports node
  | .effectStart => .ok (.store (.effect index))
  | .constBool => executeConstBool node
  | .constU64 => executeConstU64 node
  | .eq => executeEq values node
  | .lessThanU64 => executeLessThanU64 values node
  | .constBytes => executeConstBytes g node
  | .constUtf8 => executeConstUtf8 g node
  | .hostResult => executeHostResult g hostResults node
  | .systemLog => executeSystemLog g values hostResults node
  | .objectCreate => executeObjectCreate g values hostResults node
  | .objectQuery => executeObjectQuery g values hostResults node
  | .objectInspect => executeObjectInspect values node
  | .objectRevise => executeObjectRevise g values node
  | .objectHistory => executeObjectHistory values node
  | .taskContextRead => executeTaskContext values node
  | .taskProposalEmit => executeTaskProposalEmit values node
  | .commandRead => executeCommandRead values node
  | .commandResultEmit => executeCommandResultEmit g values hostResults node
  | .jump => .ok .proceed
  | .branch => .ok .proceed
  | .ret => .ok .proceed
  | _ => .error .unsupportedOpcode

end Handlers

/-! ### Actions -/

/-- `*slot = Some(value)` in the table of values. -/
def Machine.put (machine : Machine σ) (index : ℕ) (value : Value) : Machine σ :=
  { machine with values := machine.values.set index (some value) }

/-- `*slot = Some(result)` in the table of host results. -/
def Machine.keep (machine : Machine σ) (index : ℕ) (result : HostCallResult) : Machine σ :=
  { machine with hostResults := machine.hostResults.set index (some result) }

/-- The machine after the host answered a request of a node. -/
def Machine.answered (machine : Machine σ) (index : ℕ) (request : HostRequest)
    (answer : HostReply × σ) : Machine σ :=
  { machine with host := answer.2, trace := .called index request answer.1 :: machine.trace }

def storeValue (index : ℕ) (value : Value) (machine : Machine σ) :
    Except RuntimeError Unit × Machine σ :=
  if index < machine.values.length then (.ok (), machine.put index value)
  else (.error .invalidValue, machine)

/-- The end of a handler with a result: the reply is kept, and the node yields its effect token. -/
def storeHostResult (index : ℕ) (result : HostCallResult) (machine : Machine σ) :
    Except RuntimeError Unit × Machine σ :=
  if index < machine.hostResults.length then
    storeValue index (.effect index) (machine.keep index result)
  else (.error .invalidValue, machine)

/-- The end of a handler after the host replied. -/
def finishCall (index : ℕ) (request : HostRequest) (result : HostCallResult) (machine : Machine σ) :
    Except RuntimeError Unit × Machine σ :=
  match request.validator with
  | none => storeValue index (.effect index) machine
  | some validate =>
    match validate result with
    | .error error => (.error error, machine)
    | .ok () => storeHostResult index result machine

def callHost (host : Host σ) (index : ℕ) (request : HostRequest) (machine : Machine σ) :
    Except RuntimeError Unit × Machine σ :=
  match (host request machine.host).1 with
  | .error error =>
    (.error (.host error), machine.answered index request (host request machine.host))
  | .ok result =>
    finishCall index request result (machine.answered index request (host request machine.host))

def perform (host : Host σ) (index : ℕ) (machine : Machine σ) :
    Action → Except RuntimeError Unit × Machine σ
  | .store value => storeValue index value machine
  | .call request => callHost host index request machine
  | .proceed => (.ok (), machine)

/-! ### Dispatch -/

section Dispatch

variable (g : Graph) (imports : Vector PackedCapability maxPythGraphImports) (host : Host σ)

/-- The part of `dispatch_node` after the budget was charged. -/
def runNode (index : ℕ) (machine : Machine σ) : Except RuntimeError Unit × Machine σ :=
  match g.nodes[index]? with
  | none => (.error .invalidNode, machine)
  | some node =>
    match Opcode.ofCode node.opcode with
    | none => (.error .unsupportedOpcode, machine)
    | some opcode =>
      match prepare g imports machine.values machine.hostResults index node opcode with
      | .error error => (.error error, machine)
      | .ok action => perform host index machine action

def dispatchNode (index : ℕ) (machine : Machine σ) : Except RuntimeError Unit × Machine σ :=
  if machine.budget = 0 then
    (.error .budgetExhausted,
      { machine with lastNode := if index < 2 ^ 32 then index else noValue })
  else if ¬ machine.executedNodes + 1 < 2 ^ 64 then
    (.error .invalidValue, { machine with budget := machine.budget - 1 })
  else if ¬ index < 2 ^ 32 then
    (.error .invalidNode,
      { machine with budget := machine.budget - 1, executedNodes := machine.executedNodes + 1 })
  else runNode g imports host index (machine.charge index)

/-! ### Blocks -/

inductive BlockOutcome
  | ret
  | jump (target : ℕ)
  deriving DecidableEq, Repr

def jumpTo (target : ℕ) : Except RuntimeError (Option BlockOutcome) :=
  if target < g.blocks.length then .ok (some (.jump target)) else .error .invalidBlock

/-- What a node means for the control flow of its block. -/
def controlFlow (values : List (Option Value)) (node : NodeRecord) (opcode : Opcode) :
    Except RuntimeError (Option BlockOutcome) :=
  if opcode = .ret then .ok (some .ret)
  else if opcode = .jump then jumpTo g node.auxiliary0
  else if opcode = .branch then do
    let condition ← expectBool values node.input0
    jumpTo g (if condition then node.auxiliary0 else node.auxiliary1)
  else .ok none

/-- The control flow behind a dispatched node. -/
def outcome (values : List (Option Value)) (index : ℕ) :
    Except RuntimeError (Option BlockOutcome) := do
  let node ← okOrElse .invalidNode g.nodes[index]?
  let opcode ← okOrElse .unsupportedOpcode (Opcode.ofCode node.opcode)
  controlFlow g values node opcode

/-- One iteration of the loop over the nodes of a block. -/
def executeNode (index : ℕ) (machine : Machine σ) :
    Except RuntimeError (Option BlockOutcome) × Machine σ :=
  match dispatchNode g imports host index machine with
  | (.error error, machine) => (.error error, machine)
  | (.ok (), machine) => (outcome g machine.values index, machine)

/-- The loop over the last `remaining` nodes of a block. -/
def executeNodes : ℕ → ℕ → Machine σ → Except RuntimeError BlockOutcome × Machine σ
  | 0, _, machine => (.error .invalidBlock, machine)
  | remaining + 1, index, machine =>
    match executeNode g imports host index machine with
    | (.error error, machine) => (.error error, machine)
    | (.ok (some outcome), machine) => (.ok outcome, machine)
    | (.ok none, machine) => executeNodes remaining (index + 1) machine

def executeBlock (blockIndex : ℕ) (machine : Machine σ) :
    Except RuntimeError BlockOutcome × Machine σ :=
  match g.blocks[blockIndex]? with
  | none => (.error .invalidBlock, machine)
  | some block =>
    if block.firstNode + block.nodeCount < usizeSize then
      executeNodes g imports host block.nodeCount block.firstNode (machine.enter blockIndex)
    else (.error .invalidBlock, machine)

/-- `execute_inner` from a block, on fuel. -/
def executeBlocks : ℕ → ℕ → Machine σ → Option (Except RuntimeError Unit × Machine σ)
  | 0, _, _ => none
  | fuel + 1, blockIndex, machine =>
    match executeBlock g imports host blockIndex machine with
    | (.error error, machine) => some (.error error, machine)
    | (.ok .ret, machine) => some (.ok (), machine)
    | (.ok (.jump target), machine) => executeBlocks fuel target machine

/-- `execute_inner`: every block spends budget, so one more block than the budget is enough. -/
def executeInner (machine : Machine σ) : Option (Except RuntimeError Unit × Machine σ) :=
  executeBlocks g imports host (machine.budget + 1) g.entryBlock machine

end Dispatch

/-! ### The exit record -/

structure GraphExitRecord where
  status : ℕ
  errorCode : ℕ
  lastNode : ℕ
  executedNodes : ℕ
  resultType : ℕ
  reserved0 : ℕ
  reserved1 : ℕ
  resultRaw : ℕ
  deriving DecidableEq, Repr

def graphExitOk : ℕ := 0
def graphExitRuntimeError : ℕ := 1
def graphExitBudgetExhausted : ℕ := 2
def graphResultUnit : ℕ := 0

def Machine.exitRecord (machine : Machine σ) (status errorCode : ℕ) : GraphExitRecord where
  status := status
  errorCode := errorCode
  lastNode := machine.lastNode
  executedNodes := machine.executedNodes
  resultType := graphResultUnit
  reserved0 := 0
  reserved1 := 0
  resultRaw := 0

def exitOf : Except RuntimeError Unit → Machine σ → GraphExitRecord
  | .ok (), machine => machine.exitRecord graphExitOk 0
  | .error .budgetExhausted, machine =>
    machine.exitRecord graphExitBudgetExhausted RuntimeError.budgetExhausted.code
  | .error error, machine => machine.exitRecord graphExitRuntimeError error.code

/-- `Interpreter::execute` of a verified graph. -/
def execute (verified : VerifiedGraph) (imports : Vector PackedCapability maxPythGraphImports)
    (budget : UInt64) (host : Host σ) (state : σ) : Option GraphExitRecord :=
  (executeInner verified.package.graph imports host (Machine.init budget state)).map
    fun run ↦ exitOf run.1 run.2

end Pythos.Runtime
