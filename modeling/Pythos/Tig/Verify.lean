import Pythos.Tig.ControlFlow

/-!
# The verifier of the typed instruction graph

`verifyBytes` decodes a package and runs the passes of the verifier over it. After the control-flow
passes come the per-opcode semantics with the effect chain and the capability origins, the referenced
ranges of the two byte pools, and the canonical encoding.
-/

namespace Pythos.Tig

open Foundation

/-! ### Fields of host results -/

def hostResultStatus : ℕ := 0
def hostResultObjectId : ℕ := 1
def hostResultRevision : ℕ := 2
def hostResultCapability : ℕ := 3
def hostResultUtf8 : ℕ := 4

def taskContextResultActiveTaskId : ℕ := 0
def taskContextResultCandidateTaskId : ℕ := 1
def taskContextResultConfidenceScore : ℕ := 2
def taskContextResultProposalKind : ℕ := 3
def taskContextResultReasonUtf8 : ℕ := 4

def commandFieldKind : ℕ := 0
def commandFieldObjectId : ℕ := 1
def commandFieldTaskId : ℕ := 2
def commandFieldProposalId : ℕ := 3
def commandFieldTextUtf8 : ℕ := 4

/-- Where a capability value of the graph comes from. -/
inductive CapabilityOrigin
  | none
  | import (slot : ℕ)
  | hostResult (resourceKind rights : ℕ)
  deriving DecidableEq, Repr

structure HostResultSchema where
  resultType : PythType
  capabilityOrigin : Option CapabilityOrigin
  deriving DecidableEq, Repr

/-- The operations whose results carry a status and an object id. -/
def isObjectOperation (opcode : Opcode) : Bool :=
  opcode = .objectCreate || opcode = .objectQuery || opcode = .objectInspect ||
    opcode = .objectRevise || opcode = .objectHistory

/-- The type of a field of the result of a host operation. -/
def hostResultFieldType (producer : Opcode) (field : ℕ) : Option PythType :=
  if isObjectOperation producer ∧ field = hostResultStatus then some .errorCode
  else if isObjectOperation producer ∧ field = hostResultObjectId then some .objectId
  else if (producer = .objectCreate ∨ producer = .objectInspect ∨ producer = .objectRevise ∨
      producer = .objectHistory) ∧ field = hostResultRevision then some .revisionId
  else if (producer = .objectCreate ∨ producer = .objectQuery) ∧ field = hostResultCapability then
    some .capability
  else if producer = .objectInspect ∧ field = hostResultUtf8 then some .utf8
  else if producer = .taskContextRead ∧ field = taskContextResultActiveTaskId then some .taskId
  else if producer = .taskContextRead ∧ field = taskContextResultCandidateTaskId then some .taskId
  else if producer = .taskContextRead ∧ field = taskContextResultConfidenceScore then some .u64
  else if producer = .taskContextRead ∧ field = taskContextResultProposalKind then some .u64
  else if producer = .taskContextRead ∧ field = taskContextResultReasonUtf8 then some .utf8
  else if producer = .commandRead ∧ field = commandFieldKind then some .u64
  else if producer = .commandRead ∧ field = commandFieldObjectId then some .objectId
  else if producer = .commandRead ∧ field = commandFieldTaskId then some .taskId
  else if producer = .commandRead ∧ field = commandFieldProposalId then some .proposalId
  else if producer = .commandRead ∧ field = commandFieldTextUtf8 then some .utf8
  else none

def hostResultFieldSchema (producer : Opcode) (field : ℕ) : Option HostResultSchema :=
  (hostResultFieldType producer field).map fun resultType ↦
    { resultType
      capabilityOrigin :=
        if resultType = .capability then some (.hostResult resourceObject (rightsRead ||| rightsRevise))
        else none }

/-! ### Operands and results of a node -/

def opcodeAcceptsResult (opcode : Opcode) (actual expected : PythType) : Bool :=
  actual = expected ||
    (opcode = .constU64 && (actual = .objectId || actual = .revisionId || actual = .taskId ||
      actual = .proposalId || actual = .errorCode)) ||
    opcode = .blockParam

/-- One operand that the signature of the opcode asks for. -/
def verifyOperand (nodes : Records NodeRecord) (signature : OpcodeSignature)
    (resultTypes : List PythType) (nodeIndex inputIndex input : ℕ) : Verify Unit := do
  let expected ← index signature.inputs inputIndex
  if input = noValue then
    if expected = .effect then fail (.effectInputMissing (asU32 nodeIndex))
    else fail (.valueNotAvailable (asU32 nodeIndex) inputIndex)
  else do
    reject (input ≥ nodes.len) (.valueNotAvailable (asU32 nodeIndex) inputIndex)
    let actual ← index resultTypes input
    reject (actual ≠ expected) (.typeMismatch (asU32 nodeIndex) inputIndex expected actual)

def verifyOpcodeSignature (nodes : Records NodeRecord) (nodeIndex : ℕ) (node : NodeRecord)
    (resultTypes : List PythType) : Verify Unit := do
  let opcode ← expect (Opcode.ofCode node.opcode)
  let signature := opcode.signature
  let actualResult ← index resultTypes nodeIndex
  reject (¬ opcodeAcceptsResult opcode actualResult signature.result)
    (.resultTypeForbidden (asU32 nodeIndex))
  forEach (node.inputs.take signature.inputCount) () fun _ inputIndex input ↦
    verifyOperand nodes signature resultTypes nodeIndex inputIndex input
  forEach (node.inputs.drop signature.inputCount) () fun _ offset input ↦
    reject (input ≠ noValue) (.valueNotAvailable (asU32 nodeIndex) (signature.inputCount + offset))

/-- `find_import(package, import_slot)`. -/
def findImport (imports : Records CapabilityImportRecord) (importSlot : ℕ) :
    Option CapabilityImportRecord :=
  imports.iter.find? fun record ↦ record.importSlot = importSlot

/-- An entry-block `BlockParam` of type `Capability` materializes the import whose slot stands in
`auxiliary0`. -/
def verifyImportBlockParam (package : PythGraphPackage) (nodeIndex : ℕ) (node : NodeRecord) :
    Verify ℕ := do
  reject (node.blockIndex ≠ package.header.entryBlock) (.capabilityOriginInvalid (asU32 nodeIndex))
  reject (¬ node.auxiliary0 < 2 ^ 16) (.capabilityImportMissing (asU32 nodeIndex) (2 ^ 16 - 1))
  let importSlot := node.auxiliary0
  let imports ← package.imports
  let record ← okOr (.capabilityImportMissing (asU32 nodeIndex) importSlot)
    (findImport imports importSlot)
  reject (record.expectedType ≠ PythType.capability.code) (.importTypeMismatch importSlot)
  pure importSlot

/-! ### Host results -/

/-- `while index < node_index`: every node between the producer and the projection projects the same
producer. -/
def projectionRunLoop (nodes : Records NodeRecord) (producer : ℕ) : ℕ → ℕ → Verify Bool
  | _, 0 => pure true
  | position, remaining + 1 =>
    match nodes.get position with
    | some projector =>
      if Opcode.ofCode projector.opcode ≠ some .hostResult ∨ projector.input0 ≠ producer then
        pure false
      else do
        let next ← addUsize position 1
        projectionRunLoop nodes producer next remaining
    | none => pure false

def hostResultIsInContiguousProjectionRun (nodes : Records NodeRecord)
    (producerIndex nodeIndex : ℕ) : Verify Bool :=
  if producerIndex ≥ nodeIndex then pure false
  else if ¬ producerIndex < 2 ^ 32 then pure false
  else do
    let first ← addUsize producerIndex 1
    projectionRunLoop nodes producerIndex first (nodeIndex - first)

def verifyHostResult (nodes : Records NodeRecord) (nodeIndex : ℕ) (node : NodeRecord)
    (actualResult : PythType) : Verify HostResultSchema := do
  let invalid := VerifyError.hostResultInvalid (asU32 nodeIndex)
  let contiguous ← hostResultIsInContiguousProjectionRun nodes node.input0 nodeIndex
  reject (¬ contiguous) invalid
  let producer ← okOr invalid (nodes.get node.input0)
  let producerOpcode ← okOr invalid (Opcode.ofCode producer.opcode)
  reject (¬ producerOpcode.signature.effectful ∨ node.input1 ≠ noValue ∨ node.input2 ≠ noValue ∨
    node.input3 ≠ noValue) invalid
  let schema ← okOr invalid (hostResultFieldSchema producerOpcode node.auxiliary0)
  reject (schema.resultType ≠ actualResult) invalid
  pure schema

/-! ### Capabilities -/

def verifyHostImport (package : PythGraphPackage) (nodeIndex : ℕ) (node : NodeRecord)
    (opcode : Opcode) (resultTypes : List PythType) (capabilityOrigins : List CapabilityOrigin) :
    Verify Unit :=
  match opcode.signature.requiredResourceKind with
  | none => pure ()
  | some requiredResourceKind => do
    let requiredRights := opcode.signature.requiredRights
    let actual ← index resultTypes node.input1
    reject (actual ≠ .capability) (.typeMismatch nodeIndex 1 .capability actual)
    let origin ← index capabilityOrigins node.input1
    match origin with
    | .import importSlot => do
      let imports ← package.imports
      let record ← okOr (.capabilityImportMissing nodeIndex importSlot)
        (findImport imports importSlot)
      reject (record.expectedType ≠ PythType.capability.code) (.importTypeMismatch importSlot)
      reject (record.resourceKind ≠ requiredResourceKind ∨
        record.rights &&& requiredRights ≠ requiredRights)
        (.importRightsInsufficient nodeIndex importSlot)
    | .hostResult resourceKind rights =>
      reject (resourceKind ≠ requiredResourceKind ∨ rights &&& requiredRights ≠ requiredRights)
        (.capabilityOriginInvalid node.input1)
    | .none => fail (.capabilityOriginInvalid node.input1)

def verifyCapabilityInputs (node : NodeRecord) (resultTypes : List PythType)
    (capabilityOrigins : List CapabilityOrigin) : Verify Unit :=
  forEach node.inputs () fun _ _ input ↦
    if input = noValue then pure ()
    else do
      let type ← index resultTypes input
      if type = .capability then do
        let origin ← index capabilityOrigins input
        reject (origin = .none) (.capabilityOriginInvalid input)
      else pure ()

/-! ### Semantics -/

/-- The tables and cursors of the semantics pass. -/
structure SemanticsState where
  resultTypes : List PythType
  capabilityOrigins : List CapabilityOrigin
  effectConsumers : List ℕ
  effectStart : Option ℕ
  currentEffect : ℕ
  deriving DecidableEq, Repr

def SemanticsState.init : SemanticsState where
  resultTypes := List.replicate maxGraphNodes .unit
  capabilityOrigins := List.replicate maxGraphNodes .none
  effectConsumers := List.replicate maxGraphNodes 0
  effectStart := none
  currentEffect := noValue

/-- The match on the opcode of a node: its signature or projection is checked, and a capability it
introduces gets its origin. -/
def verifyNodeShape (package : PythGraphPackage) (nodes : Records NodeRecord)
    (resultTypes : List PythType) (capabilityOrigins : List CapabilityOrigin) (nodeIndex : ℕ)
    (node : NodeRecord) (actualResult : PythType) : Opcode → Verify (List CapabilityOrigin)
  | .blockParam => do
    verifyOpcodeSignature nodes nodeIndex node resultTypes
    if actualResult = .capability then do
      let importSlot ← verifyImportBlockParam package nodeIndex node
      setIndex capabilityOrigins nodeIndex (.import importSlot)
    else pure capabilityOrigins
  | .hostResult => do
    let schema ← verifyHostResult nodes nodeIndex node actualResult
    if actualResult = .capability then do
      let origin ← okOr (.hostResultInvalid (asU32 nodeIndex)) schema.capabilityOrigin
      setIndex capabilityOrigins nodeIndex origin
    else pure capabilityOrigins
  | .jump => pure capabilityOrigins
  | _ => do
    verifyOpcodeSignature nodes nodeIndex node resultTypes
    pure capabilityOrigins

/-- An effectful node consumes the token of the last effect node, which no other node consumes, and
its capability satisfies the requirement of the opcode. -/
def verifyEffectLink (package : PythGraphPackage) (state : SemanticsState) (nodeIndex : ℕ)
    (node : NodeRecord) (opcode : Opcode) : Verify SemanticsState := do
  let producer := node.input0
  reject (producer = noValue) (.effectInputMissing (asU32 nodeIndex))
  let consumers ← index state.effectConsumers producer
  let consumers := min (consumers + 1) 255
  let effectConsumers ← setIndex state.effectConsumers producer consumers
  reject (consumers > 1) (.effectFork producer)
  reject (producer ≠ state.currentEffect) (.effectChainDisconnected (asU32 nodeIndex))
  verifyHostImport package (asU32 nodeIndex) node opcode state.resultTypes state.capabilityOrigins
  pure { state with effectConsumers, currentEffect := asU32 nodeIndex }

/-- The effect part of one node. -/
def verifyNodeEffect (package : PythGraphPackage) (state : SemanticsState) (nodeIndex : ℕ)
    (node : NodeRecord) (actualResult : PythType) (opcode : Opcode) : Verify SemanticsState :=
  if opcode = .effectStart then do
    let provided ← countValues node.inputs
    reject (state.effectStart.isSome ∨ actualResult ≠ .effect ∨ provided ≠ 0)
      (.effectChainDisconnected (asU32 nodeIndex))
    pure { state with effectStart := some (asU32 nodeIndex), currentEffect := asU32 nodeIndex }
  else if opcode.signature.effectful then verifyEffectLink package state nodeIndex node opcode
  else pure state

def verifyNodeSemantics (package : PythGraphPackage) (nodes : Records NodeRecord)
    (state : SemanticsState) (nodeIndex : ℕ) (node : NodeRecord) : Verify SemanticsState := do
  let opcode ← expect (Opcode.ofCode node.opcode)
  let actualResult ← expect (PythType.ofCode node.resultType)
  let resultTypes ← setIndex state.resultTypes nodeIndex actualResult
  reject (actualResult = .capability ∧ ¬ (opcode = .blockParam ∨ opcode = .hostResult))
    (.capabilityOriginInvalid (asU32 nodeIndex))
  let capabilityOrigins ← verifyNodeShape package nodes resultTypes state.capabilityOrigins nodeIndex
    node actualResult opcode
  let state ← verifyNodeEffect package { state with resultTypes, capabilityOrigins } nodeIndex node
    actualResult opcode
  verifyCapabilityInputs node state.resultTypes state.capabilityOrigins
  pure state

def verifySemantics (package : PythGraphPackage) : Verify Unit := do
  let nodes ← package.nodes
  let _ ← forEach nodes.iter SemanticsState.init (verifyNodeSemantics package nodes)
  pure ()

/-! ### Referenced ranges and canonical encoding -/

/-- `referenced_bytes(bytes, offset, len)`. The sum of the two `u32` words is checked at 32 bits. -/
def referencedBytes (bytes : Bytes) (offset len : ℕ) : Option Bytes :=
  if offset + len < 2 ^ 32 then slice? bytes offset (offset + len) else none

def verifyNodeRange (constantPool stringTable : Bytes) (node : NodeRecord) : Opcode → Verify Unit
  | .constBytes => do
    let _ ← okOr .nonCanonicalEncoding
      (referencedBytes constantPool node.auxiliary0 node.auxiliary1)
    pure ()
  | .constUtf8 => do
    let text ← okOr .nonCanonicalEncoding
      (referencedBytes stringTable node.auxiliary0 node.auxiliary1)
    reject (¬ utf8Valid text) .nonCanonicalEncoding
  | _ => pure ()

def verifyReferencedRanges (package : PythGraphPackage) : Verify Unit := do
  let imports ← package.imports
  let stringTable ← package.stringTable
  forEach imports.iter () fun _ _ record ↦ do
    let name ← okOr .nonCanonicalEncoding
      (referencedBytes stringTable record.nameOffset record.nameLen)
    reject (¬ utf8Valid name) .nonCanonicalEncoding
  let nodes ← package.nodes
  let constantPool ← package.constantPool
  forEach nodes.iter () fun _ _ node ↦ do
    let opcode ← expect (Opcode.ofCode node.opcode)
    verifyNodeRange constantPool stringTable node opcode

/-- The fields that an opcode does not use are zero. -/
def nodeFieldsAreCanonical (opcode : Opcode) (node : NodeRecord) : Bool :=
  let noAuxiliary := decide (node.auxiliary0 = 0) && decide (node.auxiliary1 = 0)
  let noImmediate := decide (node.immediate = 0)
  match opcode with
  | .blockParam =>
    decide (node.auxiliary1 = 0) && noImmediate &&
      (decide (node.resultType = PythType.capability.code) || decide (node.auxiliary0 = 0))
  | .constBool => noAuxiliary && (decide (node.immediate = 0) || decide (node.immediate = 1))
  | .constU64 | .constI64 => noAuxiliary
  | .constBytes | .constUtf8 => noImmediate
  | .effectStart => noAuxiliary && noImmediate
  | .hostResult => decide (node.auxiliary1 = 0) && noImmediate
  | .jump => decide (node.auxiliary1 = 0) && noImmediate
  | .branch => noImmediate
  | .ret => noAuxiliary && noImmediate
  | _ => noAuxiliary && noImmediate

def verifyCanonicalEncoding (package : PythGraphPackage) : Verify Unit := do
  let types ← package.types
  forEach types.iter () fun _ _ type ↦
    reject (type.flags ≠ 0 ∨ type.auxiliary ≠ 0) .nonCanonicalEncoding
  let blocks ← package.blocks
  let _ ← forEach blocks.iter 0 fun expectedFirstNode _ block ↦ do
    reject (block.flags ≠ 0 ∨ block.firstNode ≠ expectedFirstNode ∨ block.parameterCount > 4)
      .nonCanonicalEncoding
    reject (¬ expectedFirstNode + block.nodeCount < 2 ^ 32) .nonCanonicalEncoding
    pure (expectedFirstNode + block.nodeCount)
  let nodes ← package.nodes
  forEach nodes.iter () fun _ _ node ↦ do
    let opcode ← expect (Opcode.ofCode node.opcode)
    reject (node.flags ≠ 0 ∨ ¬ nodeFieldsAreCanonical opcode node) .nonCanonicalEncoding
  let imports ← package.imports
  forEach imports.iter () fun _ importIndex record ↦
    reject (record.importSlot ≠ importIndex ∨ PythType.ofCode record.expectedType = none ∨
      ¬ (1 ≤ record.resourceKind ∧ record.resourceKind ≤ 6) ∨ ¬ record.rights < 0x80)
      .nonCanonicalEncoding

/-! ### The verifier -/

def verifyPackage (package : PythGraphPackage) : Verify VerifiedGraph := do
  let blocks ← package.blocks
  let nodes ← package.nodes
  reject (blocks.len > maxBlocks ∨ nodes.len > maxGraphNodes) .resourceBudgetExceeded
  verifyKnownTypes package
  verifyKnownOpcodes package
  let tables ← verifyBlockRanges package
  verifyControlFlow package tables
  verifyReachableBlocks package
  verifyValueAvailability package tables.nodeBlocks
  verifySemantics package
  verifyReferencedRanges package
  verifyCanonicalEncoding package
  pure { package }

/-- `.map_err(VerifyError::Decode)`. -/
def mapDecodeError {α : Type} : Decode α → Verify α
  | .ok value => .ok value
  | .error (.returned error) => .error (.returned (.decode error))
  | .error .panicked => .error .panicked
  | .error .diverged => .error .diverged

def verifyBytes (bytes : Bytes) : Verify VerifiedGraph := do
  let package ← mapDecodeError (PythGraphPackage.decode bytes)
  verifyPackage package

end Pythos.Tig
