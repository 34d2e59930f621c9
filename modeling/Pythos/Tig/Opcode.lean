import Mathlib.Data.List.Basic

/-!
# Types and opcodes of the typed instruction graph

The primitive types and the opcodes of PythTIG with their stable codes, and the signature of every
opcode: the types of its inputs, the type of its result, whether it threads the effect token, and the
resource kind and rights a host operation requires of its capability.
-/

namespace Pythos.Tig

/-! ### Primitive types -/

/-- The primitive types of a graph value. -/
inductive PythType
  | unit
  | bool
  | u64
  | i64
  | bytes
  | utf8
  | objectId
  | revisionId
  | taskId
  | proposalId
  | capability
  | effect
  | errorCode
  deriving DecidableEq, Repr

/-- The stable code of a type. -/
def PythType.code : PythType → ℕ
  | .unit => 0x0000
  | .bool => 0x0001
  | .u64 => 0x0002
  | .i64 => 0x0003
  | .bytes => 0x0004
  | .utf8 => 0x0005
  | .objectId => 0x0006
  | .revisionId => 0x0007
  | .taskId => 0x0008
  | .proposalId => 0x0009
  | .capability => 0x000A
  | .effect => 0x000B
  | .errorCode => 0x000C

/-- `PythType::try_from(value)`. -/
def PythType.ofCode : ℕ → Option PythType
  | 0x0000 => some .unit
  | 0x0001 => some .bool
  | 0x0002 => some .u64
  | 0x0003 => some .i64
  | 0x0004 => some .bytes
  | 0x0005 => some .utf8
  | 0x0006 => some .objectId
  | 0x0007 => some .revisionId
  | 0x0008 => some .taskId
  | 0x0009 => some .proposalId
  | 0x000A => some .capability
  | 0x000B => some .effect
  | 0x000C => some .errorCode
  | _ => none

@[simp] theorem PythType.ofCode_code (type : PythType) : PythType.ofCode type.code = some type := by
  cases type <;> rfl

/-! ### Resources and rights -/

def resourceSystemLog : ℕ := 1
def resourceObjectWorkspace : ℕ := 2
def resourceObject : ℕ := 3
def resourceTask : ℕ := 4
def resourceGraph : ℕ := 5
def resourceCommand : ℕ := 6

def rightsRead : ℕ := 0x0001
def rightsQuery : ℕ := 0x0002
def rightsRevise : ℕ := 0x0004
def rightsCreate : ℕ := 0x0008
def rightsAppend : ℕ := 0x0010
def rightsApprove : ℕ := 0x0020
def rightsControl : ℕ := 0x0040

def taskRightReadContext : ℕ := 0x0001
def taskRightCreateProposal : ℕ := 0x0008
def taskRightApproveProposal : ℕ := 0x0020
def taskRightControlState : ℕ := 0x0040

/-! ### Opcodes -/

/-- The opcodes of a graph node. -/
inductive Opcode
  | blockParam
  | constBool
  | constU64
  | constI64
  | constBytes
  | constUtf8
  | effectStart
  | hostResult
  | eq
  | lessThanU64
  | addU64
  | subU64
  | boolAnd
  | boolOr
  | boolNot
  | select
  | jump
  | branch
  | ret
  | systemLog
  | objectCreate
  | objectQuery
  | objectInspect
  | objectRevise
  | objectHistory
  | taskActiveRead
  | taskProposalEmit
  | taskProposalApprove
  | taskSuspend
  | taskRevive
  | taskContextRead
  | graphQueryRelated
  | relevanceAssertionEmit
  | capabilityRequestEmit
  | commandRead
  | commandResultEmit
  deriving DecidableEq, Repr

/-- The stable code of an opcode. -/
def Opcode.code : Opcode → ℕ
  | .blockParam => 0x0001
  | .constBool => 0x0002
  | .constU64 => 0x0003
  | .constI64 => 0x0004
  | .constBytes => 0x0005
  | .constUtf8 => 0x0006
  | .effectStart => 0x0007
  | .hostResult => 0x0008
  | .eq => 0x0100
  | .lessThanU64 => 0x0101
  | .addU64 => 0x0102
  | .subU64 => 0x0103
  | .boolAnd => 0x0104
  | .boolOr => 0x0105
  | .boolNot => 0x0106
  | .select => 0x0107
  | .jump => 0x0200
  | .branch => 0x0201
  | .ret => 0x0202
  | .systemLog => 0x1000
  | .objectCreate => 0x1100
  | .objectQuery => 0x1101
  | .objectInspect => 0x1102
  | .objectRevise => 0x1103
  | .objectHistory => 0x1104
  | .taskActiveRead => 0x1200
  | .taskProposalEmit => 0x1201
  | .taskProposalApprove => 0x1202
  | .taskSuspend => 0x1203
  | .taskRevive => 0x1204
  | .taskContextRead => 0x1205
  | .graphQueryRelated => 0x1300
  | .relevanceAssertionEmit => 0x1301
  | .capabilityRequestEmit => 0x1400
  | .commandRead => 0x1500
  | .commandResultEmit => 0x1501

/-- `Opcode::try_from(value)`. -/
def Opcode.ofCode : ℕ → Option Opcode
  | 0x0001 => some .blockParam
  | 0x0002 => some .constBool
  | 0x0003 => some .constU64
  | 0x0004 => some .constI64
  | 0x0005 => some .constBytes
  | 0x0006 => some .constUtf8
  | 0x0007 => some .effectStart
  | 0x0008 => some .hostResult
  | 0x0100 => some .eq
  | 0x0101 => some .lessThanU64
  | 0x0102 => some .addU64
  | 0x0103 => some .subU64
  | 0x0104 => some .boolAnd
  | 0x0105 => some .boolOr
  | 0x0106 => some .boolNot
  | 0x0107 => some .select
  | 0x0200 => some .jump
  | 0x0201 => some .branch
  | 0x0202 => some .ret
  | 0x1000 => some .systemLog
  | 0x1100 => some .objectCreate
  | 0x1101 => some .objectQuery
  | 0x1102 => some .objectInspect
  | 0x1103 => some .objectRevise
  | 0x1104 => some .objectHistory
  | 0x1200 => some .taskActiveRead
  | 0x1201 => some .taskProposalEmit
  | 0x1202 => some .taskProposalApprove
  | 0x1203 => some .taskSuspend
  | 0x1204 => some .taskRevive
  | 0x1205 => some .taskContextRead
  | 0x1300 => some .graphQueryRelated
  | 0x1301 => some .relevanceAssertionEmit
  | 0x1400 => some .capabilityRequestEmit
  | 0x1500 => some .commandRead
  | 0x1501 => some .commandResultEmit
  | _ => none

@[simp] theorem Opcode.ofCode_code (opcode : Opcode) : Opcode.ofCode opcode.code = some opcode := by
  cases opcode <;> rfl

/-! ### Signatures -/

/-- What a node with a given opcode consumes, produces and requires. -/
structure OpcodeSignature where
  inputs : List PythType
  inputCount : ℕ
  result : PythType
  effectful : Bool
  terminator : Bool
  requiredResourceKind : Option ℕ
  requiredRights : ℕ
  deriving DecidableEq, Repr

/-- The signature of a pure opcode. The input types are padded with `Unit` to four. -/
def sig (inputs : List PythType) (result : PythType) : OpcodeSignature where
  inputs := inputs ++ List.replicate (4 - inputs.length) .unit
  inputCount := inputs.length
  result := result
  effectful := false
  terminator := false
  requiredResourceKind := none
  requiredRights := 0

def terminatorWithInputs (inputs : List PythType) (result : PythType) : OpcodeSignature :=
  { sig inputs result with terminator := true }

def terminatorSig (result : PythType) : OpcodeSignature :=
  terminatorWithInputs [] result

/-- The signature of a host operation: it consumes and produces the effect token. -/
def hostSig (inputs : List PythType) (resourceKind rights : ℕ) : OpcodeSignature :=
  { sig inputs .effect with
    effectful := true
    requiredResourceKind := some resourceKind
    requiredRights := rights }

/-- The signature of an opcode. -/
def Opcode.signature : Opcode → OpcodeSignature
  | .blockParam => sig [] .unit
  | .constBool => sig [] .bool
  | .constU64 => sig [] .u64
  | .constI64 => sig [] .i64
  | .constBytes => sig [] .bytes
  | .constUtf8 => sig [] .utf8
  | .effectStart => sig [] .effect
  | .hostResult => sig [.effect] .unit
  | .eq => sig [.u64, .u64] .bool
  | .lessThanU64 => sig [.u64, .u64] .bool
  | .addU64 => sig [.u64, .u64] .u64
  | .subU64 => sig [.u64, .u64] .u64
  | .boolAnd => sig [.bool, .bool] .bool
  | .boolOr => sig [.bool, .bool] .bool
  | .boolNot => sig [.bool] .bool
  | .select => sig [.bool, .u64, .u64] .u64
  | .jump => terminatorSig .unit
  | .branch => terminatorWithInputs [.bool] .unit
  | .ret => terminatorSig .unit
  | .systemLog => hostSig [.effect, .capability, .utf8] resourceSystemLog rightsRead
  | .objectCreate => hostSig [.effect, .capability, .utf8] resourceObjectWorkspace rightsCreate
  | .objectQuery => hostSig [.effect, .capability, .utf8] resourceObjectWorkspace rightsQuery
  | .objectInspect => hostSig [.effect, .capability, .objectId] resourceObject rightsRead
  | .objectRevise => hostSig [.effect, .capability, .objectId, .bytes] resourceObject rightsRevise
  | .objectHistory => hostSig [.effect, .capability, .objectId] resourceObject rightsRead
  | .taskActiveRead => hostSig [.effect, .capability] resourceTask taskRightReadContext
  | .taskProposalEmit =>
    hostSig [.effect, .capability, .taskId, .u64] resourceTask taskRightCreateProposal
  | .taskProposalApprove =>
    hostSig [.effect, .capability, .proposalId] resourceTask taskRightApproveProposal
  | .taskSuspend => hostSig [.effect, .capability, .taskId] resourceTask taskRightControlState
  | .taskRevive => hostSig [.effect, .capability, .taskId] resourceTask taskRightControlState
  | .taskContextRead => hostSig [.effect, .capability] resourceTask taskRightReadContext
  | .graphQueryRelated => hostSig [.effect, .capability, .objectId] resourceGraph rightsQuery
  | .relevanceAssertionEmit =>
    hostSig [.effect, .capability, .objectId, .objectId] resourceGraph rightsAppend
  | .capabilityRequestEmit => hostSig [.effect, .capability, .utf8] resourceTask rightsAppend
  | .commandRead => hostSig [.effect, .capability] resourceCommand rightsRead
  | .commandResultEmit =>
    hostSig [.effect, .capability, .errorCode, .utf8] resourceCommand rightsAppend

/-- No opcode takes a `Unit` operand. -/
theorem Opcode.unit_not_mem_inputs (opcode : Opcode) {position : ℕ}
    (hposition : position < opcode.signature.inputCount) :
    opcode.signature.inputs[position]? ≠ some .unit := by
  have hfinite : ∀ position < opcode.signature.inputCount,
      opcode.signature.inputs[position]? ≠ some .unit := by
    cases opcode <;> decide
  exact hfinite position hposition

/-- The inputs of a host operation start with the effect token and the capability, and its result is
the effect token. -/
theorem Opcode.signature_of_effectful {opcode : Opcode} (h : opcode.signature.effectful = true) :
    opcode.signature.inputs[0]? = some .effect ∧ opcode.signature.inputs[1]? = some .capability ∧
      2 ≤ opcode.signature.inputCount ∧ opcode.signature.result = .effect ∧
        opcode.signature.requiredResourceKind.isSome := by
  revert h
  cases opcode <;> decide

theorem Opcode.inputCount_le (opcode : Opcode) : opcode.signature.inputCount ≤ 4 := by
  cases opcode <;> decide

theorem Opcode.length_inputs (opcode : Opcode) : opcode.signature.inputs.length = 4 := by
  cases opcode <;> rfl

end Pythos.Tig
