import Pythos.Tig.Dominators

/-!
# Where the verifier refuses authority

Three errors of the verifier say that a capability does not have the authority that a node needs. They come
from the semantics pass alone: every other pass returns other errors (`grants_verifyPackage`).
-/

namespace Pythos.Tig

open Foundation

/-- The error is not about the origin, the type or the rights of a capability. -/
def VerifyError.NotAuthority : VerifyError → Prop
  | .capabilityOriginInvalid _ | .importTypeMismatch _ | .importRightsInsufficient _ _ => False
  | _ => True

attribute [simp] VerifyError.NotAuthority

/-- A computation of the verifier that never refuses authority. -/
abbrev Grants {α : Type} (x : Verify α) : Prop := Only VerifyError.NotAuthority x

/-! ### Sections -/

section Sections

variable {package : PythGraphPackage}

@[simp] theorem only_expectOk {ε ε' α : Type} {allowed : ε → Prop} (x : Checked ε' α) :
    Only allowed (PythGraphPackage.expectOk x : Checked ε α) := by
  cases x with
  | ok value => trivial
  | error fault => cases fault <;> trivial

@[simp] theorem only_recordSection {ε : Type} {allowed : ε → Prop} (offset count recordSize : ℕ) :
    Only allowed (package.recordSection offset count recordSize : Checked ε Bytes) := by
  simp [PythGraphPackage.recordSection]

@[simp] theorem grants_types : Grants package.types := by simp [PythGraphPackage.types]

@[simp] theorem grants_blocks : Grants package.blocks := by simp [PythGraphPackage.blocks]

@[simp] theorem grants_nodes : Grants package.nodes := by simp [PythGraphPackage.nodes]

@[simp] theorem grants_imports : Grants package.imports := by simp [PythGraphPackage.imports]

@[simp] theorem grants_byteSection (offset len : ℕ) : Grants (package.byteSection offset len) := by
  simp [PythGraphPackage.byteSection]

end Sections

section Passes

variable {package : PythGraphPackage} {nodes : Records NodeRecord} {blocks : Records BlockRecord}

@[simp] theorem grants_countValues (inputs : List ℕ) : Grants (countValues inputs) := by
  simp [countValues]

@[simp] theorem grants_verifyKnownTypes : Grants (verifyKnownTypes package) := by
  simp [verifyKnownTypes]

@[simp] theorem grants_verifyKnownOpcodes : Grants (verifyKnownOpcodes package) := by
  simp [verifyKnownOpcodes]

/-! ### Blocks -/

@[simp] theorem grants_claimNode (block : BlockRecord) (blockIndex stop : ℕ) (state : List ℕ × ℕ) (nodeIndex : ℕ) :
    Grants (claimNode nodes block blockIndex stop state nodeIndex) := by
  simp [claimNode]

@[simp] theorem grants_verifyBlockRange (tables : BlockTables) (blockIndex : ℕ) (block : BlockRecord) :
    Grants (verifyBlockRange nodes tables blockIndex block) := by
  simp [verifyBlockRange, checkedAdd]

@[simp] theorem grants_verifyBlockRanges : Grants (verifyBlockRanges package) := by
  simp [verifyBlockRanges]

/-! ### Control flow -/

@[simp] theorem grants_validateJumpArity (terminatorIndex : ℕ) (terminator : NodeRecord) (source target : ℕ) :
    Grants (validateJumpArity nodes blocks terminatorIndex terminator source target) := by
  simp [validateJumpArity, validateJumpArgument, checkedAdd]

@[simp] theorem grants_verifyTerminator (block : BlockRecord) (terminatorIndex : ℕ) (terminator : NodeRecord)
    (opcode : Opcode) : Grants (verifyTerminator nodes blocks block terminatorIndex terminator opcode) := by
  unfold verifyTerminator
  split <;> simp [validateTarget, validateBranchArity]

@[simp] theorem grants_verifyControlFlow (tables : BlockTables) : Grants (verifyControlFlow package tables) := by
  simp [verifyControlFlow, verifyBlockControlFlow]

@[simp] theorem grants_terminatorOf (block : BlockRecord) : Grants (terminatorOf nodes block) := by
  simp [terminatorOf]

@[simp] theorem grants_pendingTargets (pending : BitVec 128) (terminator : NodeRecord) (opcode : Opcode) :
    Grants (pendingTargets pending terminator opcode) := by
  unfold pendingTargets
  split <;> simp

@[simp] theorem grants_reachableLoop (fuel : ℕ) (reachable pending : BitVec 128) :
    Grants (reachableLoop nodes blocks fuel reachable pending) := by
  induction fuel generalizing reachable pending with
  | zero => trivial
  | succ fuel ih => simp [reachableLoop, ih]

@[simp] theorem grants_verifyReachableBlocks : Grants (verifyReachableBlocks package) := by
  simp [verifyReachableBlocks]

@[simp] theorem grants_blockPredecessors (predecessors : List (BitVec 128)) (blockIndex : ℕ) :
    Grants (blockPredecessors nodes blocks predecessors blockIndex) := by
  simp only [blockPredecessors, answers_bind, answers_expect]
  refine fun _ _ ↦ (grants_terminatorOf _).mono fun terminator _ ↦ ?_
  split <;> simp

@[simp] theorem grants_computeDominators : Grants (computeDominators package) := by
  simp [computeDominators, allBlocksMask, initialDominators, initialDominator]

@[simp] theorem grants_verifyValueAvailability (nodeBlocks : List ℕ) :
    Grants (verifyValueAvailability package nodeBlocks) := by
  simp [verifyValueAvailability, verifyInputAvailability]

/-! ### Ranges and encoding -/

@[simp] theorem grants_verifyNodeRange (constantPool stringTable : Bytes) (node : NodeRecord) (opcode : Opcode) :
    Grants (verifyNodeRange constantPool stringTable node opcode) := by
  unfold verifyNodeRange
  split <;> simp

@[simp] theorem grants_verifyReferencedRanges : Grants (verifyReferencedRanges package) := by
  simp [verifyReferencedRanges, PythGraphPackage.stringTable, PythGraphPackage.constantPool]

@[simp] theorem grants_verifyCanonicalEncoding : Grants (verifyCanonicalEncoding package) := by
  simp [verifyCanonicalEncoding]

/-- A package whose semantics pass refuses no authority is not refused for want of authority. -/
theorem grants_verifyPackage (h : Grants (verifySemantics package)) : Grants (verifyPackage package) := by
  simp [verifyPackage, h]

/-! ### Parts of the semantics pass -/

@[simp] theorem grants_verifyOpcodeSignature (nodeIndex : ℕ) (node : NodeRecord) (resultTypes : List PythType) :
    Grants (verifyOpcodeSignature nodes nodeIndex node resultTypes) := by
  simp [verifyOpcodeSignature, verifyOperand]

@[simp] theorem grants_projectionRunLoop (producer position remaining : ℕ) :
    Grants (projectionRunLoop nodes producer position remaining) := by
  induction remaining generalizing position with
  | zero => trivial
  | succ remaining ih =>
    rw [projectionRunLoop]
    split <;> simp [ih]

/-- The schema of a projected capability has the origin of a created or queried object. -/
theorem answers_verifyHostResult (nodeIndex : ℕ) (node : NodeRecord) (type : PythType) :
    Answers VerifyError.NotAuthority (verifyHostResult nodes nodeIndex node type) fun schema ↦
      type = .capability → schema.capabilityOrigin =
        some (.hostResult resourceObject (rightsRead ||| rightsRevise)) := by
  have hrun : ∀ producer, Grants (hostResultIsInContiguousProjectionRun nodes producer nodeIndex) := by
    simp [hostResultIsInContiguousProjectionRun]
  refine (hrun _).bind fun _ _ ↦ ?_
  simp only [answers_bind, answers_reject, answers_okOr, answers_pure, VerifyError.NotAuthority, implies_true,
    true_and, not_not]
  intro _ _ _ opcode _ _ schema hschema htype hcapability
  obtain ⟨type', -, rfl⟩ := Option.map_eq_some_iff.mp hschema
  exact if_pos (htype.trans hcapability)

end Passes

end Pythos.Tig
