import Pythos.Runtime.Progress
import Pythos.Runtime.TextCoherence

/-!
# Type safety of runs

A step of a run of an accepted graph that reads no `Jump` fails in the ways of `StepFails` only. The run
is then type safe: it never ends with an invalid block, node or input, every invalid value or string has
one of the four causes, and every operand that an executed node reads has a value of the type of its
producer. A `Jump` that is read breaks this, and nothing else does (`execute_typeSafe_iff`).
-/

namespace Pythos.Runtime

open Foundation Shared Tig

variable {σ : Type} {g : Graph} {imports : Vector PackedCapability maxPythGraphImports}
  {host : Host σ}

/-! ### Failing steps -/

/-- The ways a step may fail. -/
inductive StepFails (g : Graph) (imports : Vector PackedCapability maxPythGraphImports)
    (host : Host σ) (config : Config σ) : RuntimeError → Prop
  | exhausted : StepFails g imports host config .budgetExhausted
  | handler {error : RuntimeError} (hfails : HandlerFails g imports host config error) :
      StepFails g imports host config error
  | refused (error : HostError) : StepFails g imports host config (.host error)

section Steps

variable (haccepted : Accepted g) {config : Config σ} (hposition : Positioned g config)
  (hsound : Sound g config)

include haccepted hposition hsound

variable {error : RuntimeError}

theorem prepare_error (hjump : ReadsNoJump g config) {node : NodeRecord} {opcode : Opcode}
    (hnode : g.NodeAt config.next node opcode)
    (h : prepare g imports config.machine.values config.machine.hostResults config.next node
      opcode = .error error) : HandlerFails g imports host config error := by
  have hoperation : readsOperands opcode = true → opcode.signature.effectful = true → False := by
    intro hreads heffectful
    obtain ⟨action, haction⟩ := prepare_operation haccepted hposition hsound hjump hnode hreads
      heffectful
    cases haction.symm.trans h
  cases opcode with
  | blockParam => exact executeBlockParam_error haccepted hnode h
  | constBool =>
    obtain ⟨action, haction⟩ := executeConstBool_ok haccepted hnode
    cases haction.symm.trans h
  | constU64 => exact executeConstU64_error haccepted hnode h
  | eq =>
    obtain ⟨action, haction⟩ := prepare_comparison haccepted hposition hsound hjump hnode rfl _
      (Or.inl rfl)
    cases haction.symm.trans h
  | lessThanU64 =>
    obtain ⟨action, haction⟩ := prepare_comparison haccepted hposition hsound hjump hnode rfl _
      (Or.inr rfl)
    cases haction.symm.trans h
  | constBytes =>
    obtain ⟨bytes, hbytes⟩ := constantAt_of_constBytes haccepted hnode
    simp only [prepare, executeConstBytes, hbytes] at h
    cases h
  | constUtf8 =>
    obtain ⟨text, htext⟩ := stringAt_of_constUtf8 haccepted hnode
    simp only [prepare, executeConstUtf8, htext] at h
    cases h
  | hostResult => exact executeHostResult_error haccepted hposition hsound hnode h
  | effectStart | jump | branch | ret => cases h
  | systemLog | objectCreate | objectQuery | objectInspect | objectRevise | objectHistory
  | taskContextRead | taskProposalEmit | commandRead | commandResultEmit =>
    exact (hoperation rfl rfl).elim
  | _ => exact Or.inl (Except.error.inj h).symm

theorem runNode_error (hjump : ReadsNoJump g config) {final : Machine σ}
    (h : runNode g imports host config.next (config.machine.charge config.next) =
      (.error error, final)) : StepFails g imports host config error := by
  obtain ⟨node, opcode, hnode, -⟩ := hposition.nodeAt haccepted
  have hlt : config.next < maxGraphNodes := haccepted.index_lt hnode
  unfold runNode at h
  simp only [hnode.1, hnode.2] at h
  cases hprepare : prepare g imports config.machine.values config.machine.hostResults config.next
      node opcode with
  | error error' =>
    have hcharged : prepare g imports (config.machine.charge config.next).values
        (config.machine.charge config.next).hostResults config.next node opcode = .error error' :=
      hprepare
    simp only [hcharged, Prod.mk.injEq, Except.error.injEq] at h
    exact .handler (h.1 ▸ prepare_error haccepted hposition hsound hjump hnode hprepare)
  | ok action =>
    have hcharged : prepare g imports (config.machine.charge config.next).values
        (config.machine.charge config.next).hostResults config.next node opcode = .ok action :=
      hprepare
    simp only [hcharged] at h
    have hfails := performFails_of_error (hsound.values_length.symm ▸ hlt)
      (hsound.results_length.symm ▸ hlt) h
    cases hfails with
    | refused hreply => exact .refused _
    | invalid hreply hvalidator hvalid =>
      exact .handler (Or.inr (Or.inr (.reply hnode hprepare hreply hvalidator hvalid)))

/-- After a node was dispatched, its control flow does not fail. -/
theorem outcome_ok (hjump : ReadsNoJump g config) {action : Action} {machine' : Machine σ}
    {node : NodeRecord} {opcode : Opcode} (hnode : g.NodeAt config.next node opcode)
    (hprepared : prepare g imports config.machine.values config.machine.hostResults config.next node
      opcode = .ok action)
    (hperforms : Performs host config.next (config.machine.charge config.next) action machine') :
    ∃ result, outcome g machine'.values config.next = .ok result := by
  have hfits : isTerminator opcode = true → ∀ target ∈ Graph.successors node opcode,
      target < g.blocks.length := fun hends target htarget ↦
    haccepted.linked.target_lt (hposition.edge haccepted hnode hends htarget)
  rw [outcome_of_nodeAt hnode, controlFlow]
  by_cases hret : opcode = .ret
  · exact ⟨_, if_pos hret⟩
  rw [if_neg hret]
  by_cases hisJump : opcode = .jump
  · subst hisJump
    exact ⟨_, (if_pos rfl).trans (if_pos (hfits rfl _ (List.mem_singleton_self _)))⟩
  rw [if_neg hisJump]
  by_cases hbranch : opcode = .branch
  · subst hbranch
    -- a `Branch` stores nothing, so it reads its condition in the values it was dispatched with
    obtain rfl : Action.proceed = action := Except.ok.inj hprepared
    cases hperforms
    have hinput : (node.inputs.take (Opcode.branch).signature.inputCount)[0]? = some node.input0 :=
      rfl
    obtain ⟨condition, hcondition⟩ : Readable g config.machine node.input0 .bool :=
      readable_operand haccepted hposition hsound hjump hnode rfl _ _ _ hinput rfl
    have hcharged : expectBool (config.machine.charge config.next).values node.input0 =
      .ok condition := hcondition
    rw [if_pos rfl, hcharged]
    refine ⟨_, if_pos (hfits rfl _ ?_)⟩
    cases condition <;> simp [Graph.successors]
  · exact ⟨_, if_neg hbranch⟩

/-- A step that fails without having read a `Jump` fails in one of the expected ways. -/
theorem executeNode_error (hjump : config.machine.budget ≠ 0 → ReadsNoJump g config)
    {final : Machine σ}
    (h : executeNode g imports host config.next config.machine = (.error error, final)) :
    StepFails g imports host config error := by
  by_cases hbudget : config.machine.budget = 0
  · rw [executeNode, dispatchNode, if_pos hbudget] at h
    simp only [Prod.mk.injEq, Except.error.injEq] at h
    rw [← h.1]
    exact .exhausted
  have hnojump := hjump hbudget
  obtain ⟨node, opcode, hnode, -⟩ := hposition.nodeAt haccepted
  have hindex : config.next < 2 ^ 32 := by
    have hlt := (List.getElem?_eq_some_iff.mp hnode.1).1
    have hnodes := haccepted.length_nodes_le
    unfold maxGraphNodes at hnodes
    omega
  have hexecuted : config.machine.executedNodes + 1 < 2 ^ 64 := by
    have hcounted := hsound.counted
    omega
  rw [executeNode, dispatchNode_eq_runNode hbudget hexecuted hindex] at h
  cases hrun : runNode g imports host config.next (config.machine.charge config.next) with
  | mk result machine' =>
    rw [hrun] at h
    cases result with
    | error error' =>
      simp only [Prod.mk.injEq, Except.error.injEq] at h
      exact h.1 ▸ runNode_error haccepted hposition hsound hnojump hrun
    | ok _ =>
      obtain ⟨node', opcode', action, hnode', hprepared, hperforms⟩ := runNode_of_ok hrun
      obtain ⟨result, hresult⟩ := outcome_ok haccepted hposition hsound hnojump hnode' hprepared
        hperforms
      simp [hresult] at h

end Steps

/-! ### Type safe runs -/

/-- A run of a verified graph is type safe: it ends, never because of an invalid block, node or input,
and with an invalid value or string only for one of the causes at the node that failed; and every operand
that an executed node reads has a value of the type of its producer. -/
structure TypeSafe (verified : VerifiedGraph)
    (imports : Vector PackedCapability maxPythGraphImports) (budget : UInt64) (host : Host σ)
    (state : σ) : Prop where
  ends : ∃ result final,
    executeInner verified.package.graph imports host (Machine.init budget state) =
        some (result, final) ∧
      execute verified imports budget host state = some (exitOf result final) ∧
      result ≠ .error .invalidBlock ∧ result ≠ .error .invalidNode ∧
      result ≠ .error .invalidInput ∧
      ∀ error, error = .invalidValue ∨ error = .invalidString → result = .error error →
        ∃ config, Reaches verified.package.graph imports host (Machine.init budget state) config ∧
          executeNode verified.package.graph imports host config.next config.machine =
              (.error error, final) ∧
            InvalidCause verified.package.graph imports host config error
  operands : ∀ config,
    Reaches verified.package.graph imports host (Machine.init budget state) config →
      config.machine.budget ≠ 0 → ∀ node opcode,
        verified.package.graph.NodeAt config.next node opcode →
          ∀ input ∈ operandsRead opcode node, ∃ value,
            config.machine.values[input]?.join = some value ∧
              verified.package.graph.TypeAt input value.type

/-- An operand that is read is a position of the signature of a reading opcode. -/
theorem readsOperands_of_mem {opcode : Opcode} {node : NodeRecord} {input : ℕ}
    (h : input ∈ operandsRead opcode node) : readsOperands opcode = true ∧
      ∃ position : ℕ, (node.inputs.take opcode.signature.inputCount)[position]? = some input := by
  unfold operandsRead at h
  split_ifs at h with hreads
  · exact ⟨hreads, List.mem_iff_getElem?.mp h⟩
  · simp at h

variable {error : RuntimeError}

/-- A validation reports an invalid value or an invalid string. -/
theorem validator_error {request : HostRequest} {result : HostCallResult}
    {validate : HostCallResult → Except RuntimeError Unit}
    (hvalidator : request.validator = some validate) (h : validate result = .error error) :
    error = .invalidValue ∨ error = .invalidString := by
  have hcases : validate = validateHostCallResult ∨ validate = validateTaskContextResult ∨
      validate = validateCommandReadResult := by
    cases request <;> simp_all [HostRequest.validator]
  rcases hcases with rfl | rfl | rfl
  · unfold validateHostCallResult at h
    split_ifs at h
    exact Or.inl (Except.error.inj h).symm
  · unfold validateTaskContextResult at h
    split_ifs at h
    · exact Or.inl (Except.error.inj h).symm
    · exact Or.inr (Except.error.inj h).symm
  · unfold validateCommandReadResult at h
    split_ifs at h
    · exact Or.inl (Except.error.inj h).symm
    · exact Or.inr (Except.error.inj h).symm
    · exact Or.inl (Except.error.inj h).symm

theorem InvalidCause.error_eq {config : Config σ} (h : InvalidCause g imports host config error) :
    error = .invalidValue ∨ error = .invalidString := by
  cases h with
  | errorCode => exact Or.inl rfl
  | reply _ _ _ hvalidator hinvalid => exact validator_error hvalidator hinvalid
  | capability => exact Or.inl rfl
  | text => exact Or.inr rfl

/-- A failing step has an invalid value or string only for one of the causes. -/
theorem StepFails.cause {config : Config σ} (h : StepFails g imports host config error) :
    error ≠ .invalidBlock ∧ error ≠ .invalidNode ∧ error ≠ .invalidInput ∧
      (error = .invalidValue ∨ error = .invalidString →
        InvalidCause g imports host config error) := by
  cases h with
  | exhausted => simp
  | refused error => simp
  | handler hfails =>
    rcases hfails with rfl | rfl | hcause
    · simp
    · simp
    · rcases hcause.error_eq with rfl | rfl <;> simp [hcause]

/-- The run of an accepted graph is type safe exactly when no configuration with budget left is about
to execute a node that reads a `Jump`. -/
theorem execute_typeSafe_iff {bytes : Bytes} {verified : VerifiedGraph}
    (hverified : verifyBytes bytes = .ok verified)
    (imports : Vector PackedCapability maxPythGraphImports) (budget : UInt64) (host : Host σ)
    (state : σ) :
    TypeSafe verified imports budget host state ↔
      ∀ config, Reaches verified.package.graph imports host (Machine.init budget state) config →
        config.machine.budget ≠ 0 → ReadsNoJump verified.package.graph config := by
  have haccepted := accepted_of_verifyBytes hverified
  constructor
  · intro hsafe config hreaches hbudget node opcode hnode input hinput producer hjump
    obtain ⟨value, hvalue, -⟩ := hsafe.operands config hreaches hbudget node opcode hnode input hinput
    rw [(hreaches.sound haccepted).no_jump_value hjump] at hvalue
    cases hvalue
  · intro hnojump
    constructor
    · obtain ⟨result, final, hrun, hends⟩ := executeInner_ends haccepted imports host
        (Machine.init budget state)
      have hexecute : execute verified imports budget host state = some (exitOf result final) := by
        rw [execute, hrun]
        rfl
      refine ⟨result, final, hrun, hexecute, ?_⟩
      cases hends with
      | ret hreaches hstep => simp
      | fail hreaches hstep =>
        rename_i blockIndex index machine error
        have hfails : StepFails verified.package.graph imports host ⟨blockIndex, index, machine⟩ error :=
          executeNode_error haccepted (hreaches.positioned haccepted rfl) (hreaches.sound haccepted)
            (hnojump _ hreaches) hstep
        obtain ⟨hblock, hnode, hinput, hcause⟩ := hfails.cause
        refine ⟨by simpa using hblock, by simpa using hnode, by simpa using hinput, ?_⟩
        intro other hother herror
        obtain rfl : error = other := Except.error.inj herror
        exact ⟨⟨blockIndex, index, machine⟩, hreaches, hstep, hcause hother⟩
    · intro config hreaches hbudget node opcode hnode input hinput
      obtain ⟨hreads, position, hposition⟩ := readsOperands_of_mem hinput
      obtain ⟨value, hvalue, htype, -⟩ := (hreaches.sound haccepted).operand haccepted
        (hreaches.positioned haccepted rfl) hnode hreads hposition
        (hnojump config hreaches hbudget node opcode hnode input hinput)
      exact ⟨value, hvalue, htype⟩

/-- No node of the echo package has a `Jump` among its inputs. -/
theorem execute_typeSafe_echoPackage : ∃ verified, verifyBytes echoPackage = .ok verified ∧
    TypeSafe verified (Vector.replicate _ ⟨7⟩) 100 growingHost 0 := by
  have hinputs : (verifyBytes echoPackage).toOption.map (fun verified ↦
      verified.package.graph.nodes.all fun node ↦ node.inputs.all fun input ↦
        (verified.package.graph.nodes[input]?).all fun producer ↦
          Opcode.ofCode producer.opcode != some .jump) = some true := by decide +kernel
  cases hverified : verifyBytes echoPackage with
  | error fault => simp [hverified, Except.toOption] at hinputs
  | ok verified =>
    refine ⟨verified, rfl, (execute_typeSafe_iff hverified _ _ _ _).mpr ?_⟩
    intro config _ _ node opcode hnode input hinput producer hjump
    have hmem : input ∈ node.inputs := by
      obtain ⟨-, position, hposition⟩ := readsOperands_of_mem hinput
      exact List.mem_of_mem_take (List.mem_of_getElem? hposition)
    simp only [hverified, Except.toOption, Option.map_some, Option.some.injEq, List.all_eq_true] at hinputs
    have hproducer := hinputs node (List.mem_of_getElem? hnode.1) input hmem
    simp [hjump.1, hjump.2] at hproducer

/-- A host that refuses every request. -/
def refusingHost : Host Unit := fun _ state ↦ (.error .denied, state)

/-- A package whose second block compares the `Jump` of its first block with itself. -/
def jumpOperandPackage : Bytes :=
  (PackageContent.of [.of 0 0 1 0, .of 1 1 2 0]
    [.of .jump .u64 0 [] 1 0, .of .eq .bool 1 [0, 0] 0 0, .of .ret .unit 1 [] 0 0] [] []).encode

/-- The run of a package on no imports against the host that refuses. -/
def refusedRun (bytes : Bytes) (budget : UInt64) : Option GraphExitRecord :=
  match verifyBytes bytes with
  | .ok verified => execute verified (Vector.replicate _ ⟨0⟩) budget refusingHost ()
  | .error _ => none

/-- The verifier accepts the package, and its run ends with an invalid input at the comparison. -/
theorem jumpOperandPackage_invalidInput :
    (verifyBytes jumpOperandPackage).isOk = true ∧
      (refusedRun jumpOperandPackage 10).map (fun exit ↦ (exit.errorCode, exit.lastNode)) =
        some (RuntimeError.invalidInput.code, 1) := by
  decide +kernel

end Pythos.Runtime
