import Pythos.Runtime.Interpreter
import Pythos.Tig.Acceptance

/-!
# Runs of the interpreter

A configuration is a machine about to dispatch a node of a block. `Reaches` are the configurations a run
passes through, and `Ends` the ways it can end: a `Return` node, or an error of the last node. The loops
of the interpreter are folded into them once, for every graph whose blocks are laid out and linked
(`executeInner_ends`): the run ends within the fuel `executeInner` gives it, and an invariant of a run is
an induction over `Reaches`.
-/

namespace Pythos.Runtime

open Foundation Shared Tig

/-- A machine about to dispatch the node `next` of a block. -/
structure Config (σ : Type) where
  block : ℕ
  next : ℕ
  machine : Machine σ

section Runs

variable {σ : Type} (g : Graph) (imports : Vector PackedCapability maxPythGraphImports)
  (host : Host σ)

/-- One step of a run: the next node of the block, or the first node of the block jumped to. -/
inductive Successor : Config σ → Config σ → Prop
  | next {blockIndex index : ℕ} {machine machine' : Machine σ} {block : BlockRecord}
      (hblock : g.blocks[blockIndex]? = some block) (hindex : index + 1 < block.stop)
      (hstep : executeNode g imports host index machine = (.ok none, machine')) :
      Successor ⟨blockIndex, index, machine⟩ ⟨blockIndex, index + 1, machine'⟩
  | jump {blockIndex index target : ℕ} {machine machine' : Machine σ} {block : BlockRecord}
      (hstep : executeNode g imports host index machine = (.ok (some (.jump target)), machine'))
      (htarget : g.blocks[target]? = some block) :
      Successor ⟨blockIndex, index, machine⟩ ⟨target, block.firstNode, machine'.enter target⟩

/-- The configurations that a run from a machine passes through. -/
inductive Reaches (start : Machine σ) : Config σ → Prop
  | enter {block : BlockRecord} (hblock : g.blocks[g.entryBlock]? = some block) :
      Reaches start ⟨g.entryBlock, block.firstNode, start.enter g.entryBlock⟩
  | step {config config' : Config σ} (hreaches : Reaches start config)
      (hstep : Successor g imports host config config') : Reaches start config'

/-- How a run ends: a node returned, or failed. -/
inductive Ends (start : Machine σ) : Except RuntimeError Unit → Machine σ → Prop
  | ret {blockIndex index : ℕ} {machine final : Machine σ}
      (hreaches : Reaches g imports host start ⟨blockIndex, index, machine⟩)
      (hstep : executeNode g imports host index machine = (.ok (some .ret), final)) :
      Ends start (.ok ()) final
  | fail {blockIndex index : ℕ} {machine final : Machine σ} {error : RuntimeError}
      (hreaches : Reaches g imports host start ⟨blockIndex, index, machine⟩)
      (hstep : executeNode g imports host index machine = (.error error, final)) :
      Ends start (.error error) final

variable {g imports host}

/-! ### What a node keeps -/

/-- The machines that differ in the tables, the host and the trace only. -/
structure SameCharge (before after : Machine σ) : Prop where
  budget_eq : after.budget = before.budget
  executedNodes_eq : after.executedNodes = before.executedNodes
  lastNode_eq : after.lastNode = before.lastNode

theorem sameCharge_perform (host : Host σ) (index : ℕ) (machine : Machine σ) (action : Action) :
    SameCharge machine (perform host index machine action).2 := by
  cases action with
  | store value =>
    unfold perform storeValue
    split_ifs <;> exact ⟨rfl, rfl, rfl⟩
  | proceed => exact ⟨rfl, rfl, rfl⟩
  | call request =>
    unfold perform callHost finishCall storeHostResult storeValue
    repeat' split
    all_goals exact ⟨rfl, rfl, rfl⟩

variable {index : ℕ} {machine machine' : Machine σ} {result : Option BlockOutcome}
  {values : List (Option Value)} {node : NodeRecord} {opcode : Opcode} {target : ℕ}
  {start : Machine σ}

/-- A node with budget left, and with the counters in range, is charged and run. -/
theorem dispatchNode_eq_runNode (hbudget : machine.budget ≠ 0)
    (hexecuted : machine.executedNodes + 1 < 2 ^ 64) (hindex : index < 2 ^ 32) :
    dispatchNode g imports host index machine =
      runNode g imports host index (machine.charge index) := by
  unfold dispatchNode
  rw [if_neg hbudget, if_neg (not_not.mpr hexecuted), if_neg (not_not.mpr hindex)]

/-- A node is not run, gains no budget and leaves the tables and the trace as they are, or it is charged and
run. -/
theorem dispatchNode_cases (g : Graph) (imports : Vector PackedCapability maxPythGraphImports) (host : Host σ)
    (index : ℕ) (machine : Machine σ) :
    (∃ error final, dispatchNode g imports host index machine = (.error error, final) ∧
      final.values = machine.values ∧ final.hostResults = machine.hostResults ∧ final.trace = machine.trace ∧
        machine.executedNodes ≤ final.executedNodes ∧
          final.executedNodes + final.budget ≤ machine.executedNodes + machine.budget) ∨
    machine.budget ≠ 0 ∧ dispatchNode g imports host index machine =
      runNode g imports host index (machine.charge index) := by
  unfold dispatchNode
  by_cases hbudget : machine.budget = 0
  · rw [if_pos hbudget]
    exact .inl ⟨_, _, rfl, rfl, rfl, rfl, le_rfl, le_rfl⟩
  rw [if_neg hbudget]
  split_ifs
  · exact .inr ⟨hbudget, rfl⟩
  · exact .inl ⟨_, _, rfl, rfl, rfl, rfl, Nat.le_succ _, by dsimp only; omega⟩
  · exact .inl ⟨_, _, rfl, rfl, rfl, rfl, le_rfl, by dsimp only; omega⟩

/-- A node that does not fail was charged. -/
theorem dispatchNode_of_ok (h : dispatchNode g imports host index machine = (.ok (), machine')) :
    machine.budget ≠ 0 ∧ runNode g imports host index (machine.charge index) = (.ok (), machine') := by
  rcases dispatchNode_cases g imports host index machine with ⟨error, final, herror, -⟩ | ⟨hbudget, hrun⟩
  · simp [herror] at h
  · exact ⟨hbudget, hrun ▸ h⟩

/-- A node is left as it is, or performs the action that its handler prepared. -/
theorem runNode_cases (g : Graph) (imports : Vector PackedCapability maxPythGraphImports) (host : Host σ)
    (index : ℕ) (machine : Machine σ) :
    (∃ error, runNode g imports host index machine = (.error error, machine)) ∨
    ∃ node opcode action, g.NodeAt index node opcode ∧
      prepare g imports machine.values machine.hostResults index node opcode = .ok action ∧
        runNode g imports host index machine = perform host index machine action := by
  unfold runNode
  cases hnode : g.nodes[index]? with
  | none => exact .inl ⟨_, rfl⟩
  | some node =>
    cases hopcode : Opcode.ofCode node.opcode with
    | none => exact .inl ⟨.unsupportedOpcode, by simp only [hopcode]⟩
    | some opcode =>
      cases haction : prepare g imports machine.values machine.hostResults index node opcode with
      | error error => exact .inl ⟨error, by simp only [hopcode, haction]⟩
      | ok action =>
        exact .inr ⟨node, opcode, action, ⟨hnode, hopcode⟩, haction, by simp only [hopcode, haction]⟩

theorem sameCharge_runNode (g : Graph) (imports : Vector PackedCapability maxPythGraphImports)
    (host : Host σ) (index : ℕ) (machine : Machine σ) :
    SameCharge machine (runNode g imports host index machine).2 := by
  rcases runNode_cases g imports host index machine with ⟨error, herror⟩ | ⟨node, opcode, action, -, -, hrun⟩
  · rw [herror]
    exact ⟨rfl, rfl, rfl⟩
  · rw [hrun]
    exact sameCharge_perform host index machine action

theorem executeNode_of_ok (h : executeNode g imports host index machine = (.ok result, machine')) :
    dispatchNode g imports host index machine = (.ok (), machine') ∧
      outcome g machine'.values index = .ok result := by
  unfold executeNode at h
  cases hdispatch : dispatchNode g imports host index machine with
  | mk status final =>
    rw [hdispatch] at h
    cases status with
    | error error => simp at h
    | ok value =>
      obtain ⟨houtcome, rfl⟩ := Prod.mk.inj h
      exact ⟨rfl, houtcome⟩

theorem executeNode_budget_lt
    (h : executeNode g imports host index machine = (.ok result, machine')) :
    machine'.budget < machine.budget := by
  obtain ⟨hbudget, hrun⟩ := dispatchNode_of_ok (executeNode_of_ok h).1
  have hkept := (sameCharge_runNode g imports host index (machine.charge index)).budget_eq
  rw [hrun] at hkept
  have hcharge : (machine.charge index).budget = machine.budget - 1 := rfl
  change machine'.budget = _ at hkept
  omega

/-! ### What a node does -/

/-- A successful action of a node, and the machine it leaves. -/
inductive Performs (host : Host σ) (index : ℕ) (machine : Machine σ) : Action → Machine σ → Prop
  | store (value : Value) : Performs host index machine (.store value) (machine.put index value)
  | proceed : Performs host index machine .proceed machine
  | emit {request : HostRequest} {result : HostCallResult}
      (hreply : (host request machine.host).1 = .ok result) (hvalidator : request.validator = none) :
      Performs host index machine (.call request)
        ((machine.answered index request (host request machine.host)).put index (.effect index))
  | keep {request : HostRequest} {result : HostCallResult}
      {validate : HostCallResult → Except RuntimeError Unit}
      (hreply : (host request machine.host).1 = .ok result)
      (hvalidator : request.validator = some validate) (hvalid : validate result = .ok ()) :
      Performs host index machine (.call request)
        (((machine.answered index request (host request machine.host)).keep index result).put index
          (.effect index))

/-- A failed action of a node with room in the tables: the host refused, or its reply is invalid. -/
inductive PerformFails (host : Host σ) (index : ℕ) (machine : Machine σ) :
    Action → RuntimeError → Machine σ → Prop
  | refused {request : HostRequest} {error : HostError}
      (hreply : (host request machine.host).1 = .error error) :
      PerformFails host index machine (.call request) (.host error)
        (machine.answered index request (host request machine.host))
  | invalid {request : HostRequest} {result : HostCallResult} {error : RuntimeError}
      {validate : HostCallResult → Except RuntimeError Unit}
      (hreply : (host request machine.host).1 = .ok result)
      (hvalidator : request.validator = some validate) (hvalid : validate result = .error error) :
      PerformFails host index machine (.call request) error
        (machine.answered index request (host request machine.host))

theorem perform_cases (host : Host σ) (index : ℕ) (machine : Machine σ) (action : Action) :
    (perform host index machine action).1 = .ok () ∧
      Performs host index machine action (perform host index machine action).2 ∨
    ∃ error, (perform host index machine action).1 = .error error ∧
      (index < machine.values.length → index < machine.hostResults.length →
        PerformFails host index machine action error (perform host index machine action).2) := by
  cases action with
  | store value =>
    unfold perform storeValue
    split_ifs with hvalues
    · exact .inl ⟨rfl, .store value⟩
    · exact .inr ⟨_, rfl, fun hlt ↦ absurd hlt hvalues⟩
  | proceed => exact .inl ⟨rfl, .proceed⟩
  | call request =>
    cases hreply : (host request machine.host).1 with
    | error error =>
      simp only [perform, callHost, hreply]
      exact .inr ⟨_, rfl, fun _ _ ↦ .refused hreply⟩
    | ok result =>
      cases hvalidator : request.validator with
      | none =>
        simp only [perform, callHost, hreply, finishCall, hvalidator, storeValue]
        split_ifs with hvalues
        · exact .inl ⟨rfl, .emit hreply hvalidator⟩
        · exact .inr ⟨_, rfl, fun hlt ↦ absurd hlt hvalues⟩
      | some validate =>
        cases hvalid : validate result with
        | error error =>
          simp only [perform, callHost, hreply, finishCall, hvalidator, hvalid]
          exact .inr ⟨_, rfl, fun _ _ ↦ .invalid hreply hvalidator hvalid⟩
        | ok value =>
          simp only [perform, callHost, hreply, finishCall, hvalidator, hvalid, storeHostResult, storeValue]
          split_ifs with hresults hvalues
          · exact .inl ⟨rfl, .keep hreply hvalidator hvalid⟩
          · exact .inr ⟨_, rfl, fun hlt ↦ absurd hlt hvalues⟩
          · exact .inr ⟨_, rfl, fun _ hlt ↦ absurd hlt hresults⟩

theorem performs_of_ok {action : Action}
    (h : perform host index machine action = (.ok (), machine')) :
    Performs host index machine action machine' := by
  rcases perform_cases host index machine action with ⟨-, hperforms⟩ | ⟨error, herror, -⟩
  · rwa [h] at hperforms
  · simp [h] at herror

theorem performFails_of_error {action : Action} {error : RuntimeError}
    (hvalues : index < machine.values.length) (hresults : index < machine.hostResults.length)
    (h : perform host index machine action = (.error error, machine')) :
    PerformFails host index machine action error machine' := by
  rcases perform_cases host index machine action with ⟨hok, -⟩ | ⟨error', herror, hfails⟩
  · simp [h] at hok
  · rw [h] at herror hfails
    obtain rfl := Except.error.inj herror
    exact hfails hvalues hresults

/-- A node that does not fail has an opcode and performed the action its handler prepared. -/
theorem runNode_of_ok (h : runNode g imports host index machine = (.ok (), machine')) :
    ∃ node opcode action, g.NodeAt index node opcode ∧
      prepare g imports machine.values machine.hostResults index node opcode = .ok action ∧
        Performs host index machine action machine' := by
  rcases runNode_cases g imports host index machine with
    ⟨error, herror⟩ | ⟨node, opcode, action, hnode, haction, hrun⟩
  · simp [herror] at h
  · exact ⟨node, opcode, action, hnode, haction, performs_of_ok (hrun ▸ h)⟩

/-- Everything a node that does not fail did: it was charged, and its handler performed an action. -/
theorem executeNode_performs (h : executeNode g imports host index machine = (.ok result, machine')) :
    ∃ node opcode action, g.NodeAt index node opcode ∧ machine.budget ≠ 0 ∧
      prepare g imports machine.values machine.hostResults index node opcode = .ok action ∧
        Performs host index (machine.charge index) action machine' ∧
          outcome g machine'.values index = .ok result := by
  obtain ⟨hdispatch, houtcome⟩ := executeNode_of_ok h
  obtain ⟨hbudget, hrun⟩ := dispatchNode_of_ok hdispatch
  obtain ⟨node, opcode, action, hnode, haction, hperforms⟩ := runNode_of_ok hrun
  exact ⟨node, opcode, action, hnode, hbudget, haction, hperforms, houtcome⟩

/-- The machine that a node leaves, whether it fails or not: it was not charged, it was charged and its
handler prepared nothing, it called the host, or it performed its action. -/
inductive NodeLeaves (g : Graph) (imports : Vector PackedCapability maxPythGraphImports)
    (host : Host σ) (index : ℕ) (machine : Machine σ) : Machine σ → Prop
  | idle {final : Machine σ} (hvalues : final.values = machine.values)
      (hresults : final.hostResults = machine.hostResults) (htrace : final.trace = machine.trace) :
      NodeLeaves g imports host index machine final
  | charged (hbudget : machine.budget ≠ 0) :
      NodeLeaves g imports host index machine (machine.charge index)
  | answered {node : NodeRecord} {opcode : Opcode} {request : HostRequest}
      (hbudget : machine.budget ≠ 0) (hnode : g.NodeAt index node opcode)
      (hprepared : prepare g imports machine.values machine.hostResults index node opcode =
        .ok (.call request)) :
      NodeLeaves g imports host index machine
        ((machine.charge index).answered index request (host request machine.host))
  | performed {node : NodeRecord} {opcode : Opcode} {action : Action} {final : Machine σ}
      (hbudget : machine.budget ≠ 0) (hnode : g.NodeAt index node opcode)
      (hprepared : prepare g imports machine.values machine.hostResults index node opcode =
        .ok action)
      (hperforms : Performs host index (machine.charge index) action final) :
      NodeLeaves g imports host index machine final

theorem runNode_leaves {final : Machine σ} {result : Except RuntimeError Unit}
    (hvalues : index < machine.values.length) (hresults : index < machine.hostResults.length)
    (hbudget : machine.budget ≠ 0)
    (h : runNode g imports host index (machine.charge index) = (result, final)) :
    NodeLeaves g imports host index machine final := by
  rcases runNode_cases g imports host index (machine.charge index) with
    ⟨error, herror⟩ | ⟨node, opcode, action, hnode, haction, hrun⟩
  · rw [herror] at h
    exact (Prod.mk.inj h).2 ▸ .charged hbudget
  rw [hrun] at h
  cases result with
  | ok _ => exact .performed hbudget hnode haction (performs_of_ok h)
  | error error =>
    cases performFails_of_error (by exact hvalues) (by exact hresults) h with
    | refused | invalid => exact .answered hbudget hnode haction

theorem executeNode_leaves {final : Machine σ} {result : Except RuntimeError (Option BlockOutcome)}
    (hvalues : index < machine.values.length) (hresults : index < machine.hostResults.length)
    (h : executeNode g imports host index machine = (result, final)) :
    NodeLeaves g imports host index machine final := by
  unfold executeNode at h
  rcases dispatchNode_cases g imports host index machine with
    ⟨error, idle, herror, hidle⟩ | ⟨hbudget, hdispatch⟩
  · rw [herror] at h
    exact (Prod.mk.inj h).2 ▸ .idle hidle.1 hidle.2.1 hidle.2.2.1
  cases hrun : runNode g imports host index (machine.charge index) with
  | mk dispatched machine' =>
    rw [hdispatch, hrun] at h
    have hleaves := runNode_leaves hvalues hresults hbudget hrun
    cases dispatched <;> exact (Prod.mk.inj h).2 ▸ hleaves

/-! ### Control flow of a node -/

theorem outcome_of_nodeAt (hnode : g.NodeAt index node opcode) :
    outcome g values index = controlFlow g values node opcode := by
  rw [outcome, hnode.1, okOrElse, ok_bind, hnode.2, okOrElse, ok_bind]

theorem jumpTo_eq_ok (h : jumpTo g target = .ok result) :
    target < g.blocks.length ∧ result = some (.jump target) := by
  unfold jumpTo at h
  split_ifs at h with hlt
  · exact ⟨hlt, (Except.ok.inj h).symm⟩

theorem nodeAt_of_outcome (h : outcome g values index = .ok result) :
    ∃ node opcode, g.NodeAt index node opcode := by
  simp only [outcome, bind_eq_ok_iff, okOrElse_eq_ok_iff] at h
  obtain ⟨node, hnode, opcode, hopcode, -⟩ := h
  exact ⟨node, opcode, hnode, hopcode⟩

/-- A node ends the run, or falls through, or jumps along an edge of the graph. -/
theorem outcome_cases (hnode : g.NodeAt index node opcode) (h : outcome g values index = .ok result) :
    result = some .ret ∨ (result = none ∧ isTerminator opcode = false) ∨
      ∃ target, result = some (.jump target) ∧ target < g.blocks.length ∧
        target ∈ Graph.successors node opcode ∧ isTerminator opcode = true := by
  rw [outcome_of_nodeAt hnode, controlFlow] at h
  split_ifs at h with hret hjump hbranch
  · exact .inl (Except.ok.inj h).symm
  · subst hjump
    obtain ⟨hlt, rfl⟩ := jumpTo_eq_ok h
    exact .inr (.inr ⟨_, rfl, hlt, List.mem_singleton_self _, rfl⟩)
  · subst hbranch
    obtain ⟨condition, -, h⟩ := bind_eq_ok_iff.mp h
    obtain ⟨hlt, rfl⟩ := jumpTo_eq_ok h
    exact .inr (.inr ⟨_, rfl, hlt, by cases condition <;> simp [Graph.successors], rfl⟩)
  · refine .inr (.inl ⟨(Except.ok.inj h).symm, Bool.eq_false_iff.mpr fun hterminator ↦ ?_⟩)
    rcases isTerminator_iff.mp hterminator with hkind | hkind | hkind <;> contradiction

/-- The node that ends a block never falls through. -/
theorem outcome_ne_none (hnode : g.NodeAt index node opcode)
    (hterminator : isTerminator opcode = true) : outcome g values index ≠ .ok none := by
  intro h
  rcases outcome_cases hnode h with hret | ⟨-, hfalse⟩ | ⟨_, hjump, -⟩
  · cases hret
  · exact absurd hterminator (Bool.eq_false_iff.mp hfalse)
  · cases hjump

/-- A jump of the interpreter follows an edge of the graph. -/
theorem successor_of_outcome (hnode : g.NodeAt index node opcode)
    (h : outcome g values index = .ok (some (.jump target))) :
    target < g.blocks.length ∧ target ∈ Graph.successors node opcode ∧
      isTerminator opcode = true := by
  rcases outcome_cases hnode h with hret | ⟨hnone, -⟩ | ⟨_, hjump, hsuccessor⟩
  · cases hret
  · cases hnone
  · cases hjump
    exact hsuccessor

/-! ### The loops -/

/-- How the execution of a block continues the run. -/
def BlockEnds (g : Graph) (imports : Vector PackedCapability maxPythGraphImports) (host : Host σ)
    (start : Machine σ) (blockIndex : ℕ) (machine : Machine σ) :
    Except RuntimeError BlockOutcome → Machine σ → Prop
  | .ok .ret, final => Ends g imports host start (.ok ()) final
  | .error error, final => Ends g imports host start (.error error) final
  | .ok (.jump target), final => final.budget < machine.budget ∧ ∃ index before,
      Reaches g imports host start ⟨blockIndex, index, before⟩ ∧
        executeNode g imports host index before = (.ok (some (.jump target)), final)

theorem blockEnds_of_outcome {blockIndex : ℕ} {result : BlockOutcome}
    (hreaches : Reaches g imports host start ⟨blockIndex, index, machine⟩)
    (hstep : executeNode g imports host index machine = (.ok (some result), machine')) :
    BlockEnds g imports host start blockIndex machine (.ok result) machine' := by
  cases result with
  | ret => exact .ret hreaches hstep
  | jump target => exact ⟨executeNode_budget_lt hstep, index, machine, hreaches, hstep⟩

theorem BlockEnds.of_budget_lt {blockIndex : ℕ} {result : Except RuntimeError BlockOutcome} {final : Machine σ}
    (h : BlockEnds g imports host start blockIndex machine' result final)
    (hspent : machine'.budget < machine.budget) :
    BlockEnds g imports host start blockIndex machine result final := by
  match result with
  | .error _ => exact h
  | .ok .ret => exact h
  | .ok (.jump _) => exact ⟨h.1.trans hspent, h.2⟩

theorem executeNodes_ends {blockIndex : ℕ} {block : BlockRecord}
    (hblock : g.blocks[blockIndex]? = some block) (hat : g.BlockAt blockIndex block) :
    ∀ (remaining index : ℕ) (machine : Machine σ), block.firstNode ≤ index →
      index + (remaining + 1) = block.stop →
        Reaches g imports host start ⟨blockIndex, index, machine⟩ →
          BlockEnds g imports host start blockIndex machine
            (executeNodes g imports host (remaining + 1) index machine).1
            (executeNodes g imports host (remaining + 1) index machine).2 := by
  intro remaining index machine hfirst hstop hreaches
  rw [executeNodes]
  match hstep : executeNode g imports host index machine, remaining with
  | (.error _, _), _ => exact .fail hreaches hstep
  | (.ok (some _), _), _ => exact blockEnds_of_outcome hreaches hstep
  | (.ok none, _), 0 =>
    obtain ⟨node, opcode, hnode, -, hlast⟩ := hat.nodeAt index hfirst (by omega)
    exact absurd (executeNode_of_ok hstep).2 (outcome_ne_none hnode (hlast.mpr hstop))
  | (.ok none, final), remaining + 1 =>
    exact (executeNodes_ends hblock hat remaining (index + 1) final (by omega) (by omega)
      (.step hreaches (.next hblock (by omega) hstep))).of_budget_lt (executeNode_budget_lt hstep)

theorem executeBlock_ends (hlayout : g.Layout) (hcount : g.nodes.length ≤ maxGraphNodes)
    {blockIndex : ℕ} {block : BlockRecord} (hblock : g.blocks[blockIndex]? = some block)
    (hreaches : Reaches g imports host start
      ⟨blockIndex, block.firstNode, machine.enter blockIndex⟩) :
    BlockEnds g imports host start blockIndex machine
      (executeBlock g imports host blockIndex machine).1
      (executeBlock g imports host blockIndex machine).2 := by
  have hat := hlayout.blockAt blockIndex block hblock
  have hsize : block.firstNode + block.nodeCount < usizeSize := by
    have hstop : block.firstNode + block.nodeCount ≤ g.nodes.length := hat.stop_le
    have husize : maxGraphNodes < usizeSize := by decide
    omega
  obtain ⟨remaining, hremaining⟩ : ∃ remaining, block.nodeCount = remaining + 1 :=
    Nat.exists_eq_add_one.mpr hat.nodeCount_pos
  unfold executeBlock
  rw [hblock]
  show BlockEnds g imports host start blockIndex machine (if _ then _ else _ : _ × _).1
    (if _ then _ else _ : _ × _).2
  rw [if_pos hsize, hremaining]
  have hnodes := executeNodes_ends hblock hat remaining block.firstNode (machine.enter blockIndex)
    le_rfl (by rw [BlockRecord.stop, hremaining]) hreaches
  exact hnodes

theorem executeBlocks_ends (hlayout : g.Layout) (hcount : g.nodes.length ≤ maxGraphNodes) (fuel : ℕ) :
    ∀ (blockIndex : ℕ) (block : BlockRecord) (machine : Machine σ),
      g.blocks[blockIndex]? = some block →
        Reaches g imports host start ⟨blockIndex, block.firstNode, machine.enter blockIndex⟩ →
          machine.budget < fuel → ∃ result final,
            executeBlocks g imports host fuel blockIndex machine = some (result, final) ∧
              Ends g imports host start result final := by
  induction fuel with
  | zero => intro _ _ _ _ _ hfuel; exact absurd hfuel (Nat.not_lt_zero _)
  | succ fuel ih =>
    intro blockIndex block machine hblock hreaches hfuel
    have hends := executeBlock_ends hlayout hcount hblock hreaches
    rw [executeBlocks]
    cases hresult : executeBlock g imports host blockIndex machine with
    | mk status final =>
      rw [hresult] at hends
      cases status with
      | error error => exact ⟨_, _, rfl, hends⟩
      | ok result =>
        cases result with
        | ret => exact ⟨_, _, rfl, hends⟩
        | jump target =>
          obtain ⟨hspent, index, before, hbefore, hstep⟩ := hends
          change final.budget < machine.budget at hspent
          have houtcome := (executeNode_of_ok hstep).2
          obtain ⟨node, opcode, hnode⟩ := nodeAt_of_outcome houtcome
          have htarget := List.getElem?_eq_getElem (successor_of_outcome hnode houtcome).1
          exact ih target _ final htarget (.step hbefore (.jump hstep htarget)) (by omega)

/-- The run of an accepted graph ends within the fuel the interpreter model gives it. -/
theorem executeInner_ends (haccepted : Accepted g)
    (imports : Vector PackedCapability maxPythGraphImports) (host : Host σ) (start : Machine σ) :
    ∃ result final, executeInner g imports host start = some (result, final) ∧
      Ends g imports host start result final :=
  executeBlocks_ends haccepted.layout haccepted.length_nodes_le _ _ _ _
    (List.getElem?_eq_getElem haccepted.entryBlock_lt)
    (.enter (List.getElem?_eq_getElem haccepted.entryBlock_lt)) (Nat.lt_succ_self _)

end Runs

end Pythos.Runtime
