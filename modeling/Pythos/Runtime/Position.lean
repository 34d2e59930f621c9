import Pythos.Runtime.Run

/-!
# Where a run stands

The blocks that a run entered form a walk of the control-flow graph, so that the dominator table of the
verifier can be read along it: whatever input a node names, its producer was executed before
(`Executed.of_available`). `Successor.step` collects what every later invariant needs to know about one
step of a run.
-/

namespace Pythos.Runtime

open Foundation Shared Tig

/-! ### Reading the trace -/

/-- The blocks a run entered, the last first. -/
def enteredBlocks (trace : List Event) : List ℕ :=
  trace.filterMap fun event ↦ match event with
    | .entered block => some block
    | _ => none

/-- The nodes a run dispatched, the last first. -/
def dispatchedNodes (trace : List Event) : List ℕ :=
  trace.filterMap fun event ↦ match event with
    | .dispatched node => some node
    | _ => none

/-- The nodes that called the host, the last first. -/
def callingNodes (trace : List Event) : List ℕ :=
  trace.filterMap fun event ↦ match event with
    | .called node _ _ => some node
    | _ => none

/-- Every call in a trace has a property of the events before it. -/
def EachCall (property : List Event → ℕ → HostRequest → Prop) : List Event → Prop
  | [] => True
  | .called index request _ :: earlier =>
    property earlier index request ∧ EachCall property earlier
  | _ :: earlier => EachCall property earlier

theorem EachCall.of_append {property : List Event → ℕ → HostRequest → Prop}
    {later earlier : List Event} (h : EachCall property (later ++ earlier)) :
    EachCall property earlier := by
  induction later with
  | nil => exact h
  | cons event later ih =>
    cases event with
    | entered block | dispatched node => exact ih h
    | called node request reply => exact ih h.2

section Position

variable {σ : Type} {g : Graph} {imports : Vector PackedCapability maxPythGraphImports}
  {host : Host σ}

variable {index : ℕ} {machine' : Machine σ} {action : Action} {config : Config σ}
  {node : NodeRecord} {opcode : Opcode} {config' : Config σ} {input : ℕ}

theorem Performs.enteredBlocks_eq {machine : Machine σ}
    (h : Performs host index machine action machine') :
    enteredBlocks machine'.trace = enteredBlocks machine.trace := by
  cases h <;> rfl

/-- The blocks entered form a walk to the current block, and the next node lies in it. -/
structure Positioned (g : Graph) (config : Config σ) : Prop where
  walk : Walk g.Edge g.entryBlock config.block (enteredBlocks config.machine.trace)
  next : ∃ block, g.blocks[config.block]? = some block ∧ block.firstNode ≤ config.next ∧
    config.next < block.stop

/-- The node was executed before: its block was left, or it stands earlier in the current block. -/
def Executed (g : Graph) (config : Config σ) (index : ℕ) : Prop :=
  ∃ blockIndex, g.InBlock index blockIndex ∧
    (blockIndex ∈ (enteredBlocks config.machine.trace).tail ∨
      (blockIndex = config.block ∧ index < config.next))

theorem Positioned.trail_eq (h : Positioned g config) :
    enteredBlocks config.machine.trace =
      config.block :: (enteredBlocks config.machine.trace).tail :=
  h.walk.trail_eq

/-- The node about to be dispatched, with its place in the graph. -/
theorem Positioned.nodeAt (haccepted : Accepted g) (h : Positioned g config) :
    ∃ node opcode, g.NodeAt config.next node opcode ∧ node.blockIndex = config.block ∧
      ∃ block, g.blocks[config.block]? = some block ∧ block.firstNode ≤ config.next ∧
        config.next < block.stop ∧ (isTerminator opcode = true ↔ config.next + 1 = block.stop) := by
  obtain ⟨block, hblock, hlow, hhigh⟩ := h.next
  obtain ⟨node, opcode, hnode, howner, hterminator⟩ :=
    (haccepted.layout.blockAt config.block block hblock).nodeAt config.next hlow hhigh
  exact ⟨node, opcode, hnode, howner, block, hblock, hlow, hhigh, hterminator⟩

/-- The successors of a terminator about to be dispatched are those of its block. -/
theorem Positioned.edge (haccepted : Accepted g) (h : Positioned g config)
    (hnode : g.NodeAt config.next node opcode) (hends : isTerminator opcode = true) {target : ℕ}
    (htarget : target ∈ Graph.successors node opcode) : g.Edge config.block target := by
  obtain ⟨node', opcode', hnode', -, block, hblock, -, -, hterminator⟩ := h.nodeAt haccepted
  obtain ⟨rfl, rfl⟩ := hnode.unique hnode'
  have hstop := hterminator.mp hends
  have hlast := (haccepted.layout.blockAt config.block block hblock).terminatorNode_eq
  have hindex : block.terminatorNode = config.next := by omega
  exact ⟨block, node, opcode, hblock, hindex ▸ hnode, htarget⟩

/-- What one step of a run did. -/
structure Stepped (g : Graph) (imports : Vector PackedCapability maxPythGraphImports)
    (host : Host σ) (config config' : Config σ) (node : NodeRecord) (opcode : Opcode)
    (action : Action) (machine' : Machine σ) : Prop where
  nodeAt : g.NodeAt config.next node opcode
  blockIndex_eq : node.blockIndex = config.block
  budget_ne : config.machine.budget ≠ 0
  prepared : prepare g imports config.machine.values config.machine.hostResults config.next node
    opcode = .ok action
  performs : Performs host config.next (config.machine.charge config.next) action machine'
  machine_eq : config'.machine = machine' ∨
    (isTerminator opcode = true ∧ config'.machine = machine'.enter config'.block)
  next_eq : ¬ isTerminator opcode = true →
    config'.block = config.block ∧ config'.next = config.next + 1
  executed : ∀ index, Executed g config' index ↔ Executed g config index ∨ index = config.next

section

variable (h : Stepped g imports host config config' node opcode action machine')

include h

/-- What does not depend on the blocks entered is what the node left. -/
theorem Stepped.read_eq {α : Type} (read : Machine σ → α)
    (hread : ∀ machine block, read (Machine.enter machine block) = read machine) :
    read config'.machine = read machine' := by
  rcases h.machine_eq with heq | ⟨-, heq⟩
  · rw [heq]
  · rw [heq, hread]

theorem Stepped.values_eq : config'.machine.values = machine'.values :=
  h.read_eq Machine.values fun _ _ ↦ rfl

theorem Stepped.hostResults_eq : config'.machine.hostResults = machine'.hostResults :=
  h.read_eq Machine.hostResults fun _ _ ↦ rfl

end

theorem InBlock.bounds {blockIndex : ℕ} {block : BlockRecord} (h : g.InBlock index blockIndex)
    (hblock : g.blocks[blockIndex]? = some block) :
    block.firstNode ≤ index ∧ index < block.stop := by
  obtain ⟨-, block', -, -, hblock', hlow, hhigh⟩ := h
  obtain rfl : block = block' := Option.some_inj.mp (hblock.symm.trans hblock')
  exact ⟨hlow, hhigh⟩

/-- A step of a run dispatches the next node and keeps the position. -/
theorem Successor.step (haccepted : Accepted g) (hposition : Positioned g config)
    (h : Successor g imports host config config') :
    Positioned g config' ∧ ∃ node opcode action machine',
      Stepped g imports host config config' node opcode action machine' := by
  obtain ⟨node, opcode, hnode, howner, block, hblock, hlow, hhigh, hterminator⟩ :=
    hposition.nodeAt haccepted
  have hnext : g.InBlock config.next config.block :=
    ⟨node, block, hnode.1, howner, hblock, hlow, hhigh⟩
  cases h with
  | next hblock' hindex hstep =>
    rename_i blockIndex index machine machine' block'
    obtain rfl : block = block' := Option.some_inj.mp (hblock.symm.trans hblock')
    obtain ⟨node', opcode', action, hnode', hbudget, haction, hperforms, -⟩ :=
      executeNode_performs hstep
    obtain ⟨rfl, rfl⟩ := hnode.unique hnode'
    have htrail : enteredBlocks machine'.trace = enteredBlocks machine.trace :=
      hperforms.enteredBlocks_eq
    refine ⟨⟨?_, block, hblock, Nat.le_succ_of_le hlow, hindex⟩, node, opcode, action, machine',
      ⟨hnode, howner, hbudget, haction, hperforms, Or.inl rfl, fun _ ↦ ⟨rfl, rfl⟩, ?_⟩⟩
    · exact htrail ▸ hposition.walk
    · intro other
      constructor
      · rintro ⟨blockIndex', hin, hpast | ⟨rfl, hlt⟩⟩
        · exact Or.inl ⟨blockIndex', hin, Or.inl (htrail ▸ hpast)⟩
        · rcases Nat.lt_succ_iff_lt_or_eq.mp hlt with hbefore | rfl
          · exact Or.inl ⟨_, hin, Or.inr ⟨rfl, hbefore⟩⟩
          · exact Or.inr rfl
      · rintro (⟨blockIndex', hin, hpast | ⟨rfl, hlt⟩⟩ | rfl)
        · exact ⟨blockIndex', hin, Or.inl (htrail.symm ▸ hpast)⟩
        · exact ⟨_, hin, Or.inr ⟨rfl, Nat.lt_succ_of_lt hlt⟩⟩
        · exact ⟨_, hnext, Or.inr ⟨rfl, Nat.lt_succ_self _⟩⟩
  | jump hstep htarget =>
    rename_i blockIndex index target machine machine' targetBlock
    obtain ⟨node', opcode', action, hnode', hbudget, haction, hperforms, houtcome⟩ :=
      executeNode_performs hstep
    obtain ⟨rfl, rfl⟩ := hnode.unique hnode'
    obtain ⟨-, hsuccessor, hends⟩ := successor_of_outcome hnode houtcome
    have hedge : g.Edge blockIndex target := hposition.edge haccepted hnode hends hsuccessor
    have hstop := hterminator.mp hends
    change index + 1 = block.stop at hstop
    have htrail : enteredBlocks (machine'.enter target).trace =
        target :: enteredBlocks machine.trace :=
      congrArg (target :: ·) hperforms.enteredBlocks_eq
    have htargetAt := haccepted.layout.blockAt target targetBlock htarget
    refine ⟨⟨?_, targetBlock, htarget, le_rfl, Nat.lt_add_of_pos_right htargetAt.nodeCount_pos⟩,
      node, opcode, action, machine',
      ⟨hnode, howner, hbudget, haction, hperforms, Or.inr ⟨hends, rfl⟩,
        fun hother ↦ absurd hends hother, ?_⟩⟩
    · show Walk g.Edge g.entryBlock target (enteredBlocks (machine'.enter target).trace)
      rw [htrail]
      exact .step hposition.walk hedge
    · intro other
      have htrailEq : enteredBlocks machine.trace =
        blockIndex :: (enteredBlocks machine.trace).tail := hposition.trail_eq
      have htail : (enteredBlocks (machine'.enter target).trace).tail =
          blockIndex :: (enteredBlocks machine.trace).tail := by
        rw [htrail, List.tail_cons]
        exact htrailEq
      constructor
      · rintro ⟨blockIndex', hin, hpast | ⟨rfl, hlt⟩⟩
        · rcases List.mem_cons.mp (htail ▸ hpast) with rfl | hpast
          · by_cases heq : other = index
            · exact Or.inr heq
            · have hbounds := InBlock.bounds hin hblock
              exact Or.inl ⟨_, hin, Or.inr ⟨rfl, show other < index by omega⟩⟩
          · exact Or.inl ⟨_, hin, Or.inl hpast⟩
        · have hbounds := InBlock.bounds hin htarget
          exact absurd hlt (not_lt.mpr hbounds.1)
      · rintro (⟨blockIndex', hin, hpast | ⟨rfl, -⟩⟩ | rfl)
        · exact ⟨blockIndex', hin, Or.inl (htail ▸ List.mem_cons_of_mem _ hpast)⟩
        · exact ⟨_, hin, Or.inl (htail ▸ List.mem_cons_self ..)⟩
        · exact ⟨_, hnext, Or.inl (htail ▸ List.mem_cons_self ..)⟩

/-- Every configuration of a run is positioned. -/
theorem Reaches.positioned (haccepted : Accepted g) {start : Machine σ} (hstart : start.trace = [])
    (h : Reaches g imports host start config) : Positioned g config := by
  induction h with
  | enter hblock =>
    have hat := haccepted.layout.blockAt _ _ hblock
    refine ⟨?_, _, hblock, le_rfl, Nat.lt_add_of_pos_right hat.nodeCount_pos⟩
    show Walk g.Edge g.entryBlock g.entryBlock (enteredBlocks (.entered _ :: start.trace))
    rw [hstart]
    exact .start
  | step hreaches hstep ih => exact (hstep.step haccepted ih).1

/-- The producer of every available input was executed before. -/
theorem Executed.of_available (haccepted : Accepted g) {dominators : List (BitVec 128)}
    (hdominated : Dominated g dominators) (h : Positioned g config)
    (hblockIndex : node.blockIndex = config.block)
    (havailable : Available g dominators config.next node input) : Executed g config input := by
  obtain ⟨producer, hproducer, hplace⟩ := havailable
  refine ⟨producer.blockIndex, haccepted.layout.inBlock input producer hproducer, ?_⟩
  rcases hplace with ⟨hsame, hbefore⟩ | ⟨hdiffer, hdominates⟩
  · exact Or.inr ⟨hsame.trans hblockIndex, hbefore⟩
  · have hmem := (hdominated.closed haccepted.linked).mem_trail h.walk
      (show producer.blockIndex ∈ {other | other ∈ maskAt dominators config.block} from
        hblockIndex ▸ hdominates)
    rw [h.trail_eq] at hmem
    rcases List.mem_cons.mp hmem with heq | htail
    · exact absurd (heq.trans hblockIndex.symm) hdiffer
    · exact Or.inl htail

/-- Whatever input the next node names, its producer was executed. -/
theorem Positioned.executed_input (haccepted : Accepted g) (h : Positioned g config)
    (hnode : g.NodeAt config.next node opcode) (hinput : input ∈ node.inputs)
    (hne : input ≠ noValue) : Executed g config input := by
  obtain ⟨dominators, hdominated, havailable⟩ := haccepted.available
  obtain ⟨node', opcode', hnode', hblock, -⟩ := h.nodeAt haccepted
  obtain ⟨rfl, rfl⟩ := hnode.unique hnode'
  exact Executed.of_available haccepted hdominated h hblock
    (havailable config.next node hnode.1 input hinput hne)

/-- An input with a smaller index than its node is the index of a node. -/
theorem ne_noValue_of_lt (haccepted : Accepted g) (hnode : g.NodeAt index node opcode)
    (hlt : input < index) : input ≠ noValue := by
  have hindex := (List.getElem?_eq_some_iff.mp hnode.1).1
  have hnodes := haccepted.length_nodes_le
  unfold maxGraphNodes at hnodes
  unfold noValue
  omega

end Position

end Pythos.Runtime
