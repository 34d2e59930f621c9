import Pythos.Tig.ControlFlow
import Pythos.Tig.FormatFacts

/-!
# What the block passes of the verifier guarantee

The passes over types, opcodes, block ranges and terminators do not panic on a well-formed package,
and a graph they accept has a block layout: every block is a range of nodes that belong to it and ends
in its only terminator (`BlockAt`), every node lies in the block it names (`InBlock`), and every target
of a terminator is a block (`TargetsAt`). The tables the passes fill agree with the graph
(`TablesShow`).
-/

namespace Pythos.Tig

open Foundation

theorem asU32_of_lt {value : ℕ} (h : value < 2 ^ 32) : asU32 value = value :=
  Nat.mod_eq_of_lt h

theorem isTerminator_iff {opcode : Opcode} :
    isTerminator opcode = true ↔ opcode = .jump ∨ opcode = .branch ∨ opcode = .ret := by
  simp [isTerminator, or_assoc]

/-! ### The layout of a graph -/

namespace BlockRecord

/-- The end of the node range of a block. -/
def stop (block : BlockRecord) : ℕ := block.firstNode + block.nodeCount

end BlockRecord

namespace Graph

/-- Every node has a known opcode and a known result type. -/
structure Known (g : Graph) : Prop where
  opcode : ∀ node ∈ g.nodes, ∃ opcode, Opcode.ofCode node.opcode = some opcode
  resultType : ∀ node ∈ g.nodes, ∃ type, PythType.ofCode node.resultType = some type

/-- The node at an index, with its opcode. -/
def NodeAt (g : Graph) (index : ℕ) (node : NodeRecord) (opcode : Opcode) : Prop :=
  g.nodes[index]? = some node ∧ Opcode.ofCode node.opcode = some opcode

/-- The node at an index lies in the block that its record names. -/
def InBlock (g : Graph) (index blockIndex : ℕ) : Prop :=
  ∃ node block, g.nodes[index]? = some node ∧ node.blockIndex = blockIndex ∧
    g.blocks[blockIndex]? = some block ∧ block.firstNode ≤ index ∧ index < block.stop

/-- The layout of one block: a nonempty range of nodes that name the block, of which exactly the last
is a terminator. -/
structure BlockAt (g : Graph) (blockIndex : ℕ) (block : BlockRecord) : Prop where
  blockId_eq : block.blockId = blockIndex
  nodeCount_pos : 0 < block.nodeCount
  stop_le : block.stop ≤ g.nodes.length
  terminatorNode_eq : block.terminatorNode + 1 = block.stop
  nodeAt : ∀ index, block.firstNode ≤ index → index < block.stop →
    ∃ node opcode, g.NodeAt index node opcode ∧ node.blockIndex = blockIndex ∧
      (isTerminator opcode = true ↔ index + 1 = block.stop)

/-- The blocks of the graph are laid out, and every node lies in its block. -/
structure Layout (g : Graph) : Prop where
  blockAt : ∀ blockIndex block, g.blocks[blockIndex]? = some block → g.BlockAt blockIndex block
  inBlock : ∀ index node, g.nodes[index]? = some node → g.InBlock index node.blockIndex

/-- The tables of the block-range pass hold the ranges of the blocks and the block of every node. -/
structure TablesShow (g : Graph) (tables : BlockTables) : Prop where
  blockStarts_eq : ∀ (blockIndex : ℕ) block, g.blocks[blockIndex]? = some block →
    tables.blockStarts[blockIndex]? = some block.firstNode
  blockEnds_eq : ∀ (blockIndex : ℕ) block, g.blocks[blockIndex]? = some block →
    tables.blockEnds[blockIndex]? = some block.stop
  nodeBlocks_eq : ∀ (index : ℕ) node, g.nodes[index]? = some node →
    tables.nodeBlocks[index]? = some node.blockIndex

/-- The targets of a terminator. -/
def successors (node : NodeRecord) : Opcode → List ℕ
  | .jump => [node.auxiliary0]
  | .branch => [node.auxiliary0, node.auxiliary1]
  | _ => []

/-- The terminator of one block names another. -/
def Edge (g : Graph) (source target : ℕ) : Prop :=
  ∃ block node opcode, g.blocks[source]? = some block ∧
    g.NodeAt block.terminatorNode node opcode ∧ target ∈ successors node opcode

/-- The arguments of a jump fit the parameters of its target: as many, each initialising a block
parameter of its own type. -/
def JumpFits (g : Graph) (node : NodeRecord) (target : BlockRecord) : Prop :=
  node.inputs.countP (fun input ↦ input ≠ noValue) = target.parameterCount ∧
    ∀ (position input : ℕ), (node.inputs.take target.parameterCount)[position]? = some input →
      input ≠ noValue ∧ ∃ parameter producer type,
        g.NodeAt (target.firstNode + position) parameter .blockParam ∧
          g.nodes[input]? = some producer ∧ PythType.ofCode parameter.resultType = some type ∧
            PythType.ofCode producer.resultType = some type

/-- What the control-flow pass checks of a terminator. -/
def TerminatorFits (g : Graph) (node : NodeRecord) (opcode : Opcode) : Prop :=
  (∀ target ∈ successors node opcode, ∃ block, g.blocks[target]? = some block ∧
    (opcode = .jump → g.JumpFits node block) ∧ (opcode = .branch → block.parameterCount = 0))

/-- Every terminator of the graph fits its targets. -/
def Linked (g : Graph) : Prop :=
  ∀ (blockIndex : ℕ) block node opcode, g.blocks[blockIndex]? = some block →
    g.NodeAt block.terminatorNode node opcode → g.TerminatorFits node opcode

variable {g : Graph} {index : ℕ}

theorem NodeAt.unique {node node' : NodeRecord} {opcode opcode' : Opcode}
    (hfirst : g.NodeAt index node opcode) (hsecond : g.NodeAt index node' opcode') :
    node = node' ∧ opcode = opcode' := by
  obtain rfl : node = node' := by simpa [hfirst.1] using hsecond.1
  exact ⟨rfl, by simpa [hfirst.2] using hsecond.2⟩

theorem Edge.source_lt {source target : ℕ} (h : g.Edge source target) : source < g.blocks.length := by
  obtain ⟨record, -, -, hrecord, -⟩ := h
  exact (List.getElem?_eq_some_iff.mp hrecord).1

theorem Linked.target_lt (h : g.Linked) {source target : ℕ}
    (hedge : g.Edge source target) : target < g.blocks.length := by
  obtain ⟨block, node, opcode, hblock, hnode, htarget⟩ := hedge
  obtain ⟨targetBlock, htargetBlock, -⟩ := h source block node opcode hblock hnode target htarget
  exact (List.getElem?_eq_some_iff.mp htargetBlock).1

end Graph

/-! ### Known types and opcodes -/

section Known

variable {package : PythGraphPackage}

theorem safe_verifyKnownTypes (h : package.WellFormed) :
    Safe (verifyKnownTypes package) fun _ ↦ ∀ node ∈ package.graph.nodes,
      ∃ type, PythType.ofCode node.resultType = some type := by
  unfold verifyKnownTypes
  simp only [h.types_eq, h.nodes_eq, ok_bind]
  refine safe_bind (safe_forEach_check fun _ _ _ ↦ safe_reject_not) fun _ _ ↦ ?_
  refine (safe_forEach_check fun _ _ _ ↦ safe_reject_not).mono fun _ hknown node hnode ↦ ?_
  obtain ⟨index, hindex⟩ := List.mem_iff_getElem?.mp hnode
  exact Option.ne_none_iff_exists'.mp (hknown index node hindex)

theorem safe_verifyKnownOpcodes (h : package.WellFormed) :
    Safe (verifyKnownOpcodes package) fun _ ↦ ∀ node ∈ package.graph.nodes,
      ∃ opcode, Opcode.ofCode node.opcode = some opcode := by
  unfold verifyKnownOpcodes
  rw [h.nodes_eq, ok_bind]
  refine (safe_forEach_check fun _ _ _ ↦ safe_reject_not).mono fun _ hknown node hnode ↦ ?_
  obtain ⟨index, hindex⟩ := List.mem_iff_getElem?.mp hnode
  exact Option.ne_none_iff_exists'.mp (hknown index node hindex)

end Known

/-! ### Counting inputs -/

theorem safe_countValues (inputs : List ℕ) (h : inputs.length < usizeSize) :
    Safe (countValues inputs) fun count ↦ count = inputs.countP fun input ↦ input ≠ noValue := by
  refine (safe_forEach (fun seen count ↦ count = (inputs.take seen).countP (· ≠ noValue)) rfl
    ?_).mono fun count hcount ↦ ?_
  · intro position input count hinput hcount
    have hposition : position < inputs.length := (List.getElem?_eq_some_iff.mp hinput).1
    have htake : inputs.take (position + 1) = inputs.take position ++ [input] := by
      rw [List.take_add_one, hinput]
      rfl
    have hle : count ≤ position := by
      rw [hcount]
      exact List.countP_le_length.trans (List.length_take_le _ _)
    simp only [safe_ite, safe_addUsize, safe_pure, htake, List.countP_append, ← hcount,
      List.countP_singleton]
    refine ⟨fun hvalue ↦ ⟨by omega, ?_⟩, fun hvalue ↦ ?_⟩
    · rw [if_pos (by simpa using hvalue)]
    · rw [if_neg (by simpa using hvalue), Nat.add_zero]
  · rw [hcount, List.take_length]

/-! ### Block ranges -/

/-- What holds at the earlier indices and at the next one. -/
theorem forall_lt_succ_getElem? {α : Type} {items : List α} {next : ℕ} {item : α} {P : ℕ → α → Prop}
    (hitem : items[next]? = some item)
    (hbefore : ∀ index other, index < next → items[index]? = some other → P index other)
    (hnext : P next item) : ∀ index other, index < next + 1 → items[index]? = some other → P index other := by
  intro index other hlt hother
  rcases Nat.lt_succ_iff_lt_or_eq.mp hlt with hlow | rfl
  · exact hbefore index other hlow hother
  · exact Option.some_inj.mp (hitem.symm.trans hother) ▸ hnext

/-- A table that shows a field of the earlier items shows it of the next one as well, once it is set. -/
theorem forall_set_getElem? {α β : Type} {items : List α} {next : ℕ} {item : α} {table : List β} {f : α → β}
    (hitem : items[next]? = some item) (hnext : next < table.length)
    (hbefore : ∀ (index : ℕ) other, index < next → items[index]? = some other → table[index]? = some (f other)) :
    ∀ (index : ℕ) other, index < next + 1 → items[index]? = some other →
      (table.set next (f item))[index]? = some (f other) := by
  refine forall_lt_succ_getElem? hitem (fun index other hlt hother ↦ ?_) (List.getElem?_set_self hnext)
  rw [List.getElem?_set_ne hlt.ne']
  exact hbefore index other hlt hother

section Ranges

variable {g : Graph} {nodes : Records NodeRecord} (hnodes : nodes.Shows g.nodes)
  (hcount : g.nodes.length ≤ maxGraphNodes) (hknown : g.Known)

/-- Every entry of the table of node blocks is free or names the block its node lies in. -/
def Owned (g : Graph) (nodeBlocks : List ℕ) : Prop :=
  ∀ (index blockIndex : ℕ), nodeBlocks[index]? = some blockIndex →
    blockIndex = unassigned ∨ g.InBlock index blockIndex

/-- The state of the claiming loop before the node `next`. -/
structure Claimed (g : Graph) (blockIndex : ℕ) (block : BlockRecord) (next : ℕ)
    (state : List ℕ × ℕ) : Prop where
  length_eq : state.1.length = maxGraphNodes
  owned : Owned g state.1
  nodeAt : ∀ index, block.firstNode ≤ index → index < next →
    ∃ node opcode, g.NodeAt index node opcode ∧ node.blockIndex = blockIndex ∧
      (isTerminator opcode = true → index + 1 = block.stop)
  terminators : state.2 = 0 ∨ (state.2 = 1 ∧ next = block.stop ∧
    ∃ node opcode, g.NodeAt (block.stop - 1) node opcode ∧ isTerminator opcode = true)

include hnodes hknown in
theorem safe_claimNode {blockIndex : ℕ} {block : BlockRecord} {index : ℕ} {state : List ℕ × ℕ}
    (hblock : g.blocks[blockIndex]? = some block) (hlow : block.firstNode ≤ index)
    (hhigh : index < block.stop) (hstop : block.stop ≤ maxGraphNodes)
    (h : Claimed g blockIndex block index state) :
    Safe (claimNode nodes block blockIndex block.stop state index)
      (Claimed g blockIndex block (index + 1)) := by
  have hzero : state.2 = 0 := by
    rcases h.terminators with hzero | ⟨-, hend, -⟩
    · exact hzero
    · omega
  have hlength : index < state.1.length := by
    rw [h.length_eq]
    omega
  simp only [claimNode, hnodes.get_eq, safe_bind_iff, safe_index, safe_reject, safe_okOr, safe_setIndex,
    safe_expect, safe_ite, safe_addUsize, safe_pure, not_not]
  refine ⟨_, List.getElem?_eq_getElem hlength, fun _ node hnode hnodeBlock ↦ ⟨hlength, ?_⟩⟩
  obtain ⟨opcode, hopcode⟩ := hknown.opcode node (List.mem_of_getElem? hnode)
  have howned : Owned g (state.1.set index blockIndex) := by
    intro other owner howner
    by_cases heq : index = other
    · subst heq
      rw [List.getElem?_set_self hlength, Option.some_inj] at howner
      exact Or.inr ⟨node, block, hnode, hnodeBlock.trans howner, howner ▸ hblock, hlow, hhigh⟩
    · rw [List.getElem?_set_ne heq] at howner
      exact h.owned other owner howner
  have hnodeAt (hterminator : isTerminator opcode = true → index + 1 = block.stop) :
      ∀ other, block.firstNode ≤ other → other < index + 1 →
        ∃ node opcode, g.NodeAt other node opcode ∧ node.blockIndex = blockIndex ∧
          (isTerminator opcode = true → other + 1 = block.stop) := by
    intro other hother hlt
    rcases Nat.lt_succ_iff_lt_or_eq.mp hlt with hbefore | rfl
    · exact h.nodeAt other hother hbefore
    · exact ⟨node, opcode, ⟨hnode, hopcode⟩, hnodeBlock, hterminator⟩
  have husize : maxGraphNodes < usizeSize := by decide
  refine ⟨opcode, hopcode, fun hterminator ↦ ⟨by omega, by omega, fun hlast ↦ ?_⟩, fun hterminator ↦ ?_⟩
  · refine ⟨List.length_set.trans h.length_eq, howned, hnodeAt fun _ ↦ hlast,
      Or.inr ⟨congrArg (· + 1) hzero, hlast, node, opcode, ?_, hterminator⟩⟩
    rw [← hlast]
    exact ⟨hnode, hopcode⟩
  · exact ⟨List.length_set.trans h.length_eq, howned, hnodeAt fun h ↦ absurd h hterminator, Or.inl hzero⟩

/-- The state of the block-range pass before the block `next`. -/
structure Ranged (g : Graph) (next : ℕ) (tables : BlockTables) : Prop where
  blockStarts_length : tables.blockStarts.length = maxBlocks
  blockEnds_length : tables.blockEnds.length = maxBlocks
  nodeBlocks_length : tables.nodeBlocks.length = maxGraphNodes
  owned : Owned g tables.nodeBlocks
  blockAt : ∀ blockIndex block, blockIndex < next → g.blocks[blockIndex]? = some block →
    g.BlockAt blockIndex block
  blockStarts_eq : ∀ (blockIndex : ℕ) block, blockIndex < next →
    g.blocks[blockIndex]? = some block → tables.blockStarts[blockIndex]? = some block.firstNode
  blockEnds_eq : ∀ (blockIndex : ℕ) block, blockIndex < next →
    g.blocks[blockIndex]? = some block → tables.blockEnds[blockIndex]? = some block.stop

theorem ranged_init (g : Graph) : Ranged g 0 BlockTables.init where
  blockStarts_length := List.length_replicate
  blockEnds_length := List.length_replicate
  nodeBlocks_length := List.length_replicate
  owned := by
    intro index blockIndex h
    exact Or.inl (List.eq_of_mem_replicate (List.mem_of_getElem? h))
  blockAt := nofun
  blockStarts_eq := nofun
  blockEnds_eq := nofun

include hnodes hcount hknown in
theorem safe_verifyBlockRange {blockIndex : ℕ} {block : BlockRecord} {tables : BlockTables}
    (hblock : g.blocks[blockIndex]? = some block) (hindex : blockIndex < maxBlocks)
    (h : Ranged g blockIndex tables) :
    Safe (verifyBlockRange nodes tables blockIndex block) (Ranged g (blockIndex + 1)) := by
  have hsmall : asU32 blockIndex = blockIndex := asU32_of_lt (hindex.trans (by decide))
  simp only [verifyBlockRange, hsmall, hnodes.len_eq, h.nodeBlocks_length, safe_bind_iff, safe_checkedAdd,
    safe_reject, safe_setIndex, safe_subUsize, safe_pure, not_not, not_or, gt_iff_lt, not_lt]
  rintro - ⟨hid, hpos, hend : block.stop ≤ _⟩
  have hstopLe : block.stop ≤ maxGraphNodes := hend.trans hcount
  refine ⟨h.blockStarts_length.symm ▸ hindex, h.blockEnds_length.symm ▸ hindex, ?_⟩
  show Safe (forRange block.firstNode (min block.stop maxGraphNodes) _ _) _
  rw [min_eq_left hstopLe]
  have hloop : Safe (forRange block.firstNode block.stop (tables.nodeBlocks, 0)
      (claimNode nodes block blockIndex block.stop)) (Claimed g blockIndex block block.stop) :=
    safe_forRange (Claimed g blockIndex block) (Nat.le_add_right _ _)
      ⟨h.nodeBlocks_length, h.owned, fun index hlow hhigh ↦ by omega, Or.inl rfl⟩
      fun index state hlow hhigh hstate ↦
        safe_claimNode hnodes hknown hblock hlow hhigh hstopLe hstate
  refine hloop.mono fun claimed hclaimed hsome _ ↦ ⟨by omega, fun hterminator ↦ ?_⟩
  rw [asU32_of_lt (by unfold maxGraphNodes BlockRecord.stop at hstopLe; omega)] at hterminator
  rcases hclaimed.terminators with hzero | ⟨-, -, lastNode, lastOpcode, hlastNode, hlastOpcode⟩
  · exact absurd hzero hsome
  have hblockAt : g.BlockAt blockIndex block := by
    refine ⟨hid, Nat.pos_of_ne_zero hpos, hend, ?_, ?_⟩
    · unfold BlockRecord.stop
      omega
    · intro index hlow hhigh
      obtain ⟨node, opcode, hnode, howner, honly⟩ := hclaimed.nodeAt index hlow hhigh
      refine ⟨node, opcode, hnode, howner, honly, fun hstop ↦ ?_⟩
      rw [← hstop] at hlastNode
      obtain ⟨-, rfl⟩ := hlastNode.unique hnode
      exact hlastOpcode
  refine ⟨List.length_set.trans h.blockStarts_length, List.length_set.trans h.blockEnds_length,
    hclaimed.length_eq, hclaimed.owned, forall_lt_succ_getElem? hblock h.blockAt hblockAt, ?_, ?_⟩
  · exact forall_set_getElem? hblock (h.blockStarts_length.symm ▸ hindex) h.blockStarts_eq
  · exact forall_set_getElem? hblock (h.blockEnds_length.symm ▸ hindex) h.blockEnds_eq

end Ranges

section Passes

variable {package : PythGraphPackage}

/-- The block-range pass accepts only laid out graphs, and its tables show the layout. -/
theorem safe_verifyBlockRanges (h : package.WellFormed) (hknown : package.graph.Known) :
    Safe (verifyBlockRanges package) fun tables ↦
      package.graph.Layout ∧ package.graph.TablesShow tables := by
  unfold verifyBlockRanges
  rw [h.nodes_eq, h.blocks_eq, ok_bind, ok_bind]
  have hranges := safe_forEach (Ranged package.graph) (ranged_init package.graph)
    fun position block tables hblock hranged ↦
      safe_verifyBlockRange h.shows_nodes h.length_nodes_le hknown hblock
        (lt_of_lt_of_le (List.getElem?_eq_some_iff.mp hblock).1 h.length_blocks_le) hranged
  refine safe_bind hranges fun tables hranged ↦ ?_
  refine safe_bind (safe_forEach_check fun position nodeBlock _ ↦
    (?_ : Safe _ fun _ ↦ nodeBlock ≠ unassigned)) fun _ hassigned ↦ ?_
  · simp only [safe_ite, safe_bind_iff, safe_okOr, safe_fail, safe_pure, implies_true, true_and]
    exact fun hne ↦ hne
  have hnodeBlock : ∀ (index : ℕ) node, package.graph.nodes[index]? = some node →
      tables.nodeBlocks[index]? = some node.blockIndex ∧
        package.graph.InBlock index node.blockIndex := by
    intro index node hnode
    have hindex : index < package.graph.nodes.length := (List.getElem?_eq_some_iff.mp hnode).1
    have hlt : index < tables.nodeBlocks.length := by
      rw [hranged.nodeBlocks_length]
      exact lt_of_lt_of_le hindex h.length_nodes_le
    have hentry := List.getElem?_eq_getElem hlt
    have htaken : (tables.nodeBlocks.take package.nodeRecords.len)[index]? =
        some tables.nodeBlocks[index] := by
      rw [List.getElem?_take_of_lt (h.shows_nodes.len_eq.symm ▸ hindex)]
      exact hentry
    rcases hranged.owned index _ hentry with hfree | hblock
    · exact absurd hfree (hassigned index _ htaken)
    · have hin := hblock
      obtain ⟨owner, -, howner, hindexEq, -⟩ := hin
      obtain rfl : owner = node := by simpa [howner] using hnode
      rw [hindexEq]
      exact ⟨hentry, hblock⟩
  have hblockLt : ∀ (blockIndex : ℕ) block, package.graph.blocks[blockIndex]? = some block →
      blockIndex < package.graph.blocks.length :=
    fun _ _ hblock ↦ (List.getElem?_eq_some_iff.mp hblock).1
  refine ⟨⟨fun blockIndex block hblock ↦ ?_, fun index node hnode ↦ (hnodeBlock index node hnode).2⟩,
    fun blockIndex block hblock ↦ ?_, fun blockIndex block hblock ↦ ?_,
    fun index node hnode ↦ (hnodeBlock index node hnode).1⟩
  · exact hranged.blockAt blockIndex block (hblockLt _ _ hblock) hblock
  · exact hranged.blockStarts_eq blockIndex block (hblockLt _ _ hblock) hblock
  · exact hranged.blockEnds_eq blockIndex block (hblockLt _ _ hblock) hblock

end Passes

/-! ### Control flow -/

section ControlFlow

variable {g : Graph} {nodes : Records NodeRecord} {blocks : Records BlockRecord}
  (hnodes : nodes.Shows g.nodes) (hblocks : blocks.Shows g.blocks) (hknown : g.Known)

include hblocks in
theorem safe_validateTarget (source target : ℕ) :
    Safe (validateTarget blocks source target) fun _ ↦ ∃ block, g.blocks[target]? = some block := by
  refine safe_reject.mpr fun h ↦ ?_
  rw [hblocks.len_eq, not_le] at h
  exact ⟨_, List.getElem?_eq_getElem h⟩

include hnodes hknown in
theorem safe_validateJumpArgument (terminatorIndex : ℕ) (target : BlockRecord)
    (position input : ℕ) :
    Safe (validateJumpArgument nodes terminatorIndex target position input) fun _ ↦
      input ≠ noValue ∧ ∃ parameter producer type,
        g.NodeAt (target.firstNode + position) parameter .blockParam ∧
          g.nodes[input]? = some producer ∧ PythType.ofCode parameter.resultType = some type ∧
            PythType.ofCode producer.resultType = some type := by
  simp only [validateJumpArgument, hnodes.get_eq, safe_bind_iff, safe_reject, safe_checkedAdd, safe_okOr,
    safe_expect, not_not]
  intro hinput _ parameter hparameter
  obtain ⟨opcode, hopcode⟩ := hknown.opcode parameter (List.mem_of_getElem? hparameter)
  refine ⟨opcode, hopcode, fun hblockParam producer hproducer ↦ ?_⟩
  obtain ⟨actual, hactual⟩ := hknown.resultType producer (List.mem_of_getElem? hproducer)
  obtain ⟨expected, hexpected⟩ := hknown.resultType parameter (List.mem_of_getElem? hparameter)
  refine ⟨actual, hactual, expected, hexpected, fun htype ↦ ?_⟩
  subst htype hblockParam
  exact ⟨hinput, parameter, producer, actual, ⟨hparameter, hopcode⟩, hproducer, hexpected, hactual⟩

include hnodes hblocks hknown in
theorem safe_validateJumpArity (terminatorIndex : ℕ) (terminator : NodeRecord) (source : ℕ)
    {target : ℕ} {block : BlockRecord} (hblock : g.blocks[target]? = some block) :
    Safe (validateJumpArity nodes blocks terminatorIndex terminator source target) fun _ ↦
      g.JumpFits terminator block := by
  unfold validateJumpArity
  rw [hblocks.get_eq]
  refine safe_expect_bind hblock ?_
  refine safe_bind (safe_countValues terminator.inputs
    (show 4 < usizeSize by decide)) fun provided hprovided ↦ ?_
  refine safe_reject_bind fun hcount ↦ ?_
  rw [not_not, hprovided] at hcount
  refine (safe_forEach_check fun position input _ ↦
    safe_validateJumpArgument hnodes hknown terminatorIndex block position input).mono fun _ h ↦ ?_
  exact ⟨hcount, h⟩

include hblocks in
theorem safe_validateBranchArity (source : ℕ) {target : ℕ} {block : BlockRecord}
    (hblock : g.blocks[target]? = some block) :
    Safe (validateBranchArity blocks source target) fun _ ↦ block.parameterCount = 0 := by
  unfold validateBranchArity
  rw [hblocks.get_eq]
  refine safe_expect_bind hblock ?_
  exact safe_reject.mpr fun h ↦ not_not.mp h

include hnodes hblocks hknown in
theorem safe_verifyTerminator (block : BlockRecord) (terminatorIndex : ℕ)
    (terminator : NodeRecord) {opcode : Opcode} (hterminator : isTerminator opcode = true) :
    Safe (verifyTerminator nodes blocks block terminatorIndex terminator opcode) fun _ ↦
      g.TerminatorFits terminator opcode := by
  rcases isTerminator_iff.mp hterminator with rfl | rfl | rfl
  · refine safe_bind (safe_validateTarget hblocks _ _) fun _ htarget ↦ ?_
    obtain ⟨target, htarget⟩ := htarget
    refine (safe_validateJumpArity hnodes hblocks hknown _ _ _ htarget).mono fun _ hfits ↦ ?_
    intro next hnext
    obtain rfl : next = terminator.auxiliary0 := by simpa [Graph.successors] using hnext
    exact ⟨target, htarget, fun _ ↦ hfits, fun h ↦ by simp at h⟩
  · refine safe_bind (safe_validateTarget hblocks _ _) fun _ honTrue ↦ ?_
    refine safe_bind (safe_validateTarget hblocks _ _) fun _ honFalse ↦ ?_
    obtain ⟨onTrue, honTrue⟩ := honTrue
    obtain ⟨onFalse, honFalse⟩ := honFalse
    refine safe_bind (safe_validateBranchArity hblocks _ honTrue) fun _ hzeroTrue ↦ ?_
    refine (safe_validateBranchArity hblocks _ honFalse).mono fun _ hzeroFalse ↦ ?_
    intro next hnext
    have hnext : next = terminator.auxiliary0 ∨ next = terminator.auxiliary1 := by
      simpa [Graph.successors] using hnext
    rcases hnext with rfl | rfl
    · exact ⟨onTrue, honTrue, fun h ↦ by simp at h, fun _ ↦ hzeroTrue⟩
    · exact ⟨onFalse, honFalse, fun h ↦ by simp at h, fun _ ↦ hzeroFalse⟩
  · intro next hnext
    simp [Graph.successors] at hnext

include hnodes hblocks hknown in
theorem safe_verifyBlockControlFlow (hlayout : g.Layout) {tables : BlockTables}
    (htables : g.TablesShow tables) {blockIndex : ℕ} {block : BlockRecord}
    (hblock : g.blocks[blockIndex]? = some block) :
    Safe (verifyBlockControlFlow nodes blocks tables blockIndex) fun _ ↦
      ∀ node opcode, g.NodeAt block.terminatorNode node opcode → g.TerminatorFits node opcode := by
  have hat := hlayout.blockAt blockIndex block hblock
  have hfirst : block.firstNode ≤ block.terminatorNode := by
    have hstop : block.stop = block.firstNode + block.nodeCount := rfl
    have := hat.terminatorNode_eq
    have := hat.nodeCount_pos
    omega
  unfold verifyBlockControlFlow
  rw [hblocks.get_eq]
  obtain ⟨node, opcode, hnode, -, hlast⟩ := hat.nodeAt block.terminatorNode hfirst
    (by have := hat.terminatorNode_eq; omega)
  simp only [safe_bind_iff, safe_expect, safe_index, safe_subUsize, hnodes.get_eq]
  refine ⟨block, hblock, block.stop, htables.blockEnds_eq blockIndex block hblock,
    by have := hat.terminatorNode_eq; omega, ?_⟩
  rw [show block.stop - 1 = block.terminatorNode by have := hat.terminatorNode_eq; omega]
  refine ⟨node, hnode.1, opcode, hnode.2, (safe_verifyTerminator hnodes hblocks hknown block _ node
    (hlast.mpr hat.terminatorNode_eq)).mono fun _ hfits ↦ ?_⟩
  refine ⟨_, htables.blockStarts_eq blockIndex block hblock, (safe_forRange_check hfirst
    fun index hlow hhigh ↦ (?_ : Safe _ fun _ ↦ True)).mono fun _ _ other otherOpcode hother ↦ ?_⟩
  · obtain ⟨inner, innerOpcode, hinner, -, -⟩ := hat.nodeAt index hlow
      (by have := hat.terminatorNode_eq; omega)
    refine safe_expect_bind hinner.1 (safe_expect_bind hinner.2 ?_)
    exact safe_reject.mpr fun _ ↦ trivial
  · obtain ⟨rfl, rfl⟩ := hnode.unique hother
    exact hfits

end ControlFlow

/-- The control-flow pass accepts only graphs whose terminators fit their targets. -/
theorem safe_verifyControlFlow {package : PythGraphPackage} (h : package.WellFormed)
    (hknown : package.graph.Known) (hlayout : package.graph.Layout) {tables : BlockTables}
    (htables : package.graph.TablesShow tables) :
    Safe (verifyControlFlow package tables) fun _ ↦ package.graph.Linked := by
  unfold verifyControlFlow
  rw [h.nodes_eq, h.blocks_eq, ok_bind, ok_bind, h.shows_blocks.len_eq]
  refine (safe_forRange_check (Nat.zero_le _) fun blockIndex _ hlt ↦
    (?_ : Safe _ fun _ ↦ ∀ block node opcode, package.graph.blocks[blockIndex]? = some block →
      package.graph.NodeAt block.terminatorNode node opcode →
        package.graph.TerminatorFits node opcode)).mono fun _ hfits blockIndex block node opcode
          hblock ↦ ?_
  · have hblock := List.getElem?_eq_getElem hlt
    refine (safe_verifyBlockControlFlow h.shows_nodes h.shows_blocks hknown hlayout htables
      hblock).mono fun _ hfits block node opcode hother hnode ↦ ?_
    rw [hblock, Option.some_inj] at hother
    exact hfits node opcode (hother ▸ hnode)
  · exact hfits blockIndex (Nat.zero_le _) (List.getElem?_eq_some_iff.mp hblock).1 block node opcode
      hblock

end Pythos.Tig
