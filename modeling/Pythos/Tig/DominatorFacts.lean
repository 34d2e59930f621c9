import Pythos.Foundation.BitSet
import Pythos.Foundation.Dominance
import Pythos.Tig.BlockFacts
import Mathlib.Algebra.BigOperators.Group.Finset.Basic
import Mathlib.Algebra.Order.BigOperators.Group.Finset

/-!
# What the reachability and dominator passes guarantee

Both loops of the verifier over sets of blocks end. The reachability loop takes a bit out of the pending
set in every iteration and puts back at most two bits for each block it reaches (`safe_reachableLoop`);
the dominator loop makes the total size of its table smaller in every pass but the last
(`safe_dominatorLoop`). The table it leaves solves the dominator equations (`Dominated`), so that
along every walk it holds only visited blocks (`Dominated.closed`), and every input that the
availability pass accepts comes from an earlier node of its block or from a block of the table
(`Available`).
-/

namespace Pythos.Tig

open Foundation

/-! ### Masks of blocks -/

theorem safe_blockBit {block : ℕ} (h : block < 128) :
    Safe (blockBit block) fun bit ↦ bit = 1#128 <<< block := by
  unfold blockBit
  rw [if_pos h]
  exact rfl

theorem safe_blockBit_bind {α : Type} {f : BitVec 128 → Checked VerifyError α} {post : α → Prop}
    {block : ℕ} (h : block < 128) (hf : Safe (f (1#128 <<< block)) post) :
    Safe (blockBit block >>= f) post :=
  safe_bind (safe_blockBit h) fun _ hbit ↦ hbit ▸ hf

theorem trailingZeros_mem {bits : BitVec 128} (h : bits ≠ 0) : trailingZeros bits ∈ members bits := by
  have hnonempty : (members bits).Nonempty :=
    Finset.nonempty_iff_ne_empty.mpr fun hempty ↦ h (members_eq_empty_iff.mp hempty)
  obtain ⟨position, hposition⟩ := hnonempty
  unfold trailingZeros
  cases hfind : (List.range 128).find? fun position ↦ bits.getLsbD position with
  | none =>
    have hnone := List.find?_eq_none.mp hfind position
      (List.mem_range.mpr (lt_of_mem_members hposition))
    exact absurd (mem_members.mp hposition) hnone
  | some found => exact mem_members.mpr (List.find?_some hfind)

/-! ### Reachability -/

section Reachability

variable {g : Graph} {nodes : Records NodeRecord} {blocks : Records BlockRecord}
  (hnodes : nodes.Shows g.nodes) (hblocks : blocks.Shows g.blocks)
  (hcount : g.blocks.length ≤ maxBlocks) (hlayout : g.Layout) (hlinked : g.Linked)

variable {blockIndex : ℕ} {block : BlockRecord}

theorem Graph.BlockAt.terminatorAt (h : g.BlockAt blockIndex block) :
    ∃ node opcode, g.NodeAt block.terminatorNode node opcode ∧
      node.blockIndex = blockIndex ∧ isTerminator opcode = true := by
  have hlast := h.terminatorNode_eq
  have hpos := h.nodeCount_pos
  have hstop : block.stop = block.firstNode + block.nodeCount := rfl
  obtain ⟨node, opcode, hnode, howner, hterminator⟩ :=
    h.nodeAt block.terminatorNode (by omega) (by omega)
  exact ⟨node, opcode, hnode, howner, hterminator.mpr hlast⟩

include hnodes hlayout in
theorem safe_terminatorOf (hblock : g.blocks[blockIndex]? = some block) :
    Safe (terminatorOf nodes block) fun terminator ↦
      g.NodeAt block.terminatorNode terminator.1 terminator.2 := by
  obtain ⟨node, opcode, hnode, -, -⟩ := (hlayout.blockAt blockIndex block hblock).terminatorAt
  simp only [terminatorOf, hnodes.get_eq, safe_bind_iff, safe_okOr, safe_expect, safe_pure]
  intro other hother
  obtain rfl : node = other := by simpa [hnode.1] using hother
  exact ⟨opcode, hnode.2, hnode⟩

theorem safe_pendingTargets (pending : BitVec 128) (node : NodeRecord) (opcode : Opcode)
    (h : ∀ target ∈ Graph.successors node opcode, target < 128) :
    Safe (pendingTargets pending node opcode) fun result ↦
      members result = members pending ∪ (Graph.successors node opcode).toFinset := by
  cases opcode with
  | jump =>
    have htarget : node.auxiliary0 < 128 := h _ (List.mem_singleton_self _)
    refine safe_bind (safe_blockBit htarget) fun target htargetBit ↦ ?_
    rw [safe_pure, htargetBit, members_or, members_single htarget]
    rfl
  | branch =>
    have honTrue : node.auxiliary0 < 128 := h _ (by simp [Graph.successors])
    have honFalse : node.auxiliary1 < 128 := h _ (by simp [Graph.successors])
    refine safe_bind (safe_blockBit honTrue) fun onTrue honTrueBit ↦ ?_
    refine safe_bind (safe_blockBit honFalse) fun onFalse honFalseBit ↦ ?_
    rw [safe_pure, honTrueBit, honFalseBit, members_or, members_or, members_single honTrue,
      members_single honFalse]
    ext other
    simp [Graph.successors]
  | _ => exact safe_pure.mpr (by simp [Graph.successors])

theorem card_successors_le (node : NodeRecord) (opcode : Opcode) :
    (Graph.successors node opcode).toFinset.card ≤ 2 := by
  refine (List.toFinset_card_le _).trans ?_
  cases opcode <;> simp [Graph.successors]

theorem Graph.NodeAt.edge_iff {node : NodeRecord} {opcode : Opcode}
    (hnode : g.NodeAt block.terminatorNode node opcode)
    (hblock : g.blocks[blockIndex]? = some block) (target : ℕ) :
    g.Edge blockIndex target ↔ target ∈ Graph.successors node opcode := by
  constructor
  · rintro ⟨block', node', opcode', hblock', hnode', htarget⟩
    obtain rfl : block = block' := by simpa [hblock] using hblock'
    obtain ⟨rfl, rfl⟩ := hnode.unique hnode'
    exact htarget
  · exact fun htarget ↦ ⟨block, node, opcode, hblock, hnode, htarget⟩

/-- The state of the reachability loop: what was found is reachable, and the successors of every
reached block were found. -/
structure Explored (g : Graph) (reachable pending : BitVec 128) : Prop where
  reachable_lt : ∀ block ∈ members reachable, block < g.blocks.length
  pending_lt : ∀ block ∈ members pending, block < g.blocks.length
  sound : ∀ block ∈ members reachable ∪ members pending,
    Relation.ReflTransGen g.Edge g.entryBlock block
  closed : ∀ block ∈ members reachable, ∀ target, g.Edge block target →
    target ∈ members reachable ∪ members pending
  entry_mem : g.entryBlock ∈ members reachable ∪ members pending

/-- A bound of the number of iterations that are left. -/
def exploreMeasure (reachable pending : BitVec 128) : ℕ :=
  (members pending).card + 3 * (128 - (members reachable).card)

theorem Explored.drop_pending {reachable pending pending' : BitVec 128} {block : ℕ}
    (h : Explored g reachable pending) (hblock : block ∈ members reachable)
    (hpending : members pending' = (members pending).erase block) :
    Explored g reachable pending' := by
  have hunion : members reachable ∪ members pending' = members reachable ∪ members pending := by
    ext other
    rw [hpending, Finset.mem_union, Finset.mem_union, Finset.mem_erase]
    by_cases heq : other = block
    · rw [heq]
      exact iff_of_true (Or.inl hblock) (Or.inl hblock)
    · simp [heq]
  refine ⟨h.reachable_lt, fun other hother ↦ h.pending_lt other ?_, ?_, ?_, ?_⟩
  · exact Finset.mem_of_mem_erase (hpending ▸ hother)
  · rw [hunion]
    exact h.sound
  · rw [hunion]
    exact h.closed
  · rw [hunion]
    exact h.entry_mem

theorem Explored.reach {reachable pending reachable' pending' : BitVec 128} {node : NodeRecord}
    {opcode : Opcode} (hlinked : g.Linked) (h : Explored g reachable pending)
    (hmem : blockIndex ∈ members pending) (hblock : g.blocks[blockIndex]? = some block)
    (hnode : g.NodeAt block.terminatorNode node opcode)
    (hreachable : members reachable' = insert blockIndex (members reachable))
    (hpending : members pending' =
      (members pending).erase blockIndex ∪ (Graph.successors node opcode).toFinset) :
    Explored g reachable' pending' := by
  have hblockReach := h.sound blockIndex (Finset.mem_union_right _ hmem)
  have hedge := hnode.edge_iff hblock
  have hold : ∀ other ∈ members reachable ∪ members pending,
      other ∈ members reachable' ∪ members pending' := by
    intro other hother
    rw [hreachable, hpending]
    by_cases heq : other = blockIndex
    · simp [heq]
    · rcases Finset.mem_union.mp hother with hin | hin
      · exact Finset.mem_union_left _ (Finset.mem_insert_of_mem hin)
      · exact Finset.mem_union_right _ (Finset.mem_union_left _ (Finset.mem_erase.mpr ⟨heq, hin⟩))
  have hnew : ∀ target ∈ Graph.successors node opcode, target ∈ members pending' := by
    intro target htarget
    rw [hpending]
    exact Finset.mem_union_right _ (List.mem_toFinset.mpr htarget)
  refine ⟨?_, ?_, ?_, ?_, hold _ h.entry_mem⟩
  · intro other hother
    rcases Finset.mem_insert.mp (hreachable ▸ hother) with rfl | hin
    · exact h.pending_lt _ hmem
    · exact h.reachable_lt other hin
  · intro other hother
    rcases Finset.mem_union.mp (hpending ▸ hother) with hin | hin
    · exact h.pending_lt other (Finset.mem_of_mem_erase hin)
    · exact hlinked.target_lt ((hedge other).mpr (List.mem_toFinset.mp hin))
  · intro other hother
    rcases Finset.mem_union.mp hother with hin | hin
    · rcases Finset.mem_insert.mp (hreachable ▸ hin) with rfl | hin
      · exact hblockReach
      · exact h.sound other (Finset.mem_union_left _ hin)
    · rcases Finset.mem_union.mp (hpending ▸ hin) with hin | hin
      · exact h.sound other (Finset.mem_union_right _ (Finset.mem_of_mem_erase hin))
      · exact hblockReach.tail ((hedge other).mpr (List.mem_toFinset.mp hin))
  · intro source hsource target htarget
    rcases Finset.mem_insert.mp (hreachable ▸ hsource) with rfl | hin
    · exact Finset.mem_union_right _ (hnew target ((hedge target).mp htarget))
    · exact hold target (h.closed source hin target htarget)

include hnodes hblocks hcount hlayout hlinked in
/-- The reachability loop ends within its fuel, with an empty pending set. -/
theorem safe_reachableLoop (fuel : ℕ) : ∀ (reachable pending : BitVec 128),
    Explored g reachable pending → exploreMeasure reachable pending < fuel →
      Safe (reachableLoop nodes blocks fuel reachable pending) fun result ↦
        Explored g result 0 := by
  induction fuel with
  | zero => exact nofun
  | succ fuel ih =>
    intro reachable pending h hfuel
    unfold reachableLoop
    refine safe_ite.mpr ⟨fun hzero ↦ safe_pure.mpr (hzero ▸ h), fun hne ↦ ?_⟩
    have hmem := trailingZeros_mem hne
    have hlt := lt_of_mem_members hmem
    have hcard := Finset.card_erase_of_mem hmem
    have hpos : 0 < (members pending).card := Finset.card_pos.mpr ⟨_, hmem⟩
    refine safe_blockBit_bind hlt ?_
    have hpending := members_and_not_single pending hlt
    refine safe_ite.mpr ⟨fun hseen ↦ ?_, fun hfresh ↦ ?_⟩
    · refine ih _ _ (h.drop_pending ((and_single_eq_zero_iff hlt).not_left.mp hseen) hpending) ?_
      unfold exploreMeasure at hfuel ⊢
      rw [hpending, hcard]
      omega
    · have hnotin : trailingZeros pending ∉ members reachable :=
        (and_single_eq_zero_iff hlt).mp (not_not.mp hfresh)
      obtain ⟨block, hblock⟩ : ∃ block, g.blocks[trailingZeros pending]? = some block :=
        ⟨_, List.getElem?_eq_getElem (h.pending_lt _ hmem)⟩
      rw [hblocks.get_eq]
      refine safe_expect_bind hblock ?_
      refine safe_bind (safe_terminatorOf hnodes hlayout hblock) fun terminator hterminator ↦ ?_
      have htargets : ∀ target ∈ Graph.successors terminator.1 terminator.2, target < 128 :=
        fun target htarget ↦ lt_of_lt_of_le
          (hlinked.target_lt ⟨block, _, _, hblock, hterminator, htarget⟩) hcount
      refine safe_bind (safe_pendingTargets _ _ _ htargets) fun pending' hpending' ↦ ?_
      rw [hpending] at hpending'
      have hreachable : members (reachable ||| 1#128 <<< trailingZeros pending) =
          insert (trailingZeros pending) (members reachable) := by
        rw [members_or, members_single hlt, Finset.union_singleton]
      refine ih _ _ (h.reach hlinked hmem hblock hterminator hreachable hpending') ?_
      have hgrow := Finset.card_insert_of_notMem hnotin
      have hsize := card_members_le (reachable ||| 1#128 <<< trailingZeros pending)
      have hunion := (Finset.card_union_le ((members pending).erase (trailingZeros pending))
        (Graph.successors terminator.1 terminator.2).toFinset).trans
          (Nat.add_le_add_left (card_successors_le _ _) _)
      unfold exploreMeasure at hfuel ⊢
      rw [hreachable] at hsize ⊢
      rw [hpending']
      omega

/-- What the loop finds when nothing is left to visit is what the entry reaches. -/
theorem Explored.mem_iff {reachable : BitVec 128} (h : Explored g reachable 0) (block : ℕ) :
    block ∈ members reachable ↔ Relation.ReflTransGen g.Edge g.entryBlock block := by
  have hunion : members reachable ∪ members (0 : BitVec 128) = members reachable := by simp
  constructor
  · exact fun hblock ↦ h.sound block (Finset.mem_union_left _ hblock)
  · intro hreach
    induction hreach with
    | refl => exact hunion ▸ h.entry_mem
    | tail _ hedge ih => exact hunion ▸ h.closed _ ih _ hedge

include hnodes hblocks hcount hlayout hlinked in
/-- The reachability loop from the entry finds the blocks that the entry reaches. -/
theorem safe_reachableLoop_entry (hentry : g.entryBlock < g.blocks.length) :
    Safe (reachableLoop nodes blocks reachableFuel 0 (1#128 <<< g.entryBlock)) fun reachable ↦
      ∀ block, block ∈ members reachable ↔ Relation.ReflTransGen g.Edge g.entryBlock block := by
  have hlt : g.entryBlock < 128 := lt_of_lt_of_le hentry hcount
  have hsingle := members_single hlt
  have hzero : members (0 : BitVec 128) = ∅ := members_zero
  have hstart : Explored g 0 (1#128 <<< g.entryBlock) := by
    refine ⟨by simp, ?_, ?_, by simp, ?_⟩
    · intro block hblock
      rw [hsingle, Finset.mem_singleton] at hblock
      exact hblock ▸ hentry
    · intro block hblock
      rw [hsingle, hzero, Finset.empty_union, Finset.mem_singleton] at hblock
      exact hblock ▸ .refl
    · rw [hsingle]
      simp
  refine (safe_reachableLoop hnodes hblocks hcount hlayout hlinked _ _ _ hstart ?_).mono fun _ h ↦ h.mem_iff
  unfold exploreMeasure reachableFuel maxBlocks
  rw [hsingle, hzero, Finset.card_empty, Finset.card_singleton]
  omega

end Reachability

variable {package : PythGraphPackage}

/-- The reachability pass accepts only graphs whose blocks are all reachable from the entry. -/
theorem safe_verifyReachableBlocks (h : package.WellFormed) (hlayout : package.graph.Layout)
    (hlinked : package.graph.Linked) :
    Safe (verifyReachableBlocks package) fun _ ↦
      package.graph.entryBlock < package.graph.blocks.length ∧
        ∀ block < package.graph.blocks.length,
          Relation.ReflTransGen package.graph.Edge package.graph.entryBlock block := by
  unfold verifyReachableBlocks
  rw [h.nodes_eq, h.blocks_eq, ok_bind, ok_bind, h.shows_blocks.len_eq]
  refine safe_reject_bind fun hentry ↦ ?_
  rw [not_le] at hentry
  refine safe_blockBit_bind (lt_of_lt_of_le hentry h.length_blocks_le) ?_
  refine safe_bind (safe_reachableLoop_entry h.shows_nodes h.shows_blocks h.length_blocks_le hlayout
    hlinked hentry) fun reachable hreachable ↦ ?_
  refine (safe_forRange_check (Nat.zero_le _) fun block _ hlt ↦ (?_ : Safe _ fun _ ↦
    block ∈ members reachable)).mono fun _ hall ↦ ⟨hentry, fun block hlt ↦ ?_⟩
  · have hblockLt : block < 128 := lt_of_lt_of_le hlt h.length_blocks_le
    refine safe_blockBit_bind hblockLt ?_
    simp only [safe_ite, h.shows_blocks.get_eq, safe_bind_iff, safe_expect, safe_fail, safe_pure, and_true]
    exact ⟨fun _ ↦ ⟨_, List.getElem?_eq_getElem hlt⟩, (and_single_eq_zero_iff hblockLt).not_left.mp⟩
  · exact (hreachable block).mp (hall block (Nat.zero_le _) hlt)

/-! ### Predecessors -/

section Predecessors

variable {g : Graph} {nodes : Records NodeRecord} {blocks : Records BlockRecord}
  (hnodes : nodes.Shows g.nodes) (hblocks : blocks.Shows g.blocks)
  (hcount : g.blocks.length ≤ maxBlocks) (hlayout : g.Layout) (hlinked : g.Linked)

/-- The set that a table of masks holds at an index. -/
def maskAt (table : List (BitVec 128)) (index : ℕ) : Finset ℕ :=
  members (table.getD index 0)

theorem maskAt_set (table : List (BitVec 128)) {index : ℕ} (h : index < table.length)
    (value : BitVec 128) (other : ℕ) :
    maskAt (table.set index value) other = if other = index then members value
      else maskAt table other := by
  unfold maskAt
  rw [List.getD_eq_getElem?_getD, List.getD_eq_getElem?_getD]
  split_ifs with heq
  · rw [heq, List.getElem?_set_self h]
    rfl
  · rw [List.getElem?_set_ne (Ne.symm heq)]

theorem maskAt_of_getElem? {table : List (BitVec 128)} {index : ℕ} {value : BitVec 128}
    (h : table[index]? = some value) : maskAt table index = members value := by
  unfold maskAt
  rw [List.getD_eq_getElem?_getD, h]
  rfl

theorem safe_mask_bind {ε α : Type} {table : List (BitVec 128)} {position : ℕ}
    {f : BitVec 128 → Checked ε α} {post : α → Prop} (h : position < table.length)
    (hf : ∀ mask, maskAt table position = members mask → Safe (f mask) post) :
    Safe (index table position >>= f) post :=
  safe_index_bind (List.getElem?_eq_getElem h) (hf _ (maskAt_of_getElem? (List.getElem?_eq_getElem h)))

/-- The table of predecessors after the blocks before `next`. -/
structure Preceded (g : Graph) (next : ℕ) (predecessors : List (BitVec 128)) : Prop where
  length_eq : predecessors.length = maxBlocks
  mem_iff : ∀ target source, source ∈ maskAt predecessors target ↔
    source < next ∧ g.Edge source target

theorem safe_addPredecessor {predecessors : List (BitVec 128)} {target source : ℕ}
    (hlength : predecessors.length = maxBlocks) (htarget : target < maxBlocks)
    (hsource : source < 128) :
    Safe (addPredecessor predecessors target (1#128 <<< source)) fun result ↦
      result.length = maxBlocks ∧ ∀ other, maskAt result other =
        if other = target then insert source (maskAt predecessors target)
          else maskAt predecessors other := by
  have hlt : target < predecessors.length := hlength.symm ▸ htarget
  refine safe_mask_bind hlt fun current hcurrent ↦ ?_
  refine safe_setIndex.mpr ⟨hlt, List.length_set.trans hlength, fun other ↦ ?_⟩
  rw [maskAt_set predecessors hlt, members_or, members_single hsource, Finset.union_singleton, hcurrent]

include hnodes hblocks hcount hlayout hlinked in
theorem safe_blockPredecessors {blockIndex : ℕ} (hblockLt : blockIndex < g.blocks.length)
    {predecessors : List (BitVec 128)} (h : Preceded g blockIndex predecessors) :
    Safe (blockPredecessors nodes blocks predecessors blockIndex) (Preceded g (blockIndex + 1)) := by
  obtain ⟨block, hblock⟩ : ∃ block, g.blocks[blockIndex]? = some block :=
    ⟨_, List.getElem?_eq_getElem hblockLt⟩
  have hsource : blockIndex < 128 := lt_of_lt_of_le hblockLt hcount
  unfold blockPredecessors
  rw [hblocks.get_eq]
  refine safe_expect_bind hblock ?_
  refine safe_bind (safe_terminatorOf hnodes hlayout hblock) fun terminator hterminator ↦ ?_
  obtain ⟨node, opcode⟩ := terminator
  have hedge := hterminator.edge_iff hblock
  have htargets : ∀ target ∈ Graph.successors node opcode, target < maxBlocks :=
    fun target htarget ↦ lt_of_lt_of_le (hlinked.target_lt ((hedge target).mpr htarget)) hcount
  have hfinish : ∀ result : List (BitVec 128), result.length = maxBlocks →
      (∀ target source, source ∈ maskAt result target ↔ source ∈ maskAt predecessors target ∨
        (source = blockIndex ∧ target ∈ Graph.successors node opcode)) →
        Preceded g (blockIndex + 1) result := by
    intro result hlength hmask
    refine ⟨hlength, fun target source ↦ ?_⟩
    rw [hmask, h.mem_iff, ← hedge]
    constructor
    · rintro (⟨hlt, hsourceEdge⟩ | ⟨rfl, hsourceEdge⟩)
      · exact ⟨by omega, hsourceEdge⟩
      · exact ⟨by omega, hsourceEdge⟩
    · rintro ⟨hlt, hsourceEdge⟩
      rcases Nat.lt_succ_iff_lt_or_eq.mp hlt with hbefore | rfl
      · exact Or.inl ⟨hbefore, hsourceEdge⟩
      · exact Or.inr ⟨rfl, hsourceEdge⟩
  cases opcode with
  | jump =>
    refine safe_blockBit_bind hsource ?_
    have htarget := htargets node.auxiliary0 (List.mem_singleton_self _)
    refine (safe_addPredecessor h.length_eq htarget hsource).mono fun result hresult ↦ ?_
    refine hfinish result hresult.1 fun target source ↦ ?_
    rw [hresult.2 target]
    split_ifs with heq
    · simp [heq, Graph.successors, or_comm]
    · simp [heq, Graph.successors]
  | branch =>
    refine safe_blockBit_bind hsource ?_
    have honTrue := htargets node.auxiliary0 (by simp [Graph.successors])
    have honFalse := htargets node.auxiliary1 (by simp [Graph.successors])
    refine safe_bind (safe_addPredecessor h.length_eq honTrue hsource) fun first hfirst ↦ ?_
    refine (safe_addPredecessor hfirst.1 honFalse hsource).mono fun result hresult ↦ ?_
    refine hfinish result hresult.1 fun target source ↦ ?_
    rw [hresult.2 target, hfirst.2, hfirst.2]
    by_cases hfalse : target = node.auxiliary1
    · by_cases htrue : node.auxiliary1 = node.auxiliary0
      · simp [hfalse, htrue, Graph.successors, or_comm]
      · simp [hfalse, htrue, Graph.successors, or_comm]
    · rw [if_neg hfalse]
      by_cases htrue : target = node.auxiliary0
      · simp [htrue, Graph.successors, or_comm]
      · simp [hfalse, htrue, Graph.successors]
  | _ => exact safe_pure.mpr (hfinish predecessors h.length_eq (by simp [Graph.successors]))

end Predecessors

/-! ### The dominator table -/

section Dominators

variable {g : Graph}

/-- The dominator equation of a block: itself, and what the tables of all predecessors share. -/
def InMeet (g : Graph) (dominators : List (BitVec 128)) (block dominator : ℕ) : Prop :=
  dominator = block ∨ (dominator < g.blocks.length ∧
    ∀ source, g.Edge source block → dominator ∈ maskAt dominators source)

variable {block : ℕ} {dominators predecessors : List (BitVec 128)} {allBlocks : BitVec 128}

theorem InMeet.mono {first second : List (BitVec 128)}
    (hsubset : ∀ block, maskAt first block ⊆ maskAt second block) {dominator : ℕ}
    (h : InMeet g first block dominator) : InMeet g second block dominator := by
  rcases h with rfl | ⟨hlt, hall⟩
  · exact Or.inl rfl
  · exact Or.inr ⟨hlt, fun source hedge ↦ hsubset source (hall source hedge)⟩

/-- The invariant of the dominator loop: the table is above its own equations and above the true
dominators. -/
structure AboveMeet (g : Graph) (dominators : List (BitVec 128)) : Prop where
  length_eq : dominators.length = maxBlocks
  entry_eq : maskAt dominators g.entryBlock = {g.entryBlock}
  mem_of_inMeet : ∀ block < g.blocks.length, block ≠ g.entryBlock → ∀ dominator,
    InMeet g dominators block dominator → dominator ∈ maskAt dominators block
  mem_of_dominates : ∀ block < g.blocks.length, ∀ dominator < g.blocks.length,
    Dominates g.Edge g.entryBlock dominator block → dominator ∈ maskAt dominators block

/-- The table solves the dominator equations. -/
structure Dominated (g : Graph) (dominators : List (BitVec 128)) : Prop
    extends AboveMeet g dominators where
  mem_iff : ∀ block < g.blocks.length, block ≠ g.entryBlock → ∀ dominator,
    dominator ∈ maskAt dominators block ↔ InMeet g dominators block dominator

/-- The total size of the table. -/
def tableSize (g : Graph) (dominators : List (BitVec 128)) : ℕ :=
  ∑ block ∈ Finset.range g.blocks.length, (maskAt dominators block).card

theorem tableSize_le (dominators : List (BitVec 128)) (h : g.blocks.length ≤ maxBlocks) :
    tableSize g dominators ≤ maxBlocks * maxBlocks :=
  calc tableSize g dominators
      ≤ ∑ _block ∈ Finset.range g.blocks.length, maxBlocks :=
        Finset.sum_le_sum fun _ _ ↦ card_members_le _
    _ = g.blocks.length * maxBlocks := by
        rw [Finset.sum_const_nat fun _ _ ↦ rfl, Finset.card_range]
    _ ≤ maxBlocks * maxBlocks := Nat.mul_le_mul_right _ h

/-- The true dominators of a block solve its equation. -/
theorem inMeet_of_dominates (h : AboveMeet g dominators) {dominator : ℕ}
    (hlt : dominator < g.blocks.length) (hdominates : Dominates g.Edge g.entryBlock dominator block) :
    InMeet g dominators block dominator := by
  by_cases heq : dominator = block
  · exact Or.inl heq
  · refine Or.inr ⟨hlt, fun source hedge ↦ ?_⟩
    exact h.mem_of_dominates source hedge.source_lt dominator hlt (hdominates.of_edge heq hedge)

/-- Replacing the set of one block by its equation keeps the invariant. -/
theorem AboveMeet.set (h : AboveMeet g dominators) (hblock : block < g.blocks.length)
    (hne : block ≠ g.entryBlock) (hcount : g.blocks.length ≤ maxBlocks) {next : BitVec 128}
    (hnext : ∀ dominator, dominator ∈ members next ↔ InMeet g dominators block dominator) :
    AboveMeet g (dominators.set block next) ∧
      ∀ other, maskAt (dominators.set block next) other ⊆ maskAt dominators other := by
  have hlt : block < dominators.length := h.length_eq.symm ▸ lt_of_lt_of_le hblock hcount
  have hsubset : ∀ other, maskAt (dominators.set block next) other ⊆ maskAt dominators other := by
    intro other
    rw [maskAt_set dominators hlt]
    split_ifs with heq
    · intro dominator hdominator
      rw [heq]
      exact h.mem_of_inMeet block hblock hne dominator ((hnext dominator).mp hdominator)
    · exact fun _ hmem ↦ hmem
  refine ⟨⟨?_, ?_, ?_, ?_⟩, hsubset⟩
  · rw [List.length_set, h.length_eq]
  · rw [maskAt_set dominators hlt, if_neg (Ne.symm hne), h.entry_eq]
  · intro other hother hotherNe dominator hmeet
    have hmeet := hmeet.mono hsubset
    rw [maskAt_set dominators hlt]
    split_ifs with heq
    · exact (hnext dominator).mpr (heq ▸ hmeet)
    · exact h.mem_of_inMeet other hother hotherNe dominator hmeet
  · intro other hother dominator hdominator hdominates
    rw [maskAt_set dominators hlt]
    split_ifs with heq
    · exact (hnext dominator).mpr (heq ▸ inMeet_of_dominates h hdominator hdominates)
    · exact h.mem_of_dominates other hother dominator hdominator hdominates

/-- A pass that changes the set of a block makes the table smaller. -/
theorem tableSize_set_lt {next : BitVec 128} (hblock : block < g.blocks.length)
    (hlt : block < dominators.length)
    (hsubset : ∀ other, maskAt (dominators.set block next) other ⊆ maskAt dominators other)
    (hne : members next ≠ maskAt dominators block) :
    tableSize g (dominators.set block next) < tableSize g dominators := by
  refine Finset.sum_lt_sum (fun other _ ↦ Finset.card_le_card (hsubset other))
    ⟨block, Finset.mem_range.mpr hblock, Finset.card_lt_card ?_⟩
  refine lt_of_le_of_ne (hsubset block) ?_
  rw [maskAt_set dominators hlt, if_pos rfl]
  exact hne

theorem safe_intersectPredecessors {count : ℕ} (hlength : dominators.length = maxBlocks)
    (hcount : count ≤ maxBlocks) (allBlocks preds : BitVec 128) :
    Safe (intersectPredecessors count allBlocks preds dominators) fun result ↦
      ∀ dominator, dominator ∈ members result ↔ dominator ∈ members allBlocks ∧
        ∀ source < count, source ∈ members preds → dominator ∈ maskAt dominators source := by
  have htake : (dominators.take count).length = count := by
    rw [List.length_take, hlength, min_eq_left hcount]
  refine (safe_forEach (fun seen result ↦ ∀ dominator, dominator ∈ members result ↔
    dominator ∈ members allBlocks ∧ ∀ source < seen, source ∈ members preds →
      dominator ∈ maskAt dominators source) ?_ ?_).mono fun result hresult ↦ ?_
  · intro dominator
    simp
  · intro position mask result hmask hresult
    have hposition : position < count := htake ▸ (List.getElem?_eq_some_iff.mp hmask).1
    have hlt : position < 128 := lt_of_lt_of_le hposition hcount
    rw [List.getElem?_take_of_lt hposition] at hmask
    have hmaskAt := maskAt_of_getElem? hmask
    have hextend : ∀ dominator, (∀ source < position + 1, source ∈ members preds →
        dominator ∈ maskAt dominators source) ↔ (∀ source < position, source ∈ members preds →
          dominator ∈ maskAt dominators source) ∧
            (position ∈ members preds → dominator ∈ members mask) := by
      intro dominator
      rw [← hmaskAt]
      exact Nat.forall_lt_succ_right
    refine safe_blockBit_bind hlt ?_
    refine safe_ite.mpr ⟨fun hpred dominator ↦ ?_, fun hpred dominator ↦ ?_⟩
    · have hmem := (and_single_eq_zero_iff hlt).not_left.mp hpred
      rw [members_and, Finset.mem_inter, hresult, hextend, and_assoc]
      simp only [hmem, forall_const]
    · have hmem := (and_single_eq_zero_iff hlt).mp (not_not.mp hpred)
      rw [hresult, hextend]
      simp only [hmem, false_imp_iff, and_true]
  · rw [htake] at hresult
    exact hresult

/-- The state of a pass over the blocks before `next`, started from the table `before`. -/
structure Passed (g : Graph) (before : List (BitVec 128)) (next : ℕ)
    (state : List (BitVec 128) × Bool) : Prop where
  above : AboveMeet g state.1
  changed : state.2 = true → tableSize g state.1 < tableSize g before
  unchanged : state.2 = false → state.1 = before ∧ ∀ block < next, block < g.blocks.length →
    block ≠ g.entryBlock → ∀ dominator,
      dominator ∈ maskAt before block ↔ InMeet g before block dominator

section

variable (hcount : g.blocks.length ≤ maxBlocks)
  (hpredecessors : Preceded g g.blocks.length predecessors)
  (hall : members allBlocks = Finset.range g.blocks.length)

include hcount hpredecessors hall

theorem safe_dominatorStep {before : List (BitVec 128)} {state : List (BitVec 128) × Bool}
    (hblock : block < g.blocks.length) (h : Passed g before block state) :
    Safe (dominatorStep g.blocks.length g.entryBlock allBlocks predecessors state block)
      (Passed g before (block + 1)) := by
  obtain ⟨dominators, changed⟩ := state
  have habove : AboveMeet g dominators := h.above
  have hblockLt : block < 128 := lt_of_lt_of_le hblock hcount
  have hlt : block < dominators.length := habove.length_eq.symm ▸ hblockLt
  have hextend (heq : block ≠ g.entryBlock → ∀ dominator,
      dominator ∈ maskAt dominators block ↔ InMeet g dominators block dominator) :
      Passed g before (block + 1) (dominators, changed) := by
    refine ⟨habove, h.changed, fun hunchanged ↦ ?_⟩
    obtain ⟨hsame, hbefore⟩ := h.unchanged hunchanged
    refine ⟨hsame, fun other hother hotherLt hne ↦ ?_⟩
    rcases Nat.lt_succ_iff_lt_or_eq.mp hother with hlow | rfl
    · exact hbefore other hlow hotherLt hne
    · obtain rfl : dominators = before := hsame
      exact heq hne
  refine safe_ite.mpr ⟨fun hentry ↦ hextend fun hne ↦ absurd hentry hne, fun hne ↦ ?_⟩
  have hpredLt : block < predecessors.length := hpredecessors.length_eq.symm ▸ hblockLt
  refine safe_mask_bind hpredLt fun preds hmask ↦ ?_
  refine safe_bind (safe_intersectPredecessors habove.length_eq hcount allBlocks preds)
    fun intersection hintersection ↦ ?_
  refine safe_blockBit_bind hblockLt ?_
  have hnext : ∀ dominator, dominator ∈ members (1#128 <<< block ||| intersection) ↔
      InMeet g dominators block dominator := by
    intro dominator
    rw [members_or, members_single hblockLt, Finset.mem_union, Finset.mem_singleton, hintersection,
      hall, Finset.mem_range, ← hmask]
    refine or_congr_right (and_congr_right fun _ ↦ ⟨fun hsources source hedge ↦ ?_,
      fun hedges source hsource hmem ↦ ?_⟩)
    · exact hsources source hedge.source_lt ((hpredecessors.mem_iff block source).mpr ⟨hedge.source_lt, hedge⟩)
    · exact hedges source ((hpredecessors.mem_iff block source).mp hmem).2
  refine safe_mask_bind hlt fun current hcurrent ↦ ?_
  simp only [safe_ite, safe_bind_iff, safe_setIndex, safe_pure]
  refine ⟨fun hdiffer ↦ ?_, fun hsame ↦ ?_⟩
  · obtain ⟨hset, hsubset⟩ := habove.set hblock hne hcount hnext
    have hsmaller := tableSize_set_lt hblock hlt hsubset
      (hcurrent ▸ fun heq ↦ hdiffer (members_injective heq).symm)
    refine ⟨hlt, hset, fun _ ↦ ?_, fun hfalse ↦ absurd hfalse.symm Bool.false_ne_true⟩
    cases changed with
    | true => exact hsmaller.trans (h.changed rfl)
    | false => exact (h.unchanged rfl).1 ▸ hsmaller
  · refine hextend fun _ dominator ↦ ?_
    rw [hcurrent, not_not.mp hsame]
    exact hnext dominator

theorem safe_dominatorPass (h : AboveMeet g dominators) :
    Safe (dominatorPass g.blocks.length g.entryBlock allBlocks predecessors dominators)
      (Passed g dominators g.blocks.length) :=
  safe_forRange (Passed g dominators) (Nat.zero_le _)
    ⟨h, nofun, fun _ ↦ ⟨rfl, nofun⟩⟩
    fun _ _ _ hlt hstate ↦ safe_dominatorStep hcount hpredecessors hall hlt hstate

/-- The dominator loop ends within its fuel, in a solution of the dominator equations. -/
theorem safe_dominatorLoop (fuel : ℕ) :
    ∀ dominators, AboveMeet g dominators → tableSize g dominators < fuel →
      Safe (dominatorLoop g.blocks.length g.entryBlock allBlocks predecessors fuel dominators)
        (Dominated g) := by
  induction fuel with
  | zero => exact nofun
  | succ fuel ih =>
    intro dominators h hfuel
    refine safe_bind (safe_dominatorPass hcount hpredecessors hall h) fun pass hpass ↦ ?_
    refine safe_ite.mpr ⟨fun hchanged ↦ ?_, fun hunchanged ↦ ?_⟩
    · exact ih pass.1 hpass.above (by have := hpass.changed hchanged; omega)
    · obtain ⟨hsame, hequations⟩ := hpass.unchanged (by simpa using hunchanged)
      rw [safe_pure, hsame]
      exact ⟨h, fun block hlt hne ↦ hequations block hlt hlt hne⟩

end

theorem safe_allBlocksMask {count : ℕ} (h : count ≤ maxBlocks) :
    Safe (allBlocksMask count) fun mask ↦ members mask = Finset.range count := by
  refine safe_ite.mpr ⟨fun hfull ↦ ?_, fun hne ↦ ?_⟩
  · rw [safe_pure, members_allOnes, hfull]
  · have hlt : count < 128 := lt_of_le_of_ne h hne
    refine safe_bind (safe_blockBit hlt) fun bit hbit ↦ ?_
    rw [safe_pure, hbit]
    exact members_mask hlt

theorem safe_initialDominators (hcount : g.blocks.length ≤ maxBlocks)
    (hentry : g.entryBlock < g.blocks.length)
    (hall : members allBlocks = Finset.range g.blocks.length) :
    Safe (initialDominators g.blocks.length g.entryBlock allBlocks) (AboveMeet g) := by
  have hentryLt : g.entryBlock < 128 := lt_of_lt_of_le hentry hcount
  refine (safe_forRange (fun next dominators ↦ dominators.length = maxBlocks ∧
    ∀ block < next, maskAt dominators block =
      if block = g.entryBlock then {g.entryBlock} else Finset.range g.blocks.length)
    (Nat.zero_le g.blocks.length) ⟨List.length_replicate, nofun⟩ ?_).mono fun dominators h ↦ ?_
  · intro block dominators _ hblock h
    have hlt : block < dominators.length := h.1.symm ▸ lt_of_lt_of_le hblock hcount
    have hvalue : Safe (initialDominator g.entryBlock allBlocks block)
        fun value ↦ members value =
          if block = g.entryBlock then {g.entryBlock} else Finset.range g.blocks.length := by
      refine safe_ite.mpr ⟨fun heq ↦ ?_, fun hne ↦ ?_⟩
      · rw [heq, if_pos rfl]
        exact (safe_blockBit hentryLt).mono fun bit hbit ↦ hbit ▸ members_single hentryLt
      · rw [if_neg hne]
        exact safe_pure.mpr hall
    refine safe_bind hvalue fun value hmembers ↦
      safe_setIndex.mpr ⟨hlt, List.length_set.trans h.1, fun other hother ↦ ?_⟩
    rw [maskAt_set dominators hlt]
    rcases Nat.lt_succ_iff_lt_or_eq.mp hother with hbefore | rfl
    · rw [if_neg (Nat.ne_of_lt hbefore), h.2 other hbefore]
    · rw [if_pos rfl, hmembers]
  · obtain ⟨hlength, hmask⟩ := h
    refine ⟨hlength, ?_, fun block hblock hne dominator hmeet ↦ ?_,
      fun block hblock dominator hdominator hdominates ↦ ?_⟩
    · rw [hmask _ hentry, if_pos rfl]
    · rw [hmask block hblock, if_neg hne, Finset.mem_range]
      rcases hmeet with rfl | ⟨hlt, -⟩
      · exact hblock
      · exact hlt
    · rw [hmask block hblock]
      split_ifs with heq
      · exact Finset.mem_singleton.mpr (eq_of_dominates_entry (heq ▸ hdominates))
      · exact Finset.mem_range.mpr hdominator

/-- The table of a graph whose edges all end in blocks holds, along every walk, only visited
blocks. -/
theorem Dominated.closed (h : Dominated g dominators) (hlinked : g.Linked) :
    DominatorClosed g.Edge g.entryBlock fun block ↦ {other | other ∈ maskAt dominators block} := by
  refine ⟨fun other hother ↦ ?_, fun source target hedge hne other hother ↦ ?_⟩
  · rw [Set.mem_ofPred_eq, h.entry_eq] at hother
    exact Finset.mem_singleton.mp hother
  · rcases (h.mem_iff target (hlinked.target_lt hedge) hne other).mp hother with rfl | ⟨-, hall⟩
    · exact Set.mem_insert _ _
    · exact Set.mem_insert_of_mem _ (hall source hedge)

end Dominators

/-- The dominator computation of a laid out graph ends in a solution of its equations. -/
theorem safe_computeDominators (h : package.WellFormed) (hlayout : package.graph.Layout)
    (hlinked : package.graph.Linked) :
    Safe (computeDominators package) (Dominated package.graph) := by
  unfold computeDominators
  rw [h.nodes_eq, h.blocks_eq, ok_bind, ok_bind, h.shows_blocks.len_eq]
  refine safe_reject_bind fun hentry ↦ ?_
  rw [not_le] at hentry
  have hcount := h.length_blocks_le
  have hstart : Preceded package.graph 0 (List.replicate maxBlocks 0#128) := by
    refine ⟨List.length_replicate, fun target source ↦ iff_of_false ?_ nofun⟩
    rw [maskAt, List.getD_eq_getElem?_getD, List.getElem?_replicate]
    split_ifs <;> simp
  refine safe_bind (safe_forRange (Preceded package.graph) (Nat.zero_le _) hstart
    fun block _ _ hlt hstate ↦ safe_blockPredecessors h.shows_nodes h.shows_blocks hcount hlayout
      hlinked hlt hstate) fun predecessors hpredecessors ↦ ?_
  refine safe_bind (safe_allBlocksMask hcount) fun allBlocks hall ↦ ?_
  refine safe_bind (safe_initialDominators hcount hentry hall) fun dominators hdominators ↦ ?_
  refine safe_dominatorLoop hcount hpredecessors hall _ dominators hdominators ?_
  exact Nat.lt_succ_of_le (tableSize_le dominators hcount)

/-! ### Availability of inputs -/

/-- An input of a node comes from an earlier node of the same block, or from a node of another block
in the dominator table. -/
def Available (g : Graph) (dominators : List (BitVec 128)) (index : ℕ) (node : NodeRecord)
    (input : ℕ) : Prop :=
  ∃ producer, g.nodes[input]? = some producer ∧
    ((producer.blockIndex = node.blockIndex ∧ input < index) ∨
      (producer.blockIndex ≠ node.blockIndex ∧
        producer.blockIndex ∈ maskAt dominators node.blockIndex))

/-- Every input of the graph is available. -/
def InputsAvailable (g : Graph) (dominators : List (BitVec 128)) : Prop :=
  ∀ (index : ℕ) node, g.nodes[index]? = some node → ∀ input ∈ node.inputs, input ≠ noValue →
    Available g dominators index node input

theorem safe_verifyInputAvailability {g : Graph} {nodes : Records NodeRecord}
    (hnodes : nodes.Shows g.nodes) (hcount : g.blocks.length ≤ maxBlocks) (hlayout : g.Layout)
    {tables : BlockTables} (htables : g.TablesShow tables) {dominators : List (BitVec 128)}
    (hdominators : Dominated g dominators) {index : ℕ} {node : NodeRecord}
    (hnode : g.nodes[index]? = some node) (inputIndex input : ℕ) :
    Safe (verifyInputAvailability nodes tables.nodeBlocks dominators index inputIndex input) fun _ ↦
      input ≠ noValue → Available g dominators index node input := by
  have hblockLt : ∀ (other : ℕ) record, g.nodes[other]? = some record →
      record.blockIndex < maxBlocks := by
    intro other record hrecord
    obtain ⟨-, block, -, -, hblock, -⟩ := hlayout.inBlock other record hrecord
    exact lt_of_lt_of_le (List.getElem?_eq_some_iff.mp hblock).1 hcount
  simp only [verifyInputAvailability, hnodes.len_eq, safe_ite, safe_bind_iff, safe_reject, safe_index,
    safe_pure, not_le, not_not]
  refine ⟨fun hnone hne ↦ absurd hnone hne, fun _ hinput ↦ ?_⟩
  obtain ⟨producer, hproducer⟩ : ∃ producer, g.nodes[input]? = some producer :=
    ⟨_, List.getElem?_eq_getElem hinput⟩
  refine ⟨_, htables.nodeBlocks_eq index node hnode, _, htables.nodeBlocks_eq input producer hproducer,
    fun _ ↦ ⟨fun hsame hlt _ ↦ ⟨producer, hproducer, Or.inl ⟨hsame, hlt⟩⟩, fun hdiffer ↦ ?_⟩⟩
  have hlt : node.blockIndex < dominators.length :=
    hdominators.length_eq.symm ▸ hblockLt index node hnode
  have hproducerLt : producer.blockIndex < 128 := hblockLt input producer hproducer
  have hmask := List.getElem?_eq_getElem hlt
  refine ⟨_, hmask, (safe_blockBit hproducerLt).mono ?_⟩
  rintro _ rfl hbit -
  refine ⟨producer, hproducer, Or.inr ⟨hdiffer, ?_⟩⟩
  rw [maskAt_of_getElem? hmask]
  exact (and_single_eq_zero_iff hproducerLt).not_left.mp hbit

/-- The availability pass accepts only graphs whose inputs are available under a solution of the
dominator equations. -/
theorem safe_verifyValueAvailability (h : package.WellFormed) (hlayout : package.graph.Layout)
    (hlinked : package.graph.Linked) {tables : BlockTables}
    (htables : package.graph.TablesShow tables) :
    Safe (verifyValueAvailability package tables.nodeBlocks) fun _ ↦
      ∃ dominators, Dominated package.graph dominators ∧
        InputsAvailable package.graph dominators := by
  unfold verifyValueAvailability
  rw [h.nodes_eq]
  refine safe_bind (safe_computeDominators h hlayout hlinked) fun dominators hdominators ↦ ?_
  rw [ok_bind]
  refine (safe_forEach_check fun index node hnode ↦ safe_forEach_check fun position input _ ↦
    safe_verifyInputAvailability h.shows_nodes h.length_blocks_le hlayout htables hdominators hnode
      position input).mono fun _ havailable ↦ ?_
  refine ⟨dominators, hdominators, fun index node hnode input hinput hne ↦ ?_⟩
  obtain ⟨position, hposition⟩ := List.mem_iff_getElem?.mp hinput
  exact havailable index node hnode position input hposition hne

end Pythos.Tig
