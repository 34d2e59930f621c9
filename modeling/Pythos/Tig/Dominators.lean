import Pythos.Foundation.Refusals
import Pythos.Tig.Acceptance
import Pythos.Tig.Codec

/-!
# The reachability pass and the dominator table are exact

The reachability pass ends, and accepts iff the entry reaches every block (`verifyReachableBlocks_iff`).

The loop of the verifier over the dominator equations ends, and what it leaves for a block is the set of
the blocks on every walk from the entry to it. One half is that the loop never takes a dominator out of the
table (`AboveMeet`), the other that a solution of the equations only holds what every walk visits
(`Dominated.closed`).
-/

namespace Pythos.Tig

open Foundation

variable {g : Graph}

/-- The blocks of a walk are blocks of the graph. -/
theorem lt_of_mem_trail (hlinked : g.Linked) (hentry : g.entryBlock < g.blocks.length) {block : ℕ}
    {trail : List ℕ} (walk : Walk g.Edge g.entryBlock block trail) {visited : ℕ}
    (hvisited : visited ∈ trail) : visited < g.blocks.length := by
  induction walk with
  | start => exact List.mem_singleton.mp hvisited ▸ hentry
  | step walk hedge ih =>
    rcases List.mem_cons.mp hvisited with rfl | hmem
    · exact hlinked.target_lt hedge
    · exact ih hmem

/-- In a graph whose blocks are all reachable, a solution of the dominator equations above the dominators
is the table of dominators. -/
theorem Dominated.mem_iff_dominates {dominators : List (BitVec 128)} (h : Dominated g dominators)
    (hlinked : g.Linked) (hentry : g.entryBlock < g.blocks.length)
    (hreachable : ∀ block < g.blocks.length, Relation.ReflTransGen g.Edge g.entryBlock block)
    {block : ℕ} (hblock : block < g.blocks.length) (dominator : ℕ) :
    dominator ∈ maskAt dominators block ↔ Dominates g.Edge g.entryBlock dominator block := by
  constructor
  · intro hmem trail walk
    exact (h.closed hlinked).mem_trail walk hmem
  · intro hdominates
    obtain ⟨trail, walk⟩ := exists_walk (hreachable block hblock)
    have hlt := lt_of_mem_trail hlinked hentry walk (hdominates trail walk)
    exact h.mem_of_dominates block hblock dominator hlt hdominates

/-! ### The computation returns -/

section Returns

variable {allowed : VerifyError → Prop} {nodes : Records NodeRecord} {blocks : Records BlockRecord}
  {blockIndex : ℕ}

theorem answers_blockBit {post : BitVec 128 → Prop} {block : ℕ} (h : block < 128) :
    Answers allowed (blockBit block) post ↔ post (1#128 <<< block) := by
  rw [blockBit, if_pos h, answers_ok]

@[simp] theorem only_blockBit (block : ℕ) : Only allowed (blockBit block) := by
  simp [blockBit, Answers]

@[simp] theorem only_addPredecessor (predecessors : List (BitVec 128)) (target : ℕ) (bit : BitVec 128) :
    Only allowed (addPredecessor predecessors target bit) := by
  simp [addPredecessor]

/-- The terminator of a laid out block is found. -/
theorem only_terminatorOf (hnodes : nodes.Shows g.nodes) (hlayout : g.Layout) {block : BlockRecord}
    (hblock : g.blocks[blockIndex]? = some block) : Only allowed (terminatorOf nodes block) := by
  obtain ⟨node, opcode, hnode, -, -⟩ := (hlayout.blockAt blockIndex block hblock).terminatorAt
  simp [terminatorOf, hnodes.get_eq, hnode.1]

theorem only_pendingTargets (pending : BitVec 128) (node : NodeRecord) (opcode : Opcode) :
    Only allowed (pendingTargets pending node opcode) := by
  cases opcode <;> simp [pendingTargets]

theorem only_reachableLoop (hnodes : nodes.Shows g.nodes) (hblocks : blocks.Shows g.blocks)
    (hlayout : g.Layout) (fuel : ℕ) (reachable pending : BitVec 128) :
    Only allowed (reachableLoop nodes blocks fuel reachable pending) := by
  induction fuel generalizing reachable pending with
  | zero => trivial
  | succ fuel ih =>
    simp only [reachableLoop, hblocks.get_eq, answers_ite, answers_pure, answers_bind, answers_expect]
    refine ⟨fun _ ↦ trivial, fun _ ↦ (only_blockBit _).mono fun bit _ ↦ ⟨fun _ ↦ ih _ _, fun _ block hblock ↦ ?_⟩⟩
    refine (only_terminatorOf hnodes hlayout hblock).mono fun terminator _ ↦ ?_
    exact (only_pendingTargets _ _ _).mono fun _ _ ↦ ih _ _

theorem only_blockPredecessors (hnodes : nodes.Shows g.nodes) (hblocks : blocks.Shows g.blocks)
    (hlayout : g.Layout) (predecessors : List (BitVec 128)) :
    Only allowed (blockPredecessors nodes blocks predecessors blockIndex) := by
  simp only [blockPredecessors, hblocks.get_eq, answers_bind, answers_expect]
  refine fun _ hblock ↦ (only_terminatorOf hnodes hlayout hblock).mono fun terminator _ ↦ ?_
  split <;> simp

@[simp] theorem only_dominatorLoop (blockCount entry : ℕ) (allBlocks : BitVec 128)
    (predecessors : List (BitVec 128)) (fuel : ℕ) (dominators : List (BitVec 128)) :
    Only allowed (dominatorLoop blockCount entry allBlocks predecessors fuel dominators) := by
  induction fuel generalizing dominators with
  | zero => trivial
  | succ fuel ih => simp [dominatorLoop, dominatorPass, dominatorStep, intersectPredecessors, ih]

end Returns

/-- The reachability pass rejects nothing but a block that the entry does not reach. -/
theorem verifyReachableBlocks_of_reachable {package : PythGraphPackage} (h : package.WellFormed)
    (hlayout : package.graph.Layout) (hlinked : package.graph.Linked)
    (hentry : package.graph.entryBlock < package.graph.blocks.length)
    (hreachable : ∀ block < package.graph.blocks.length,
      Relation.ReflTransGen package.graph.Edge package.graph.entryBlock block) :
    verifyReachableBlocks package = .ok () := by
  have hlt : package.graph.entryBlock < 128 := lt_of_lt_of_le hentry h.length_blocks_le
  have honly : Only (fun _ ↦ False) (verifyReachableBlocks package) := by
    simp only [verifyReachableBlocks, h.nodes_eq, h.blocks_eq, ok_bind, h.shows_blocks.len_eq, answers_bind,
      answers_reject]
    refine ⟨fun hge ↦ absurd hentry (Nat.not_lt.mpr hge), fun _ ↦ (answers_blockBit hlt).mpr ?_⟩
    refine ((only_reachableLoop h.shows_nodes h.shows_blocks hlayout _ _ _).of_safe (safe_reachableLoop_entry
      h.shows_nodes h.shows_blocks h.length_blocks_le hlayout hlinked hentry)).mono fun reachable hmem ↦ ?_
    refine only_forRange fun _ block _ hblock ↦ ?_
    have hblockLt : block < 128 := lt_of_lt_of_le hblock h.length_blocks_le
    refine answers_bind.mpr ((answers_blockBit hblockLt).mpr ?_)
    exact answers_ite.mpr ⟨fun hzero ↦ absurd ((hmem block).mpr (hreachable block hblock))
      ((and_single_eq_zero_iff hblockLt).mp hzero), fun _ ↦ trivial⟩
  obtain ⟨⟨⟩, hok, -⟩ := (safe_verifyReachableBlocks h hlayout hlinked).exists_ok honly.unrefused
  exact hok

/-- The dominator computation rejects nothing but an entry block out of range. -/
theorem exists_computeDominators {package : PythGraphPackage} (h : package.WellFormed)
    (hlayout : package.graph.Layout) (hlinked : package.graph.Linked)
    (hentry : package.graph.entryBlock < package.graph.blocks.length) :
    ∃ dominators, computeDominators package = .ok dominators ∧ Dominated package.graph dominators := by
  refine (safe_computeDominators h hlayout hlinked).exists_ok ?_
  refine Only.unrefused ?_
  simp [computeDominators, h.nodes_eq, h.blocks_eq, ok_bind, h.shows_blocks.len_eq,
    only_blockPredecessors h.shows_nodes h.shows_blocks hlayout, allBlocksMask, initialDominators,
    initialDominator]
  exact hentry

/-- A package whose block ranges and control flow are accepted has laid out and linked blocks. -/
theorem layout_linked_of_accepted {package : PythGraphPackage} {tables : BlockTables}
    (h : package.WellFormed) (htypes : verifyKnownTypes package = .ok ())
    (hopcodes : verifyKnownOpcodes package = .ok ()) (hranges : verifyBlockRanges package = .ok tables)
    (hcontrol : verifyControlFlow package tables = .ok ()) :
    package.graph.Layout ∧ package.graph.Linked := by
  have hknown : package.graph.Known :=
    ⟨(safe_verifyKnownOpcodes h).of_ok hopcodes, (safe_verifyKnownTypes h).of_ok htypes⟩
  obtain ⟨hlayout, htables⟩ := (safe_verifyBlockRanges h hknown).of_ok hranges
  exact ⟨hlayout, (safe_verifyControlFlow h hknown hlayout htables).of_ok hcontrol⟩

/-- The reachability pass of a package whose block ranges and targets are accepted ends without a panic, and
accepts iff the entry block exists and reaches every block. -/
theorem verifyReachableBlocks_iff {bytes : Bytes} {package : PythGraphPackage} {tables : BlockTables}
    (hdecode : PythGraphPackage.decode bytes = .ok package)
    (htypes : verifyKnownTypes package = .ok ()) (hopcodes : verifyKnownOpcodes package = .ok ())
    (hranges : verifyBlockRanges package = .ok tables)
    (hcontrol : verifyControlFlow package tables = .ok ()) :
    Safe (verifyReachableBlocks package) (fun _ ↦ True) ∧
      (verifyReachableBlocks package = .ok () ↔
        package.graph.entryBlock < package.graph.blocks.length ∧
          ∀ block < package.graph.blocks.length,
            Relation.ReflTransGen package.graph.Edge package.graph.entryBlock block) := by
  have hpackage := ((PythGraphPackage.safe_decode bytes).of_ok hdecode).2
  obtain ⟨hlayout, hlinked⟩ := layout_linked_of_accepted hpackage htypes hopcodes hranges hcontrol
  have hsafe := safe_verifyReachableBlocks hpackage hlayout hlinked
  exact ⟨hsafe.mono fun _ _ ↦ trivial, fun hok ↦ hsafe.of_ok hok, fun hreachable ↦
    verifyReachableBlocks_of_reachable hpackage hlayout hlinked hreachable.1 hreachable.2⟩

/-- The checks before the reachability pass, and one more. -/
theorem exists_checked (bytes : Bytes) (check : PythGraphPackage → Bool)
    (h : (do
      let package ← mapDecodeError (PythGraphPackage.decode bytes)
      verifyKnownTypes package
      verifyKnownOpcodes package
      let tables ← verifyBlockRanges package
      verifyControlFlow package tables
      pure (check package)) = .ok true) :
    ∃ package tables, PythGraphPackage.decode bytes = .ok package ∧ verifyKnownTypes package = .ok () ∧
      verifyKnownOpcodes package = .ok () ∧ verifyBlockRanges package = .ok tables ∧
        verifyControlFlow package tables = .ok () ∧ package.WellFormed ∧ check package = true := by
  simp only [bind_eq_ok_iff] at h
  obtain ⟨package, hmap, ⟨⟩, htypes, ⟨⟩, hopcodes, tables, hranges, ⟨⟩, hcontrol, hcheck⟩ := h
  have hdecode := mapDecodeError_eq_ok_iff.mp hmap
  exact ⟨package, tables, hdecode, htypes, hopcodes, hranges, hcontrol,
    ((PythGraphPackage.safe_decode bytes).of_ok hdecode).2, Except.ok.inj hcheck⟩

/-- Block 0 jumps to block 1, which jumps back into the entry. -/
def loopPackage : Bytes :=
  (PackageContent.of [.of 0 0 1 0, .of 1 1 1 0]
    [.of .jump .unit 0 [] 1 0, .of .jump .unit 1 [] 0 0] [] []).encode

theorem verifyReachableBlocks_iff_loopPackage :
    ∃ package, PythGraphPackage.decode loopPackage = .ok package ∧ verifyReachableBlocks package = .ok () ∧
      ∀ block < package.graph.blocks.length,
        Relation.ReflTransGen package.graph.Edge package.graph.entryBlock block := by
  obtain ⟨package, tables, hdecode, htypes, hopcodes, hranges, hcontrol, -, hcheck⟩ :=
    exists_checked loopPackage (fun package ↦ verifyReachableBlocks package = .ok ()) (by decide +kernel)
  have hok := of_decide_eq_true hcheck
  exact ⟨package, hdecode, hok,
    ((verifyReachableBlocks_iff hdecode htypes hopcodes hranges hcontrol).2.mp hok).2⟩

def noBlocks : Bytes :=
  (PackageContent.of [] [] [] []).encode

/-- A package without blocks passes the earlier checks and is rejected. -/
theorem noBlocks_rejected :
    ∃ package tables, PythGraphPackage.decode noBlocks = .ok package ∧ verifyKnownTypes package = .ok () ∧
      verifyKnownOpcodes package = .ok () ∧ verifyBlockRanges package = .ok tables ∧
        verifyControlFlow package tables = .ok () ∧
          (∀ block < package.graph.blocks.length,
            Relation.ReflTransGen package.graph.Edge package.graph.entryBlock block) ∧
          verifyReachableBlocks package = .error (.returned (.invalidControlTarget 0 0)) := by
  obtain ⟨package, tables, hdecode, htypes, hopcodes, hranges, hcontrol, -, hcheck⟩ :=
    exists_checked noBlocks (fun package ↦ package.graph.blocks = [] ∧ verifyReachableBlocks package =
      .error (.returned (.invalidControlTarget 0 0))) (by decide +kernel)
  obtain ⟨hnil, herror⟩ := of_decide_eq_true hcheck
  exact ⟨package, tables, hdecode, htypes, hopcodes, hranges, hcontrol, by simp [hnil], herror⟩

/-- A block that reaches another block of the graph is in range. -/
theorem lt_of_reachable {source block : ℕ} (hblock : block < g.blocks.length)
    (h : Relation.ReflTransGen g.Edge source block) : source < g.blocks.length := by
  rcases Relation.ReflTransGen.cases_head h with rfl | ⟨next, hedge, -⟩
  · exact hblock
  · exact hedge.source_lt

/-- The dominator computation of a package whose block ranges and targets are accepted and whose blocks
are all reachable ends, and leaves for every block exactly the blocks on every walk from the entry. -/
theorem computeDominators_exact {bytes : Bytes} {package : PythGraphPackage} {tables : BlockTables}
    (hdecode : PythGraphPackage.decode bytes = .ok package)
    (htypes : verifyKnownTypes package = .ok ()) (hopcodes : verifyKnownOpcodes package = .ok ())
    (hranges : verifyBlockRanges package = .ok tables)
    (hcontrol : verifyControlFlow package tables = .ok ())
    (hnonempty : 0 < package.graph.blocks.length)
    (hreachable : ∀ block < package.graph.blocks.length,
      Relation.ReflTransGen package.graph.Edge package.graph.entryBlock block) :
    ∃ dominators, computeDominators package = .ok dominators ∧ dominators.length = maxBlocks ∧
      ∀ block < package.graph.blocks.length, ∀ dominator,
        dominator ∈ maskAt dominators block ↔
          Dominates package.graph.Edge package.graph.entryBlock dominator block := by
  have hpackage := ((PythGraphPackage.safe_decode bytes).of_ok hdecode).2
  obtain ⟨hlayout, hlinked⟩ := layout_linked_of_accepted hpackage htypes hopcodes hranges hcontrol
  have hentry := lt_of_reachable hnonempty (hreachable 0 hnonempty)
  obtain ⟨dominators, hcompute, hdominated⟩ := exists_computeDominators hpackage hlayout hlinked hentry
  exact ⟨dominators, hcompute, hdominated.length_eq, fun block hblock dominator ↦
    hdominated.mem_iff_dominates hlinked hentry hreachable hblock dominator⟩

theorem computeDominators_exact_loopPackage :
    ∃ package dominators, PythGraphPackage.decode loopPackage = .ok package ∧
      computeDominators package = .ok dominators ∧ ∀ block < package.graph.blocks.length, ∀ dominator,
        dominator ∈ maskAt dominators block ↔
          Dominates package.graph.Edge package.graph.entryBlock dominator block := by
  obtain ⟨package, tables, hdecode, htypes, hopcodes, hranges, hcontrol, hpackage, hcheck⟩ :=
    exists_checked loopPackage (fun package ↦ verifyReachableBlocks package = .ok ()) (by decide +kernel)
  obtain ⟨hlayout, hlinked⟩ := layout_linked_of_accepted hpackage htypes hopcodes hranges hcontrol
  obtain ⟨hentry, hreachable⟩ :=
    (safe_verifyReachableBlocks hpackage hlayout hlinked).of_ok (of_decide_eq_true hcheck)
  obtain ⟨dominators, hcompute, -, hexact⟩ := computeDominators_exact hdecode htypes hopcodes hranges
    hcontrol (Nat.zero_lt_of_lt hentry) hreachable
  exact ⟨package, dominators, hdecode, hcompute, hexact⟩

end Pythos.Tig
