import Pythos.Tig.SemanticsFacts

/-!
# The verifier is total, and what it accepts

`safe_verifyPackage` assembles the passes: on a package that the decoder accepted the verifier
returns or reports an error, without a panic and within the fuel of its loops, and a graph it returns
is `Accepted`, the list of everything the passes guarantee.
-/

namespace Pythos.Tig

open Foundation

/-! ### Referenced ranges and canonical encoding -/

namespace Graph

/-- The constants of the graph lie inside their pools, and its texts are UTF-8. -/
structure RangesFit (g : Graph) : Prop where
  constBytes : ∀ index node, g.NodeAt index node .constBytes →
    ∃ bytes, referencedBytes g.constantPool node.auxiliary0 node.auxiliary1 = some bytes
  constUtf8 : ∀ index node, g.NodeAt index node .constUtf8 →
    ∃ text, referencedBytes g.stringTable node.auxiliary0 node.auxiliary1 = some text ∧
      utf8Valid text = true

/-- The encoding of the graph is canonical: the blocks tile the nodes in order, unused fields are
zero, and the slot of an import is its index. -/
structure Canonical (g : Graph) : Prop where
  block : ∀ (index : ℕ) block, g.blocks[index]? = some block → block.flags = 0 ∧
    block.firstNode = ((g.blocks.take index).map BlockRecord.nodeCount).sum ∧
      block.parameterCount ≤ 4
  node : ∀ index node opcode, g.NodeAt index node opcode →
    node.flags = 0 ∧ nodeFieldsAreCanonical opcode node = true
  imported : ∀ (index : ℕ) record, g.imports[index]? = some record → record.importSlot = index

end Graph

/-- The range a constant node refers to lies inside its pool, and a text is UTF-8. -/
def RangeFits (constantPool stringTable : Bytes) (node : NodeRecord) (opcode : Opcode) : Prop :=
  (opcode = .constBytes →
    ∃ bytes, referencedBytes constantPool node.auxiliary0 node.auxiliary1 = some bytes) ∧
  (opcode = .constUtf8 →
    ∃ text, referencedBytes stringTable node.auxiliary0 node.auxiliary1 = some text ∧
      utf8Valid text = true)

section Passes

variable {package : PythGraphPackage} (h : package.WellFormed) (hknown : package.graph.Known)

theorem safe_verifyNodeRange (constantPool stringTable : Bytes) (node : NodeRecord)
    (opcode : Opcode) :
    Safe (verifyNodeRange constantPool stringTable node opcode) fun _ ↦
      RangeFits constantPool stringTable node opcode := by
  by_cases hbytes : opcode = .constBytes
  · subst hbytes
    exact safe_okOr_bind fun bytes hbytes ↦ ⟨fun _ ↦ ⟨bytes, hbytes⟩, nofun⟩
  by_cases htext : opcode = .constUtf8
  · subst htext
    refine safe_okOr_bind fun text htext ↦ ?_
    exact safe_reject.mpr fun hvalid ↦ ⟨nofun, fun _ ↦ ⟨text, htext, not_not.mp hvalid⟩⟩
  · have hother : verifyNodeRange constantPool stringTable node opcode = pure () := by
      cases opcode <;> first | rfl | contradiction
    rw [hother]
    exact safe_pure.mpr ⟨fun hfalse ↦ absurd hfalse hbytes, fun hfalse ↦ absurd hfalse htext⟩

include h hknown in
theorem safe_verifyReferencedRanges :
    Safe (verifyReferencedRanges package) fun _ ↦ package.graph.RangesFit := by
  unfold verifyReferencedRanges
  simp only [h.imports_eq, h.stringTable_eq, h.nodes_eq, h.constantPool_eq, ok_bind]
  refine safe_bind (safe_forEach_check fun _ record _ ↦ (?_ : Safe _ fun _ ↦ True)) fun _ _ ↦ ?_
  · simp only [safe_bind_iff, safe_okOr, safe_reject, implies_true]
  refine (safe_forEach_check fun index node hnode ↦ (?_ : Safe _ fun _ ↦ ∀ opcode,
    package.graph.NodeAt index node opcode → RangeFits package.constantBytes package.stringBytes node
      opcode)).mono fun _ hranges ↦ ?_
  · obtain ⟨opcode, hopcode⟩ := hknown.opcode node (List.mem_of_getElem? hnode)
    refine safe_expect_bind hopcode ?_
    refine (safe_verifyNodeRange _ _ node opcode).mono fun _ hrange other hother ↦ ?_
    obtain rfl : opcode = other := Option.some_inj.mp (hopcode.symm.trans hother.2)
    exact hrange
  · exact ⟨fun index node hnode ↦ (hranges index node hnode.1 _ hnode).1 rfl,
      fun index node hnode ↦ (hranges index node hnode.1 _ hnode).2 rfl⟩

include h hknown in
theorem safe_verifyCanonicalEncoding :
    Safe (verifyCanonicalEncoding package) fun _ ↦ package.graph.Canonical := by
  unfold verifyCanonicalEncoding
  simp only [h.types_eq, h.blocks_eq, h.nodes_eq, h.imports_eq, ok_bind]
  refine safe_bind (safe_forEach_check fun _ _ _ ↦ safe_reject_not) fun _ _ ↦ ?_
  refine safe_bind (safe_forEach (fun next expected ↦
    expected = ((package.graph.blocks.take next).map BlockRecord.nodeCount).sum ∧
      ∀ (index : ℕ) block, index < next → package.graph.blocks[index]? = some block →
        block.flags = 0 ∧
          block.firstNode = ((package.graph.blocks.take index).map BlockRecord.nodeCount).sum ∧
            block.parameterCount ≤ 4) ⟨rfl, fun _ _ hlt ↦ absurd hlt (Nat.not_lt_zero _)⟩
    fun index block expected hblock hexpected ↦ ?_) fun _ htiled ↦ ?_
  · refine safe_reject_bind fun hfields ↦ ?_
    push Not at hfields
    refine safe_reject_bind fun _ ↦ safe_pure.mpr ⟨?_, ?_⟩
    · have htake : package.graph.blocks.take (index + 1) =
          package.graph.blocks.take index ++ [block] := by
        have hblock : package.graph.blocks[index]? = some block := hblock
        rw [List.take_add_one, hblock]
        rfl
      rw [htake, List.map_append, List.sum_append, hexpected.1]
      rfl
    · exact forall_lt_succ_getElem? hblock hexpected.2
        ⟨hfields.1, hfields.2.1.trans hexpected.1, hfields.2.2⟩
  refine safe_bind (safe_forEach_check fun index node hnode ↦ (?_ : Safe _ fun _ ↦ ∀ opcode,
    package.graph.NodeAt index node opcode →
      node.flags = 0 ∧ nodeFieldsAreCanonical opcode node = true)) fun _ hcanonical ↦ ?_
  · obtain ⟨opcode, hopcode⟩ := hknown.opcode node (List.mem_of_getElem? hnode)
    refine safe_expect_bind hopcode (safe_reject.mpr fun hfields other hother ↦ ?_)
    push Not at hfields
    obtain rfl : opcode = other := Option.some_inj.mp (hopcode.symm.trans hother.2)
    exact hfields
  refine (safe_forEach_check fun _ _ _ ↦ safe_reject_not).mono fun _ himports ↦ ?_
  refine ⟨fun index block hblock ↦ htiled.2 index block (List.getElem?_eq_some_iff.mp hblock).1 hblock,
    fun index node opcode hnode ↦ hcanonical index node hnode.1 opcode hnode,
    fun index record hrecord ↦ ?_⟩
  have hfields := himports index record hrecord
  push Not at hfields
  exact hfields.1

end Passes

/-! ### Accepted graphs -/

/-- Everything the verifier guarantees of a graph it accepts. -/
structure Accepted (g : Graph) : Prop where
  length_nodes_le : g.nodes.length ≤ maxGraphNodes
  length_blocks_le : g.blocks.length ≤ maxBlocks
  length_stringTable_le : g.stringTable.length ≤ maxStringTableBytes
  inRange : ∀ node ∈ g.nodes, node.InRange
  known : g.Known
  layout : g.Layout
  linked : g.Linked
  entryBlock_lt : g.entryBlock < g.blocks.length
  reachable : ∀ block < g.blocks.length, Relation.ReflTransGen g.Edge g.entryBlock block
  available : ∃ dominators, Dominated g dominators ∧ InputsAvailable g dominators
  typed : g.Typed
  ranges : g.RangesFit
  canonical : g.Canonical

section Nodes

variable {g : Graph} {index : ℕ} {node : NodeRecord} {opcode : Opcode} (h : Accepted g)
  (hnode : g.NodeAt index node opcode)

include h hnode

/-- A node of an accepted graph has a result type, and fits it. -/
theorem Accepted.fits :
    ∃ type, PythType.ofCode node.resultType = some type ∧ g.NodeFits index node opcode type := by
  obtain ⟨type, htype⟩ := h.known.resultType node (List.mem_of_getElem? hnode.1)
  exact ⟨type, htype, h.typed index node opcode type hnode htype⟩

theorem Accepted.index_lt : index < maxGraphNodes :=
  lt_of_lt_of_le (List.getElem?_eq_some_iff.mp hnode.1).1 h.length_nodes_le

end Nodes

/-- The passes of the verifier do not panic and end, and accept only such graphs. -/
theorem safe_verifyPackage {package : PythGraphPackage} (h : package.WellFormed) :
    Safe (verifyPackage package) fun verified ↦
      verified.package = package ∧ Accepted package.graph := by
  unfold verifyPackage
  rw [h.blocks_eq, h.nodes_eq, ok_bind, ok_bind]
  refine safe_reject_bind fun _ ↦ ?_
  refine safe_bind (safe_verifyKnownTypes h) fun _ htypes ↦ ?_
  refine safe_bind (safe_verifyKnownOpcodes h) fun _ hopcodes ↦ ?_
  have hknown : package.graph.Known := ⟨hopcodes, htypes⟩
  refine safe_bind (safe_verifyBlockRanges h hknown) fun tables htables ↦ ?_
  obtain ⟨hlayout, htables⟩ := htables
  refine safe_bind (safe_verifyControlFlow h hknown hlayout htables) fun _ hlinked ↦ ?_
  refine safe_bind (safe_verifyReachableBlocks h hlayout hlinked) fun _ hreachable ↦ ?_
  refine safe_bind (safe_verifyValueAvailability h hlayout hlinked htables) fun _ havailable ↦ ?_
  obtain ⟨dominators, hdominators, hinputs⟩ := havailable
  refine safe_bind (safe_verifySemantics h hknown hinputs) fun _ htyped ↦ ?_
  refine safe_bind (safe_verifyReferencedRanges h hknown) fun _ hranges ↦ ?_
  refine safe_bind (safe_verifyCanonicalEncoding h hknown) fun _ hcanonical ↦ ?_
  refine safe_pure.mpr ⟨rfl, h.length_nodes_le, h.length_blocks_le, h.length_stringTable_le, ?_, hknown,
    hlayout, hlinked, hreachable.1, hreachable.2, ⟨dominators, hdominators, hinputs⟩, htyped, hranges, hcanonical⟩
  exact fun node hnode ↦ PythGraphPackage.WellFormed.inRange_of_mem hnode

theorem safe_mapDecodeError {α : Type} {x : Decode α} {post : α → Prop} (h : Safe x post) :
    Safe (mapDecodeError x) post := by
  cases x with
  | ok value => exact h
  | error fault =>
    cases fault with
    | returned error => trivial
    | panicked => exact h
    | diverged => exact h

theorem mapDecodeError_eq_ok_iff {α : Type} {x : Decode α} {value : α} :
    mapDecodeError x = .ok value ↔ x = .ok value := by
  cases x with
  | ok other => simp [mapDecodeError]
  | error fault => cases fault <;> simp [mapDecodeError]

theorem safe_verifyBytes (bytes : Bytes) :
    Safe (verifyBytes bytes) fun verified ↦ verified.package.bytes = bytes ∧
      verified.package.WellFormed ∧ Accepted verified.package.graph := by
  refine safe_bind (safe_mapDecodeError (PythGraphPackage.safe_decode bytes))
    fun package hpackage ↦ ?_
  refine (safe_verifyPackage hpackage.2).mono fun verified hverified ↦ ?_
  rw [hverified.1]
  exact ⟨hpackage.1, hpackage.2, hverified.2⟩

/-- A graph that the verifier returned for some bytes is accepted. -/
theorem accepted_of_verifyBytes {bytes : Bytes} {verified : VerifiedGraph}
    (h : verifyBytes bytes = .ok verified) : Accepted verified.package.graph :=
  ((safe_verifyBytes bytes).of_ok h).2.2

/-- A verified graph has the package that the decoder returned for the bytes. -/
theorem decode_of_verifyBytes {bytes : Bytes} {verified : VerifiedGraph}
    (h : verifyBytes bytes = .ok verified) : PythGraphPackage.decode bytes = .ok verified.package := by
  obtain ⟨package, hmap, hverify⟩ := bind_eq_ok_iff.mp h
  have hdecode := mapDecodeError_eq_ok_iff.mp hmap
  have hwell := ((PythGraphPackage.safe_decode bytes).of_ok hdecode).2
  rw [((safe_verifyPackage hwell).of_ok hverify).1]
  exact hdecode

end Pythos.Tig
