import Pythos.Runtime.TextCoherence

/-!
# Effects happen in the order of the chain

The verifier compares the effect operand of a node with the last effect node in a scan of node indices.
With dominance this orders the effects of every run: the operand of an effectful node was executed before
it, so, along the chain, every effectful node with a smaller index was. The effectful nodes that a run
executed, each at its first execution, are therefore a prefix of the chain in its order, and a run that
enters no block twice calls the host along such a prefix, once for each node.
-/

namespace Pythos.Runtime

open Foundation Shared Tig

/-! ### The chain -/

/-- The node at an index has an effectful opcode. -/
def isEffectful (g : Graph) (index : ℕ) : Bool :=
  match g.nodes[index]?.bind fun node ↦ Opcode.ofCode node.opcode with
  | some opcode => opcode.signature.effectful
  | none => false

/-- The effectful nodes of a graph in the order of their indices. -/
def effectChain (g : Graph) : List ℕ :=
  (List.range g.nodes.length).filter (isEffectful g)

section Chain

variable {g : Graph}

variable {index : ℕ}

theorem isEffectful_of_nodeAt {node : NodeRecord} {opcode : Opcode} (h : g.NodeAt index node opcode) :
    isEffectful g index = opcode.signature.effectful := by
  simp [isEffectful, h.1, h.2]

theorem isEffectful_iff : isEffectful g index = true ↔
    ∃ node opcode, g.NodeAt index node opcode ∧ opcode.signature.effectful = true := by
  constructor
  · intro h
    unfold isEffectful at h
    cases hnode : g.nodes[index]? with
    | none => simp [hnode] at h
    | some node =>
      cases hopcode : Opcode.ofCode node.opcode with
      | none => simp [hnode, hopcode] at h
      | some opcode => exact ⟨node, opcode, ⟨hnode, hopcode⟩, by simpa [hnode, hopcode] using h⟩
  · rintro ⟨node, opcode, hnode, heffectful⟩
    rw [isEffectful_of_nodeAt hnode, heffectful]

theorem mem_effectChain : index ∈ effectChain g ↔ isEffectful g index = true := by
  rw [effectChain, List.mem_filter, List.mem_range, and_iff_right_iff_imp]
  intro h
  obtain ⟨node, opcode, hnode, -⟩ := isEffectful_iff.mp h
  exact (List.getElem?_eq_some_iff.mp hnode.1).1

theorem effectChain_sorted (g : Graph) : (effectChain g).Pairwise (· < ·) :=
  (List.pairwise_lt_range).filter _

/-- A prefix of an increasing list grows by the element all of whose predecessors it has. -/
theorem prefix_concat_of_least {chain before : List ℕ} (hsorted : chain.Pairwise (· < ·))
    (hinitial : before <+: chain) {next : ℕ} (hmem : next ∈ chain) (hnew : next ∉ before)
    (hleast : ∀ other ∈ chain, other < next → other ∈ before) : before ++ [next] <+: chain := by
  obtain ⟨rest, rfl⟩ := hinitial
  rcases List.mem_append.mp hmem with hold | hrest
  · exact absurd hold hnew
  cases rest with
  | nil => simp at hrest
  | cons first rest =>
    rw [List.pairwise_append, List.pairwise_cons] at hsorted
    obtain ⟨-, ⟨hfirst, -⟩, hcross⟩ := hsorted
    rcases List.mem_cons.mp hrest with rfl | hlater
    · exact ⟨rest, by simp⟩
    · have hin := hleast first (by simp) (hfirst next hlater)
      exact absurd (hcross first hin first (List.mem_cons_self ..)) (lt_irrefl first)

end Chain

/-! ### Ordered traces -/

/-- The host answered a call of the node. -/
def Succeeded (trace : List Event) (index : ℕ) : Prop :=
  ∃ request result, Event.called index request (.ok result) ∈ trace

/-- The effects of a trace happened in the order of the chain. -/
structure EffectOrdered (g : Graph) (trace : List Event) : Prop where
  calls : ∀ later earlier index request reply,
    trace = later ++ .called index request reply :: earlier → index ∈ effectChain g ∧
      ∀ effect ∈ effectChain g, effect < index →
        effect ∈ dispatchedNodes earlier ∧ Succeeded earlier effect
  first : ((dispatchedNodes trace).filter (isEffectful g)).dedup.reverse <+: effectChain g
  once : (enteredBlocks trace).Nodup → (callingNodes trace).reverse <+: effectChain g

section Runs

variable {σ : Type} {g : Graph} {imports : Vector PackedCapability maxPythGraphImports}
  {host : Host σ}

/-- A call comes after the effectful nodes before it in the chain. -/
def CallOrdered (g : Graph) (earlier : List Event) (index : ℕ) (_ : HostRequest) : Prop :=
  index ∈ effectChain g ∧ ∀ effect ∈ effectChain g, effect < index →
    effect ∈ dispatchedNodes earlier ∧ Succeeded earlier effect

/-- The invariant of a run behind the order of its effects. -/
structure Ordered (g : Graph) (config : Config σ) : Prop where
  executed : ∀ index, index ∈ dispatchedNodes config.machine.trace ↔ Executed g config index
  succeeded : ∀ index ∈ dispatchedNodes config.machine.trace, isEffectful g index = true →
    Succeeded config.machine.trace index
  closed : ∀ index ∈ dispatchedNodes config.machine.trace, g.EffectAt index →
    ∀ effect ∈ effectChain g, effect < index → effect ∈ dispatchedNodes config.machine.trace
  calls : EachCall (CallOrdered g) config.machine.trace
  calling : callingNodes config.machine.trace =
    (dispatchedNodes config.machine.trace).filter (isEffectful g)
  first : ((dispatchedNodes config.machine.trace).filter (isEffectful g)).dedup.reverse <+:
    effectChain g
  nodup : (enteredBlocks config.machine.trace).Nodup →
    (dispatchedNodes config.machine.trace).Nodup

variable {config config' : Config σ} {node : NodeRecord} {opcode : Opcode} {action : Action}
  {machine' : Machine σ}

section

variable (haccepted : Accepted g) (h : Ordered g config) (hposition : Positioned g config)

include haccepted h hposition

/-- The effectful nodes before the next node were executed, if it is an effect node. -/
theorem Ordered.before (heffect : g.EffectAt config.next) :
    ∀ effect ∈ effectChain g, effect < config.next →
      effect ∈ dispatchedNodes config.machine.trace := by
  intro effect hmem hlt
  obtain ⟨node, opcode, hnode, -⟩ := hposition.nodeAt haccepted
  obtain ⟨type, htype, hfits⟩ := haccepted.fits hnode
  have heffectAt : g.EffectAt effect := by
    obtain ⟨other, otherOpcode, hother, heffectful⟩ := isEffectful_iff.mp (mem_effectChain.mp hmem)
    exact ⟨other, otherOpcode, hother, Or.inr heffectful⟩
  rcases hnode.effectAt_iff.mp heffect with hstart | heffectful
  · exact absurd heffectAt (hfits.start hstart effect hlt)
  -- the token operand was executed, and nothing effectful lies between it and the next node
  have hlink := hfits.link heffectful
  have htoken : node.input0 ∈ dispatchedNodes config.machine.trace :=
    (h.executed _).mpr (hposition.executed_input haccepted hnode (List.mem_cons_self ..)
      (ne_noValue_of_lt haccepted hnode hlink.input0_lt))
  by_cases hafter : node.input0 < effect
  · exact absurd heffectAt (hlink.last effect hafter hlt)
  by_cases heq : effect = node.input0
  · exact heq ▸ htoken
  · exact h.closed node.input0 htoken hlink.effectAt effect hmem (by omega)

/-- The next node keeps the first executions in order. -/
theorem Ordered.first_next :
    ((config.next :: dispatchedNodes config.machine.trace).filter (isEffectful g)).dedup.reverse <+:
      effectChain g := by
  by_cases heffectful : isEffectful g config.next = true
  · rw [List.filter_cons_of_pos heffectful]
    by_cases hmem : config.next ∈ (dispatchedNodes config.machine.trace).filter (isEffectful g)
    · rw [List.dedup_cons_of_mem hmem]
      exact h.first
    · rw [List.dedup_cons_of_notMem hmem, List.reverse_cons]
      obtain ⟨node, opcode, hnode, hopcode⟩ := isEffectful_iff.mp heffectful
      have hbefore := h.before haccepted hposition ⟨node, opcode, hnode, Or.inr hopcode⟩
      refine prefix_concat_of_least (effectChain_sorted g) h.first (mem_effectChain.mpr heffectful)
        (by simpa using hmem) fun other hother hlt ↦ ?_
      simpa using ⟨hbefore other hother hlt, mem_effectChain.mp hother⟩
  · rw [List.filter_cons_of_neg heffectful]
    exact h.first

/-- In a run that enters no block twice the next node was not dispatched before. -/
theorem Ordered.nodup_next (hblocks : (enteredBlocks config.machine.trace).Nodup) :
    (config.next :: dispatchedNodes config.machine.trace).Nodup := by
  refine List.nodup_cons.mpr ⟨fun hmem ↦ ?_, h.nodup hblocks⟩
  obtain ⟨node, opcode, hnode, howner, -⟩ := hposition.nodeAt haccepted
  obtain ⟨blockIndex, hin, hpast⟩ := (h.executed _).mp hmem
  have heq : blockIndex = config.block := by
    obtain ⟨other, -, hother, hindex, -⟩ := hin
    obtain rfl : node = other := Option.some_inj.mp (hnode.1.symm.trans hother)
    exact hindex.symm.trans howner
  rcases hpast with htail | ⟨-, hlt⟩
  · rw [hposition.trail_eq, List.nodup_cons] at hblocks
    exact hblocks.1 (heq ▸ htail)
  · exact absurd hlt (lt_irrefl _)

end

/-- The trace that a node leaves: nothing happened, it was dispatched, or it also called the host. -/
theorem NodeLeaves.trace_cases (haccepted : Accepted g) {index : ℕ} {machine final : Machine σ}
    (h : NodeLeaves g imports host index machine final) :
    final.trace = machine.trace ∨ final.trace = .dispatched index :: machine.trace ∨
      ∃ request reply, isEffectful g index = true ∧
        final.trace = .called index request reply :: .dispatched index :: machine.trace := by
  have hcall : ∀ node opcode request, g.NodeAt index node opcode →
      prepare g imports machine.values machine.hostResults index node opcode =
        .ok (.call request) → isEffectful g index = true := by
    intro node opcode request hnode hprepared
    obtain ⟨type, htype, hfits⟩ := haccepted.fits hnode
    rw [isEffectful_of_nodeAt hnode, ← (callFits_of_call htype hfits hprepared).opcode_eq]
    exact request.effectful
  cases h with
  | idle _ _ htrace => exact Or.inl htrace
  | charged => exact Or.inr (Or.inl rfl)
  | answered _ hnode hprepared =>
    exact Or.inr (Or.inr ⟨_, _, hcall _ _ _ hnode hprepared, rfl⟩)
  | performed _ hnode hprepared hperforms =>
    cases hperforms with
    | store value | proceed => exact Or.inr (Or.inl rfl)
    | emit | keep => exact Or.inr (Or.inr ⟨_, _, hcall _ _ _ hnode hprepared, rfl⟩)

/-- A performed node called the host exactly when it is effectful, and the host answered. -/
theorem Stepped.trace_eq (haccepted : Accepted g)
    (h : Stepped g imports host config config' node opcode action machine') :
    (isEffectful g config.next = false ∧
        machine'.trace = .dispatched config.next :: config.machine.trace) ∨
      (isEffectful g config.next = true ∧ ∃ request result,
        machine'.trace = .called config.next request (.ok result) :: .dispatched config.next ::
          config.machine.trace) := by
  obtain ⟨type, htype, hfits⟩ := haccepted.fits h.nodeAt
  have heffectful := isEffectful_of_nodeAt h.nodeAt
  have hperforms := h.performs
  rcases prepare_cases htype hfits
    h.prepared with ⟨value, rfl, hstore⟩ | ⟨request, rfl, hcall⟩ | ⟨rfl, hterminator⟩
  · cases hperforms
    exact Or.inl ⟨heffectful.trans hstore.not_effectful, rfl⟩
  · refine Or.inr ⟨?_, request, ?_⟩
    · rw [heffectful, ← hcall.opcode_eq]
      exact request.effectful
    · cases hperforms with
      | emit hreply | keep hreply => exact ⟨_, by rw [← hreply]; rfl⟩
  · cases hperforms
    refine Or.inl ⟨heffectful.trans ?_, rfl⟩
    rcases isTerminator_iff.mp hterminator with rfl | rfl | rfl <;> rfl

/-- Entering the next block adds to the trace nothing but its entry. -/
theorem Stepped.reads (h : Stepped g imports host config config' node opcode action machine') :
    dispatchedNodes config'.machine.trace = dispatchedNodes machine'.trace ∧
      callingNodes config'.machine.trace = callingNodes machine'.trace ∧
      (enteredBlocks machine'.trace <:+ enteredBlocks config'.machine.trace) ∧
      machine'.trace <:+ config'.machine.trace ∧
      (EachCall (CallOrdered g) machine'.trace →
        EachCall (CallOrdered g) config'.machine.trace) := by
  rcases h.machine_eq with heq | ⟨-, heq⟩
  · rw [heq]
    exact ⟨rfl, rfl, List.suffix_rfl, List.suffix_rfl, id⟩
  · rw [heq]
    exact ⟨rfl, rfl, List.suffix_cons .., List.suffix_cons .., id⟩

theorem Succeeded.mono {trace trace' : List Event} (hsub : trace ⊆ trace') {index : ℕ}
    (h : Succeeded trace index) : Succeeded trace' index := by
  obtain ⟨request, result, hcalled⟩ := h
  exact ⟨request, result, hsub hcalled⟩

/-- The call of the next node comes after the effectful nodes before it. -/
theorem Ordered.callOrdered_next (haccepted : Accepted g) (h : Ordered g config)
    (hposition : Positioned g config) (heffectful : isEffectful g config.next = true)
    (request : HostRequest) :
    CallOrdered g (.dispatched config.next :: config.machine.trace) config.next request := by
  obtain ⟨node, opcode, hnode, hopcode⟩ := isEffectful_iff.mp heffectful
  have hbefore := h.before haccepted hposition ⟨node, opcode, hnode, Or.inr hopcode⟩
  refine ⟨mem_effectChain.mpr heffectful, fun effect hmem hlt ↦ ⟨?_, ?_⟩⟩
  · exact List.mem_cons_of_mem config.next (hbefore effect hmem hlt)
  · exact (h.succeeded effect (hbefore effect hmem hlt) (mem_effectChain.mp hmem)).mono
      (List.subset_cons_self ..)

/-- One step of a run keeps its effects in order. -/
theorem Ordered.step (haccepted : Accepted g) (h : Ordered g config)
    (hposition : Positioned g config)
    (hstep : Stepped g imports host config config' node opcode action machine') :
    Ordered g config' := by
  obtain ⟨hdispatched, hcalling, hentered, hsuffix, hcalls⟩ := hstep.reads
  have hnext : dispatchedNodes machine'.trace =
      config.next :: dispatchedNodes config.machine.trace := by
    rcases hstep.trace_eq haccepted with ⟨-, htrace⟩ | ⟨-, request, result, htrace⟩ <;>
      rw [htrace] <;> rfl
  have hgrows : config.machine.trace ⊆ config'.machine.trace := by
    refine List.Subset.trans ?_ hsuffix.subset
    rcases hstep.trace_eq haccepted with ⟨-, htrace⟩ | ⟨-, request, result, htrace⟩ <;>
      rw [htrace] <;> simp
  have hblocks : enteredBlocks machine'.trace = enteredBlocks config.machine.trace :=
    hstep.performs.enteredBlocks_eq
  rw [hnext] at hdispatched
  constructor
  · intro index
    rw [hdispatched, hstep.executed, ← h.executed, List.mem_cons, or_comm]
  · intro index hmem heffectful
    rw [hdispatched] at hmem
    rcases List.mem_cons.mp hmem with rfl | hold
    · rcases hstep.trace_eq haccepted with ⟨hpure, -⟩ | ⟨-, request, result, htrace⟩
      · simp [hpure] at heffectful
      · exact ⟨request, result, hsuffix.subset (by simp [htrace])⟩
    · exact (h.succeeded index hold heffectful).mono hgrows
  · intro index hmem heffectAt effect heffect hlt
    rw [hdispatched] at hmem ⊢
    rcases List.mem_cons.mp hmem with rfl | hold
    · exact List.mem_cons_of_mem _ (h.before haccepted hposition heffectAt effect heffect hlt)
    · exact List.mem_cons_of_mem _ (h.closed index hold heffectAt effect heffect hlt)
  · apply hcalls
    rcases hstep.trace_eq haccepted with ⟨-, htrace⟩ | ⟨heffectful, request, result, htrace⟩
    · rw [htrace]
      exact h.calls
    · rw [htrace]
      exact ⟨h.callOrdered_next haccepted hposition heffectful request, h.calls⟩
  · rw [hcalling, hdispatched]
    rcases hstep.trace_eq haccepted with ⟨hpure, htrace⟩ | ⟨heffectful, request, result, htrace⟩
    · rw [htrace, List.filter_cons_of_neg (by simp [hpure])]
      exact h.calling
    · rw [htrace, List.filter_cons_of_pos heffectful]
      exact congrArg (config.next :: ·) h.calling
  · rw [hdispatched]
    exact h.first_next haccepted hposition
  · intro hnodup
    rw [hdispatched]
    exact h.nodup_next haccepted hposition (hblocks ▸ hentered.sublist.nodup hnodup)

/-- Every configuration that a run reaches has its effects in order. -/
theorem Reaches.ordered (haccepted : Accepted g) {budget : UInt64} {state : σ}
    (h : Reaches g imports host (Machine.init budget state) config) : Ordered g config := by
  induction h with
  | enter hblock =>
    refine ⟨fun index ↦ ⟨fun hmem ↦ ?_, fun hexecuted ↦ ?_⟩, fun index hmem ↦ ?_,
      fun index hmem ↦ ?_, trivial, rfl, List.nil_prefix, fun _ ↦ List.nodup_nil⟩
    · simp [dispatchedNodes, Machine.enter, Machine.init] at hmem
    · exact absurd hexecuted (not_executed_enter budget state hblock index)
    · simp [dispatchedNodes, Machine.enter, Machine.init] at hmem
    · simp [dispatchedNodes, Machine.enter, Machine.init] at hmem
  | step hreaches hstep ih =>
    have hposition := hreaches.positioned haccepted rfl
    obtain ⟨-, node, opcode, action, machine', hstepped⟩ := hstep.step haccepted hposition
    exact ih.step haccepted hposition hstepped

theorem Ordered.once (h : Ordered g config) (hblocks : (enteredBlocks config.machine.trace).Nodup) :
    (callingNodes config.machine.trace).reverse <+: effectChain g := by
  rw [h.calling, ← ((h.nodup hblocks).filter _).dedup]
  exact h.first

theorem effectOrdered_of_eachCall {trace : List Event} (hcalls : EachCall (CallOrdered g) trace)
    (hfirst : ((dispatchedNodes trace).filter (isEffectful g)).dedup.reverse <+: effectChain g)
    (honce : (enteredBlocks trace).Nodup → (callingNodes trace).reverse <+: effectChain g) :
    EffectOrdered g trace := by
  refine ⟨?_, hfirst, honce⟩
  rintro later earlier index request reply rfl
  exact hcalls.of_append.1

/-- The trace that the next node leaves, failing or not, has its effects in order. -/
theorem Ordered.leaves (haccepted : Accepted g) (h : Ordered g config)
    (hposition : Positioned g config) {final : Machine σ}
    (hleaves : NodeLeaves g imports host config.next config.machine final) :
    EffectOrdered g final.trace := by
  rcases hleaves.trace_cases haccepted with htrace | htrace | ⟨request, reply, heffectful, htrace⟩
  · rw [htrace]
    exact effectOrdered_of_eachCall h.calls h.first h.once
  · rw [htrace]
    exact effectOrdered_of_eachCall h.calls (h.first_next haccepted hposition) h.once
  · rw [htrace]
    refine effectOrdered_of_eachCall
      ⟨h.callOrdered_next haccepted hposition heffectful request, h.calls⟩
      (h.first_next haccepted hposition) fun hblocks ↦ ?_
    show (config.next :: callingNodes config.machine.trace).reverse <+: effectChain g
    have hnext := h.first_next haccepted hposition
    rwa [((h.nodup_next haccepted hposition hblocks).filter _).dedup,
      List.filter_cons_of_pos heffectful, ← h.calling] at hnext

/-- Effect order: at every point of a run of a verified package the effects happened in the order of the
chain. -/
theorem execute_effectOrdered {bytes : Bytes} {package : PythGraphPackage} {verified : VerifiedGraph}
    (hdecode : PythGraphPackage.decode bytes = .ok package)
    (hverify : verifyPackage package = .ok verified)
    (imports : Vector PackedCapability maxPythGraphImports) (budget : UInt64) (host : Host σ)
    (state : σ) :
    ∃ result final,
      executeInner verified.package.graph imports host (Machine.init budget state) =
          some (result, final) ∧
        EffectOrdered verified.package.graph final.trace ∧
          ∀ config, Reaches verified.package.graph imports host (Machine.init budget state) config →
            EffectOrdered verified.package.graph config.machine.trace := by
  have hwellFormed := ((PythGraphPackage.safe_decode bytes).of_ok hdecode).2
  obtain ⟨rfl, haccepted⟩ := (safe_verifyPackage hwellFormed).of_ok hverify
  obtain ⟨result, final, hrun, config, hreaches, hleaves⟩ :=
    executeInner_leaves haccepted imports host budget state
  refine ⟨result, final, hrun, ?_, fun config hreaches ↦ ?_⟩
  · exact (hreaches.ordered haccepted).leaves haccepted (hreaches.positioned haccepted rfl) hleaves
  · have hordered := hreaches.ordered haccepted
    exact effectOrdered_of_eachCall hordered.calls hordered.first hordered.once

/-- Two turns of the loop, each of which reads a command and logs it. -/
theorem execute_effectOrdered_echoPackage : ∃ package verified,
    PythGraphPackage.decode echoPackage = .ok package ∧ verifyPackage package = .ok verified ∧
      ∃ result final, executeInner verified.package.graph (Vector.replicate _ ⟨7⟩) growingHost
          (Machine.init 12 0) = some (result, final) ∧
        callingNodes final.trace = [6, 4, 6, 4] ∧ EffectOrdered verified.package.graph final.trace := by
  have hcalls : ((PythGraphPackage.decode echoPackage).toOption.bind fun package ↦
      (verifyPackage package).toOption.bind fun verified ↦
        (executeInner verified.package.graph (Vector.replicate _ ⟨7⟩) growingHost
          (Machine.init 12 0)).map fun run ↦ callingNodes run.2.trace) = some [6, 4, 6, 4] := by
    decide +kernel
  cases hdecode : PythGraphPackage.decode echoPackage with
  | error fault => simp [hdecode, Except.toOption] at hcalls
  | ok package =>
    cases hverify : verifyPackage package with
    | error fault => simp [hdecode, hverify, Except.toOption] at hcalls
    | ok verified =>
      obtain ⟨result, final, hrun, hordered, -⟩ :=
        execute_effectOrdered hdecode hverify (Vector.replicate _ ⟨7⟩) 12 growingHost 0
      refine ⟨package, verified, rfl, hverify, result, final, hrun, ?_, hordered⟩
      simpa [hdecode, hverify, Except.toOption, hrun] using hcalls

end Runs

end Pythos.Runtime
