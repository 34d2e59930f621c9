import Pythos.Tig.DominatorFacts
import Pythos.Tig.Verify

/-!
# What the semantics pass of the verifier guarantees

The semantics pass walks the nodes in index order with tables of result types and capability origins
and a cursor for the last effect node. On a graph whose blocks are laid out and whose inputs are
available it does not panic, and it accepts a graph only when every node fits: its operands have the
types of its signature, a projection directly follows its producer, a capability parameter names a
declared import, an effectful node consumes the token of the effect node before it, and its capability
has the authority that its opcode requires (`NodeFits`).
-/

namespace Pythos.Tig

open Foundation

namespace Graph

/-- The node at an index has a result type. -/
def TypeAt (g : Graph) (index : ℕ) (type : PythType) : Prop :=
  ∃ node, g.nodes[index]? = some node ∧ PythType.ofCode node.resultType = some type

/-- The operands and the result of a node are those of its signature. -/
structure OperandsFit (g : Graph) (node : NodeRecord) (opcode : Opcode) (type : PythType) :
    Prop where
  result : opcodeAcceptsResult opcode type opcode.signature.result = true
  operand : ∀ (position input : ℕ), (node.inputs.take opcode.signature.inputCount)[position]? =
    some input → input ≠ noValue ∧ ∃ expected,
      opcode.signature.inputs[position]? = some expected ∧ g.TypeAt input expected
  rest : ∀ input ∈ node.inputs.drop opcode.signature.inputCount, input = noValue

/-- A projection reads a field of a host operation that it follows, with nothing but projections of
the same operation between them. -/
structure ProjectionFits (g : Graph) (index : ℕ) (node : NodeRecord) (type : PythType) : Prop where
  input0_lt : node.input0 < index
  run : ∀ other, node.input0 < other → other < index →
    ∃ projector, g.NodeAt other projector .hostResult ∧ projector.input0 = node.input0
  producer : ∃ producer opcode, g.NodeAt node.input0 producer opcode ∧
    opcode.signature.effectful = true ∧ hostResultFieldType opcode node.auxiliary0 = some type
  rest : node.input1 = noValue ∧ node.input2 = noValue ∧ node.input3 = noValue

/-- A capability parameter stands in the entry block and names a declared import. -/
structure ParameterFits (g : Graph) (node : NodeRecord) : Prop where
  blockIndex_eq : node.blockIndex = g.entryBlock
  auxiliary0_lt : node.auxiliary0 < 2 ^ 16
  declared : ∃ record, g.imports.find? (fun record ↦ record.importSlot = node.auxiliary0) =
    some record ∧ record.expectedType = PythType.capability.code

/-- An effect node: the start of the chain or a host operation. -/
def EffectAt (g : Graph) (index : ℕ) : Prop :=
  ∃ node opcode, g.NodeAt index node opcode ∧
    (opcode = .effectStart ∨ opcode.signature.effectful = true)

/-- The node consumes the token of the effect node before it. -/
structure EffectLink (g : Graph) (index : ℕ) (node : NodeRecord) : Prop where
  input0_lt : node.input0 < index
  effectAt : g.EffectAt node.input0
  last : ∀ other, node.input0 < other → other < index → ¬ g.EffectAt other

/-- The capability operand of a node has the authority that its opcode requires: it is a parameter
for an import with the required kind and rights, or a capability that an object operation returned. -/
def Authorized (g : Graph) (node : NodeRecord) (opcode : Opcode) (kind : ℕ) : Prop :=
  ∃ source, g.TypeAt node.input1 .capability ∧
    ((g.NodeAt node.input1 source .blockParam ∧ g.ParameterFits source ∧
        ∃ record, g.imports.find? (fun record ↦ record.importSlot = source.auxiliary0) =
          some record ∧ record.expectedType = PythType.capability.code ∧
            record.resourceKind = kind ∧
              record.rights &&& opcode.signature.requiredRights = opcode.signature.requiredRights) ∨
      (g.NodeAt node.input1 source .hostResult ∧ kind = resourceObject ∧
        (rightsRead ||| rightsRevise) &&& opcode.signature.requiredRights =
          opcode.signature.requiredRights))

/-- What the match on the opcode checks of a node. -/
structure ShapeFits (g : Graph) (index : ℕ) (node : NodeRecord) (opcode : Opcode)
    (type : PythType) : Prop where
  operands : opcode ≠ .hostResult → opcode ≠ .jump → g.OperandsFit node opcode type
  projection : opcode = .hostResult → g.ProjectionFits index node type
  parameter : opcode = .blockParam → type = .capability → g.ParameterFits node

/-- What the effect part of the pass checks of a node. -/
structure EffectFits (g : Graph) (index : ℕ) (node : NodeRecord) (opcode : Opcode) : Prop where
  start : opcode = .effectStart → ∀ other < index, ¬ g.EffectAt other
  link : opcode.signature.effectful = true → g.EffectLink index node
  authority : opcode.signature.effectful = true → ∀ kind,
    opcode.signature.requiredResourceKind = some kind → g.Authorized node opcode kind

/-- What the semantics pass checks of one node. -/
structure NodeFits (g : Graph) (index : ℕ) (node : NodeRecord) (opcode : Opcode)
    (type : PythType) : Prop extends g.ShapeFits index node opcode type, g.EffectFits index node opcode where
  capability : type = .capability → opcode = .blockParam ∨ opcode = .hostResult

/-- Every node of the graph fits. -/
def Typed (g : Graph) : Prop :=
  ∀ index node opcode type, g.NodeAt index node opcode →
    PythType.ofCode node.resultType = some type → g.NodeFits index node opcode type

variable {g : Graph} {index : ℕ}

theorem TypeAt.unique {first second : PythType} (hfirst : g.TypeAt index first)
    (hsecond : g.TypeAt index second) : first = second := by
  obtain ⟨node, hnode, htype⟩ := hfirst
  obtain ⟨node', hnode', htype'⟩ := hsecond
  obtain rfl : node = node' := by simpa [hnode] using hnode'
  simpa [htype] using htype'

/-- All opcodes but two fix the type of their result. -/
theorem OperandsFit.result_eq {node : NodeRecord} {opcode : Opcode} {type : PythType}
    (h : g.OperandsFit node opcode type) (hfixed : opcode ≠ .constU64 ∧ opcode ≠ .blockParam) :
    type = opcode.signature.result := by
  have hresult := h.result
  simpa [opcodeAcceptsResult, hfixed.1, hfixed.2] using hresult

theorem NodeAt.effectAt_iff {node : NodeRecord} {opcode : Opcode} (h : g.NodeAt index node opcode) :
    g.EffectAt index ↔ opcode = .effectStart ∨ opcode.signature.effectful = true := by
  constructor
  · rintro ⟨node', opcode', h', heffect⟩
    rw [(h.unique h').2]
    exact heffect
  · exact fun heffect ↦ ⟨node, opcode, h, heffect⟩

end Graph

/-! ### The tables of the pass -/

section Tables

variable {g : Graph}

/-- The table of result types before the node `next`: the types of the earlier nodes, and `Unit`
elsewhere. -/
structure TypesShow (g : Graph) (next : ℕ) (resultTypes : List PythType) : Prop where
  length_eq : resultTypes.length = maxGraphNodes
  typeAt : ∀ (index : ℕ) type, resultTypes[index]? = some type → type ≠ .unit → g.TypeAt index type
  seen : ∀ (index : ℕ) type, index < next → g.TypeAt index type → resultTypes[index]? = some type

/-- Where a capability origin says its node comes from. -/
def OriginShows (g : Graph) (index : ℕ) : CapabilityOrigin → Prop
  | .none => True
  | .import slot => ∃ node, g.NodeAt index node .blockParam ∧ g.ParameterFits node ∧
      node.auxiliary0 = slot
  | .hostResult kind rights => (∃ node, g.NodeAt index node .hostResult) ∧ kind = resourceObject ∧
      rights = (rightsRead ||| rightsRevise)

structure OriginsShow (g : Graph) (origins : List CapabilityOrigin) : Prop where
  length_eq : origins.length = maxGraphNodes
  shows : ∀ (index : ℕ) origin, origins[index]? = some origin → OriginShows g index origin

/-- The effect cursor before the node `next`. -/
def CursorShows (g : Graph) (next cursor : ℕ) : Prop :=
  (cursor = noValue ∧ ∀ index < next, ¬ g.EffectAt index) ∨
    (cursor < next ∧ g.EffectAt cursor ∧ ∀ index, cursor < index → index < next → ¬ g.EffectAt index)

structure SemanticsShow (g : Graph) (next : ℕ) (state : SemanticsState) : Prop where
  types : TypesShow g next state.resultTypes
  origins : OriginsShow g state.capabilityOrigins
  consumers_length : state.effectConsumers.length = maxGraphNodes
  cursor : CursorShows g next state.currentEffect
  started : state.effectStart = none → ∀ index < next, ∀ node, ¬ g.NodeAt index node .effectStart
  unstarted : state.effectStart = none → state.currentEffect = noValue

variable {next : ℕ}

theorem TypesShow.set {resultTypes : List PythType} {type : PythType}
    (h : TypesShow g next resultTypes) (hnext : next < maxGraphNodes) (htype : g.TypeAt next type) :
    TypesShow g (next + 1) (resultTypes.set next type) := by
  have hlt : next < resultTypes.length := h.length_eq.symm ▸ hnext
  refine ⟨by rw [List.length_set, h.length_eq], fun index other hother hne ↦ ?_,
    fun index other hindex hother ↦ ?_⟩
  · by_cases heq : next = index
    · subst heq
      rw [List.getElem?_set_self hlt, Option.some_inj] at hother
      exact hother ▸ htype
    · rw [List.getElem?_set_ne heq] at hother
      exact h.typeAt index other hother hne
  · by_cases heq : next = index
    · subst heq
      rw [List.getElem?_set_self hlt, htype.unique hother]
    · rw [List.getElem?_set_ne heq]
      exact h.seen index other (by omega) hother

theorem OriginsShow.set {origins : List CapabilityOrigin} (h : OriginsShow g origins) {index : ℕ}
    {origin : CapabilityOrigin} (hindex : index < maxGraphNodes)
    (horigin : OriginShows g index origin) : OriginsShow g (origins.set index origin) := by
  have hlt : index < origins.length := h.length_eq.symm ▸ hindex
  refine ⟨by rw [List.length_set, h.length_eq], fun other shown hshown ↦ ?_⟩
  by_cases heq : index = other
  · subst heq
    rw [List.getElem?_set_self hlt, Option.some_inj] at hshown
    exact hshown ▸ horigin
  · rw [List.getElem?_set_ne heq] at hshown
    exact h.shows other shown hshown

theorem CursorShows.skip {cursor : ℕ} (h : CursorShows g next cursor) (hnext : ¬ g.EffectAt next) :
    CursorShows g (next + 1) cursor := by
  rcases h with ⟨hnone, hfree⟩ | ⟨hlt, hat, hfree⟩
  · exact Or.inl ⟨hnone, Nat.forall_lt_succ_right.mpr ⟨hfree, hnext⟩⟩
  · refine Or.inr ⟨by omega, hat, fun index hlow hhigh ↦ ?_⟩
    rcases Nat.lt_succ_iff_lt_or_eq.mp hhigh with hbefore | rfl
    · exact hfree index hlow hbefore
    · exact hnext

theorem cursorShows_of_effectAt (hnext : g.EffectAt next) : CursorShows g (next + 1) next :=
  Or.inr ⟨Nat.lt_succ_self next, hnext, fun index hlow hhigh ↦ by omega⟩

end Tables

/-! ### Operands -/

section Operands

variable {g : Graph} {nodes : Records NodeRecord} (hnodes : nodes.Shows g.nodes)
  (hcount : g.nodes.length ≤ maxGraphNodes)

include hnodes hcount in
theorem safe_verifyOperand {opcode : Opcode} {next : ℕ} {resultTypes : List PythType}
    (htypes : TypesShow g next resultTypes) (nodeIndex : ℕ) {position : ℕ}
    (hposition : position < opcode.signature.inputCount) (input : ℕ) :
    Safe (verifyOperand nodes opcode.signature resultTypes nodeIndex position input) fun _ ↦
      input ≠ noValue ∧ ∃ expected, opcode.signature.inputs[position]? = some expected ∧
        g.TypeAt input expected := by
  have hlt : position < opcode.signature.inputs.length := by
    rw [opcode.length_inputs]
    exact lt_of_lt_of_le hposition opcode.inputCount_le
  have hget := List.getElem?_eq_getElem hlt
  simp only [verifyOperand, hnodes.len_eq, safe_bind_iff, safe_index, safe_ite, safe_fail, safe_reject,
    implies_true, true_and, ge_iff_le, not_le, not_not, and_self]
  refine ⟨_, hget, fun hne hinput ↦ ?_⟩
  have hinputLt : input < resultTypes.length := htypes.length_eq.symm ▸ lt_of_lt_of_le hinput hcount
  refine ⟨_, List.getElem?_eq_getElem hinputLt, fun hsame ↦ ⟨hne, _, hget, ?_⟩⟩
  refine htypes.typeAt input _ ?_ fun hunit ↦ ?_
  · rw [List.getElem?_eq_getElem hinputLt, hsame]
  · exact opcode.unit_not_mem_inputs hposition (hunit ▸ hget)

include hnodes hcount in
theorem safe_verifyOpcodeSignature {index : ℕ} {node : NodeRecord} {opcode : Opcode}
    {type : PythType} {resultTypes : List PythType} (hnode : g.NodeAt index node opcode)
    (htype : PythType.ofCode node.resultType = some type)
    (htypes : TypesShow g (index + 1) resultTypes) :
    Safe (verifyOpcodeSignature nodes index node resultTypes) fun _ ↦
      g.OperandsFit node opcode type := by
  simp only [verifyOpcodeSignature, safe_bind_iff, safe_expect, safe_index, safe_reject, not_not]
  refine ⟨opcode, hnode.2, type, htypes.seen index type (Nat.lt_succ_self _) ⟨node, hnode.1, htype⟩,
    fun hresult ↦ ?_⟩
  refine (safe_forEach_check fun position input hinput ↦
    safe_verifyOperand hnodes hcount htypes index ?_ input).mono fun _ hoperands ↦ ?_
  · have hlt := (List.getElem?_eq_some_iff.mp hinput).1
    exact lt_of_lt_of_le hlt (List.length_take_le _ _)
  refine (safe_forEach_check fun position input _ ↦ safe_reject_not).mono fun _ hrest ↦ ?_
  refine ⟨hresult, hoperands, fun input hinput ↦ ?_⟩
  obtain ⟨position, hposition⟩ := List.mem_iff_getElem?.mp hinput
  exact not_not.mp (hrest position input hposition)

end Operands

/-! ### Projections -/

section Projections

variable {g : Graph} {nodes : Records NodeRecord} (hnodes : nodes.Shows g.nodes)

include hnodes in
theorem safe_projectionRunLoop (producer : ℕ) (remaining : ℕ) : ∀ position,
    position + remaining < usizeSize →
      Safe (projectionRunLoop nodes producer position remaining) fun contiguous ↦
        contiguous = true → ∀ other, position ≤ other → other < position + remaining →
          ∃ projector, g.NodeAt other projector .hostResult ∧ projector.input0 = producer := by
  induction remaining with
  | zero =>
    intro position _ _ other hlow hhigh
    omega
  | succ remaining ih =>
    intro position hbound
    unfold projectionRunLoop
    rw [hnodes.get_eq]
    cases hprojector : g.nodes[position]? with
    | none => exact nofun
    | some projector =>
      simp only [safe_ite, safe_pure, safe_bind_iff, safe_addUsize]
      refine ⟨fun _ ↦ nofun, fun hprojects ↦ ⟨by omega, ?_⟩⟩
      push Not at hprojects
      refine (ih (position + 1) (by omega)).mono fun contiguous hrest htrue other hlow hhigh ↦ ?_
      by_cases heq : other = position
      · subst heq
        exact ⟨projector, ⟨hprojector, hprojects.1⟩, hprojects.2⟩
      · exact hrest htrue other (by omega) (by omega)

include hnodes in
theorem safe_hostResultIsInContiguousProjectionRun {producer index : ℕ}
    (hindex : index < maxGraphNodes) :
    Safe (hostResultIsInContiguousProjectionRun nodes producer index) fun contiguous ↦
      contiguous = true → producer < index ∧ ∀ other, producer < other → other < index →
        ∃ projector, g.NodeAt other projector .hostResult ∧ projector.input0 = producer := by
  have husize : maxGraphNodes < usizeSize := by decide
  simp only [hostResultIsInContiguousProjectionRun, safe_ite, safe_pure, safe_bind_iff, safe_addUsize]
  refine ⟨fun _ hfalse ↦ absurd hfalse Bool.false_ne_true,
    fun hlt ↦ ⟨fun _ hfalse ↦ absurd hfalse Bool.false_ne_true, fun _ ↦ ⟨by omega, ?_⟩⟩⟩
  refine (safe_projectionRunLoop hnodes producer (index - (producer + 1)) (producer + 1)
    (by omega)).mono fun contiguous hrun htrue ↦ ⟨by omega, fun other hlow hhigh ↦ ?_⟩
  exact hrun htrue other (by omega) (by omega)

include hnodes in
theorem safe_verifyHostResult {index : ℕ} {node : NodeRecord} {type : PythType}
    (hindex : index < maxGraphNodes) :
    Safe (verifyHostResult nodes index node type) fun schema ↦
      g.ProjectionFits index node type ∧ (∀ origin, schema.capabilityOrigin = some origin →
        origin = .hostResult resourceObject (rightsRead ||| rightsRevise)) := by
  refine safe_bind (safe_hostResultIsInContiguousProjectionRun hnodes hindex)
    fun contiguous hcontiguous ↦ ?_
  simp only [hnodes.get_eq, safe_bind_iff, safe_reject, safe_okOr, safe_pure, not_not, not_or]
  intro htrue producer hproducer opcode hopcode hshape schema hschema htype
  obtain ⟨hlt, hrun⟩ := hcontiguous htrue
  obtain ⟨heffectful, hrest⟩ := hshape
  obtain ⟨resultType, hresultType, hbuilt⟩ := Option.map_eq_some_iff.mp hschema
  refine ⟨⟨hlt, hrun, ⟨producer, opcode, ⟨hproducer, hopcode⟩, heffectful, ?_⟩, hrest⟩,
    fun origin horigin ↦ ?_⟩
  · rw [← htype, ← hbuilt]
    exact hresultType
  · rw [← hbuilt] at horigin
    by_cases hcapability : resultType = .capability
    · simpa [hcapability] using horigin.symm
    · simp [hcapability] at horigin

end Projections

/-! ### Capabilities -/

section Capabilities

variable {package : PythGraphPackage} (h : package.WellFormed)

theorem findImport_importRecords (package : PythGraphPackage) (slot : ℕ) :
    findImport package.importRecords slot =
      package.graph.imports.find? fun record ↦ record.importSlot = slot :=
  rfl

include h in
theorem safe_verifyImportBlockParam (index : ℕ) (node : NodeRecord) :
    Safe (verifyImportBlockParam package index node) fun slot ↦
      package.graph.ParameterFits node ∧ node.auxiliary0 = slot := by
  simp only [verifyImportBlockParam, h.imports_eq, ok_bind, findImport_importRecords, safe_bind_iff,
    safe_reject, safe_okOr, safe_pure, not_not]
  exact fun hblock hslot record hrecord htype ↦ ⟨⟨hblock, hslot, record, hrecord, htype⟩, trivial⟩

include h in
theorem safe_verifyHostImport {index : ℕ} {node : NodeRecord} {opcode : Opcode}
    {resultTypes : List PythType} {origins : List CapabilityOrigin} {next : ℕ}
    (htypes : TypesShow package.graph next resultTypes) (horigins : OriginsShow package.graph origins)
    (hinput : opcode.signature.requiredResourceKind.isSome → node.input1 < maxGraphNodes) :
    Safe (verifyHostImport package index node opcode resultTypes origins) fun _ ↦
      ∀ kind, opcode.signature.requiredResourceKind = some kind →
        package.graph.Authorized node opcode kind := by
  unfold verifyHostImport
  cases hkind : opcode.signature.requiredResourceKind with
  | none => exact safe_pure.mpr fun kind hnone ↦ by simp at hnone
  | some required =>
    have hlt := hinput (by rw [hkind]; rfl)
    have htypeLt : node.input1 < resultTypes.length := htypes.length_eq.symm ▸ hlt
    have horiginLt : node.input1 < origins.length := horigins.length_eq.symm ▸ hlt
    simp only [safe_bind_iff, safe_index, safe_reject, not_not]
    refine ⟨_, List.getElem?_eq_getElem htypeLt, fun hcapability ↦ ?_⟩
    have htypeAt : package.graph.TypeAt node.input1 .capability := by
      refine htypes.typeAt node.input1 .capability ?_ (by simp)
      rw [List.getElem?_eq_getElem htypeLt, hcapability]
    refine ⟨_, List.getElem?_eq_getElem horiginLt, ?_⟩
    have hshows := horigins.shows node.input1 _ (List.getElem?_eq_getElem horiginLt)
    cases horigin : origins[node.input1] with
    | none => exact safe_fail
    | «import» slot =>
      rw [horigin] at hshows
      obtain ⟨source, hsource, hfits, rfl⟩ := hshows
      simp only [h.imports_eq, ok_bind, findImport_importRecords, safe_bind_iff, safe_okOr, safe_reject,
        not_not, not_or]
      rintro record hrecord hexpected ⟨hkind, hrights⟩ kind ⟨⟩
      exact ⟨source, htypeAt, Or.inl ⟨hsource, hfits, record, hrecord, hexpected, hkind, hrights⟩⟩
    | hostResult resourceKind rights =>
      rw [horigin] at hshows
      obtain ⟨⟨source, hsource⟩, rfl, rfl⟩ := hshows
      simp only [safe_reject, not_not, not_or]
      rintro ⟨hkind, hrights⟩ kind ⟨⟩
      exact ⟨source, htypeAt, Or.inr ⟨hsource, hkind.symm, hrights⟩⟩

theorem safe_verifyCapabilityInputs {node : NodeRecord} {resultTypes : List PythType}
    {origins : List CapabilityOrigin} (htypes : resultTypes.length = maxGraphNodes)
    (horigins : origins.length = maxGraphNodes)
    (hinputs : ∀ input ∈ node.inputs, input ≠ noValue → input < maxGraphNodes) :
    Safe (verifyCapabilityInputs node resultTypes origins) fun _ ↦ True := by
  refine (safe_forEach_check fun position input hinput ↦
    (?_ : Safe _ fun _ ↦ True)).mono fun _ _ ↦ trivial
  simp only [safe_ite, safe_bind_iff, safe_index, safe_reject, safe_pure, implies_true, and_true, true_and]
  intro hne
  have hlt := hinputs input (List.mem_of_getElem? hinput) hne
  exact ⟨_, List.getElem?_eq_getElem (htypes.symm ▸ hlt),
    fun _ ↦ ⟨_, List.getElem?_eq_getElem (horigins.symm ▸ hlt)⟩⟩

end Capabilities

/-! ### The pass -/

section Semantics

variable {package : PythGraphPackage} (h : package.WellFormed)

variable {index : ℕ} {node : NodeRecord} {type : PythType} {opcode : Opcode}
  {state : SemanticsState}

theorem verifyNodeShape_eq_signature {nodes : Records NodeRecord} {resultTypes : List PythType}
    {origins : List CapabilityOrigin} (hparam : opcode ≠ .blockParam)
    (hresult : opcode ≠ .hostResult) (hjump : opcode ≠ .jump) :
    verifyNodeShape package nodes resultTypes origins index node type opcode =
      (verifyOpcodeSignature nodes index node resultTypes >>= fun _ ↦ pure origins) := by
  cases opcode <;> first | rfl | contradiction

include h in
theorem safe_verifyNodeShape {resultTypes : List PythType} {origins : List CapabilityOrigin}
    (hnode : package.graph.NodeAt index node opcode)
    (htype : PythType.ofCode node.resultType = some type)
    (htypes : TypesShow package.graph (index + 1) resultTypes)
    (horigins : OriginsShow package.graph origins) :
    Safe (verifyNodeShape package package.nodeRecords resultTypes origins index node type opcode)
      fun result ↦ OriginsShow package.graph result ∧
        package.graph.ShapeFits index node opcode type := by
  have hindex := h.index_lt hnode.1
  have hsignature := safe_verifyOpcodeSignature h.shows_nodes h.length_nodes_le hnode htype htypes
  by_cases hparam : opcode = .blockParam
  · subst hparam
    refine safe_bind hsignature fun _ hoperands ↦ safe_ite.mpr ⟨fun hcapability ↦ ?_, fun hcapability ↦ ?_⟩
    · refine safe_bind (safe_verifyImportBlockParam h index node) fun slot hslot ↦ ?_
      refine safe_setIndex.mpr ⟨horigins.length_eq.symm ▸ hindex, ?_, ?_⟩
      · exact horigins.set hindex ⟨node, hnode, hslot.1, hslot.2⟩
      · exact ⟨fun _ _ ↦ hoperands, nofun, fun _ _ ↦ hslot.1⟩
    · exact safe_pure.mpr ⟨horigins, fun _ _ ↦ hoperands, nofun, fun _ hfalse ↦ absurd hfalse hcapability⟩
  by_cases hresult : opcode = .hostResult
  · subst hresult
    refine safe_bind (safe_verifyHostResult h.shows_nodes hindex) fun schema hschema ↦ ?_
    have hshape : package.graph.ShapeFits index node .hostResult type :=
      ⟨fun hne ↦ absurd rfl hne, fun _ ↦ hschema.1, fun hfalse ↦ absurd hfalse hparam⟩
    refine safe_ite.mpr ⟨fun hcapability ↦ ?_, fun _ ↦ safe_pure.mpr ⟨horigins, hshape⟩⟩
    refine safe_okOr_bind fun origin horigin ↦ ?_
    refine safe_setIndex.mpr ⟨horigins.length_eq.symm ▸ hindex, horigins.set hindex ?_, hshape⟩
    rw [hschema.2 origin horigin]
    exact ⟨⟨node, hnode⟩, rfl, rfl⟩
  by_cases hjump : opcode = .jump
  · subst hjump
    exact safe_pure.mpr ⟨horigins, fun _ hne ↦ absurd rfl hne, fun hfalse ↦ absurd hfalse hresult,
      fun hfalse ↦ absurd hfalse hparam⟩
  · rw [verifyNodeShape_eq_signature hparam hresult hjump]
    refine safe_bind hsignature fun _ hoperands ↦ safe_pure.mpr ⟨horigins, ?_⟩
    exact ⟨fun _ _ ↦ hoperands, fun hfalse ↦ absurd hfalse hresult,
      fun hfalse ↦ absurd hfalse hparam⟩

/-- The state before the effect part of the node `index`: the tables already hold the node, the
cursors do not. -/
structure EffectShow (g : Graph) (index : ℕ) (state : SemanticsState) : Prop where
  types : TypesShow g (index + 1) state.resultTypes
  origins : OriginsShow g state.capabilityOrigins
  consumers_length : state.effectConsumers.length = maxGraphNodes
  cursor : CursorShows g index state.currentEffect
  started : state.effectStart = none → ∀ other < index, ∀ node, ¬ g.NodeAt other node .effectStart
  unstarted : state.effectStart = none → state.currentEffect = noValue

/-- A node that is no start of the chain leaves the chain unstarted. -/
theorem EffectShow.started_succ {g : Graph} (h : EffectShow g index state)
    (hnode : g.NodeAt index node opcode) (hstart : opcode ≠ .effectStart) (hnone : state.effectStart = none) :
    ∀ other < index + 1, ∀ node, ¬ g.NodeAt other node .effectStart :=
  Nat.forall_lt_succ_right.mpr ⟨h.started hnone, fun _ hnode' ↦ hstart (hnode.unique hnode').2⟩

theorem EffectShow.skip {g : Graph} (h : EffectShow g index state)
    (hnode : g.NodeAt index node opcode) (hstart : opcode ≠ .effectStart)
    (hpure : ¬ opcode.signature.effectful = true) : SemanticsShow g (index + 1) state := by
  have hnone : ¬ g.EffectAt index := by
    rw [hnode.effectAt_iff]
    exact fun heffect ↦ heffect.elim hstart hpure
  exact ⟨h.types, h.origins, h.consumers_length, h.cursor.skip hnone, h.started_succ hnode hstart,
    h.unstarted⟩

include h in
theorem safe_verifyEffectLink (hnode : package.graph.NodeAt index node opcode)
    (heffectful : opcode.signature.effectful = true)
    (hinputs : ∀ input ∈ node.inputs, input ≠ noValue → input < maxGraphNodes)
    (hinput1 : node.input1 ≠ noValue) (hstate : EffectShow package.graph index state) :
    Safe (verifyEffectLink package state index node opcode) fun result ↦
      SemanticsShow package.graph (index + 1) result ∧
        package.graph.EffectFits index node opcode := by
  have hindex := h.index_lt hnode.1
  have hsmall : asU32 index = index := asU32_of_lt (hindex.trans (by decide))
  have hnotStart : opcode ≠ .effectStart := by
    rintro rfl
    exact absurd heffectful (by decide)
  have heffectAt : package.graph.EffectAt index := hnode.effectAt_iff.mpr (Or.inr heffectful)
  simp only [verifyEffectLink, hsmall, safe_bind_iff, safe_reject, safe_index, safe_setIndex, safe_pure,
    not_not]
  intro hproducer
  have hproducerLt : node.input0 < state.effectConsumers.length :=
    hstate.consumers_length.symm ▸ hinputs _ (by simp [NodeRecord.inputs]) hproducer
  refine ⟨_, List.getElem?_eq_getElem hproducerLt, hproducerLt, fun _ hcursor ↦ ?_⟩
  refine (safe_verifyHostImport h hstate.types hstate.origins
    fun _ ↦ hinputs _ (by simp [NodeRecord.inputs]) hinput1).mono fun _ hauthority ↦ ?_
  refine ⟨⟨hstate.types, hstate.origins, List.length_set.trans hstate.consumers_length,
    cursorShows_of_effectAt heffectAt, hstate.started_succ hnode hnotStart, ?_⟩, ?_⟩
  · intro hunstarted
    exact absurd (hcursor.trans (hstate.unstarted hunstarted)) hproducer
  · refine ⟨fun hfalse ↦ absurd hfalse hnotStart, fun _ ↦ ?_, fun _ ↦ hauthority⟩
    rcases hstate.cursor with ⟨hnone, -⟩ | ⟨hlt, hat, hfree⟩
    · exact absurd (hcursor.trans hnone) hproducer
    · rw [← hcursor] at hlt hat hfree
      exact ⟨hlt, hat, hfree⟩

include h in
theorem safe_verifyNodeEffect (hnode : package.graph.NodeAt index node opcode)
    (hinputs : ∀ input ∈ node.inputs, input ≠ noValue → input < maxGraphNodes)
    (hinput1 : opcode.signature.effectful = true → node.input1 ≠ noValue)
    (hstate : EffectShow package.graph index state) :
    Safe (verifyNodeEffect package state index node type opcode) fun result ↦
      SemanticsShow package.graph (index + 1) result ∧
        package.graph.EffectFits index node opcode := by
  have hindex := h.index_lt hnode.1
  have hsmall : asU32 index = index := asU32_of_lt (hindex.trans (by decide))
  simp only [verifyNodeEffect, hsmall, safe_ite, safe_bind_iff, safe_reject, safe_pure, not_or]
  refine ⟨fun hstart ↦ ?_, fun hstart ↦ ⟨fun heffectful ↦ ?_, fun hpure ↦ ?_⟩⟩
  · subst hstart
    refine (safe_countValues node.inputs (show 4 < usizeSize by decide)).mono fun _ _ hfirst ↦ ?_
    have hunstarted : state.effectStart = none := by simpa using hfirst.1
    refine ⟨⟨hstate.types, hstate.origins, hstate.consumers_length,
      cursorShows_of_effectAt (hnode.effectAt_iff.mpr (Or.inl rfl)), nofun, nofun⟩,
      fun _ other hother ↦ ?_, nofun, nofun⟩
    rcases hstate.cursor with ⟨-, hfree⟩ | ⟨hlt, -, -⟩
    · exact hfree other hother
    · have hnone := hstate.unstarted hunstarted
      have hbig : maxGraphNodes < noValue := by decide
      omega
  · exact safe_verifyEffectLink h hnode heffectful hinputs (hinput1 heffectful) hstate
  · exact ⟨hstate.skip hnode hstart hpure, fun hfalse ↦ absurd hfalse hstart,
      fun hfalse ↦ absurd hfalse hpure, fun hfalse ↦ absurd hfalse hpure⟩

include h in
theorem safe_verifyNodeSemantics (hknown : package.graph.Known)
    (hnode : package.graph.nodes[index]? = some node)
    (hinputs : ∀ input ∈ node.inputs, input ≠ noValue → input < maxGraphNodes)
    (hstate : SemanticsShow package.graph index state) :
    Safe (verifyNodeSemantics package package.nodeRecords state index node) fun result ↦
      SemanticsShow package.graph (index + 1) result ∧ ∀ opcode type,
        package.graph.NodeAt index node opcode → PythType.ofCode node.resultType = some type →
          package.graph.NodeFits index node opcode type := by
  have hindex := h.index_lt hnode
  obtain ⟨opcode, hopcode⟩ := hknown.opcode node (List.mem_of_getElem? hnode)
  obtain ⟨type, htype⟩ := hknown.resultType node (List.mem_of_getElem? hnode)
  have hnodeAt : package.graph.NodeAt index node opcode := ⟨hnode, hopcode⟩
  refine safe_expect_bind hopcode (safe_expect_bind htype ?_)
  rw [safe_bind_iff, safe_setIndex]
  refine ⟨hstate.types.length_eq.symm ▸ hindex, ?_⟩
  have htypes := hstate.types.set hindex ⟨node, hnode, htype⟩
  refine safe_reject_bind fun hcapability ↦ ?_
  refine safe_bind (safe_verifyNodeShape h hnodeAt htype htypes hstate.origins)
    fun origins horigins ↦ ?_
  have hinput1 : opcode.signature.effectful = true → node.input1 ≠ noValue := by
    intro heffectful
    obtain ⟨-, -, hcount, -⟩ := Opcode.signature_of_effectful heffectful
    have hother : opcode ≠ .hostResult ∧ opcode ≠ .jump :=
      ⟨fun heq ↦ absurd heffectful (heq ▸ by decide), fun heq ↦ absurd heffectful (heq ▸ by decide)⟩
    refine ((horigins.2.operands hother.1 hother.2).operand 1 node.input1 ?_).1
    rw [List.getElem?_take_of_lt (by omega)]
    rfl
  refine safe_bind (safe_verifyNodeEffect h hnodeAt hinputs hinput1
    ⟨htypes, horigins.1, hstate.consumers_length, hstate.cursor, hstate.started, hstate.unstarted⟩)
      fun result hresult ↦ ?_
  refine safe_bind (safe_verifyCapabilityInputs hresult.1.types.length_eq hresult.1.origins.length_eq
    hinputs) fun _ _ ↦ safe_pure.mpr ⟨hresult.1, fun opcode' type' hnodeAt' htype' ↦ ?_⟩
  obtain rfl : opcode = opcode' := (hnodeAt.unique hnodeAt').2
  obtain rfl : type = type' := by simpa [htype] using htype'
  refine ⟨horigins.2, hresult.2, fun hcap ↦ ?_⟩
  by_contra hother
  exact hcapability ⟨hcap, hother⟩

theorem semanticsShow_init (g : Graph) : SemanticsShow g 0 SemanticsState.init where
  types := by
    refine ⟨List.length_replicate, fun index type htype hne ↦ ?_, nofun⟩
    exact absurd (List.eq_of_mem_replicate (List.mem_of_getElem? htype)) hne
  origins := by
    refine ⟨List.length_replicate, fun index origin horigin ↦ ?_⟩
    rw [List.eq_of_mem_replicate (List.mem_of_getElem? horigin)]
    trivial
  consumers_length := List.length_replicate
  cursor := Or.inl ⟨rfl, nofun⟩
  started := nofun
  unstarted := fun _ ↦ rfl

/-- The semantics pass accepts only graphs whose nodes all fit. -/
theorem safe_verifySemantics (h : package.WellFormed) (hknown : package.graph.Known)
    {dominators : List (BitVec 128)} (havailable : InputsAvailable package.graph dominators) :
    Safe (verifySemantics package) fun _ ↦ package.graph.Typed := by
  unfold verifySemantics
  rw [h.nodes_eq, ok_bind]
  refine safe_bind (safe_forEach (fun next state ↦ SemanticsShow package.graph next state ∧
    ∀ index < next, ∀ node opcode type, package.graph.NodeAt index node opcode →
      PythType.ofCode node.resultType = some type → package.graph.NodeFits index node opcode type)
    ⟨semanticsShow_init package.graph, nofun⟩
    fun index node state hnode hstate ↦ ?_) fun state hstate ↦ ?_
  · have hinputs : ∀ input ∈ node.inputs, input ≠ noValue → input < maxGraphNodes := by
      intro input hinput hne
      obtain ⟨producer, hproducer, -⟩ := havailable index node hnode input hinput hne
      exact h.index_lt hproducer
    refine (safe_verifyNodeSemantics h hknown hnode hinputs hstate.1).mono fun result hresult ↦ ?_
    refine ⟨hresult.1, Nat.forall_lt_succ_right.mpr ⟨hstate.2, fun node' opcode type hnode' htype ↦ ?_⟩⟩
    obtain rfl : node = node' := Option.some_inj.mp (hnode.symm.trans hnode'.1)
    exact hresult.2 opcode type hnode' htype
  · refine safe_pure.mpr fun index node opcode type hnode htype ↦ ?_
    exact hstate.2 index (List.getElem?_eq_some_iff.mp hnode.1).1 node opcode type hnode htype

end Semantics

end Pythos.Tig
