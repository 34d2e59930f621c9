import Pythos.Runtime.Handlers
import Pythos.Runtime.Position

/-!
# Type soundness of the verifier for the interpreter

In every configuration that a run of an accepted graph reaches, the tables of the interpreter are sound
(`Sound`): a value has the type of its node, every executed node that is not a terminator has a value,
every executed host operation with a result has a validated one, and a host text stands for the result
its producer returned last, except between the re-execution of the producer and that of the projection.

The one operand that an accepted graph may name without a value is a `Jump`: the verifier checks no
result type of a `Jump`, and the interpreter stores no value for one.
-/

namespace Pythos.Runtime

open Foundation Shared Tig

/-! ### The invariant -/

/-- The validation of the result of an operation with a result. -/
def keeper : Opcode → Option (HostCallResult → Except RuntimeError Unit)
  | .objectCreate => some validateHostCallResult
  | .objectQuery => some validateHostCallResult
  | .objectInspect => some validateHostCallResult
  | .objectRevise => some validateHostCallResult
  | .objectHistory => some validateHostCallResult
  | .taskContextRead => some validateTaskContextResult
  | .commandRead => some validateCommandReadResult
  | _ => none

theorem keeper_opcode (request : HostRequest) : keeper request.opcode = request.validator := by
  cases request <;> rfl

/-- A stored value fits its node. -/
structure ValueFits (node : NodeRecord) (opcode : Opcode) (value : Value) : Prop where
  type_eq : PythType.ofCode node.resultType = some value.type
  not_terminator : isTerminator opcode = false
  slice : ∀ offset len utf8, value = .slice offset len utf8 → offset = node.auxiliary0 ∧
    len = node.auxiliary1 ∧ opcode = if utf8 then .constUtf8 else .constBytes
  text : ∀ producer len, value = .hostUtf8 producer len → opcode = .hostResult ∧
    producer = node.input0

/-- A kept result passed the validation of its operation. -/
def ResultFits (opcode : Opcode) (result : HostCallResult) : Prop :=
  ∃ validate, keeper opcode = some validate ∧ validate result = .ok ()

section Invariant

variable {σ : Type} {g : Graph} {imports : Vector PackedCapability maxPythGraphImports}
  {host : Host σ}

/-- The tables of a machine are sound at a configuration. -/
structure Sound (g : Graph) (config : Config σ) : Prop where
  values_length : config.machine.values.length = maxGraphNodes
  results_length : config.machine.hostResults.length = maxGraphNodes
  valued : ∀ (index : ℕ) value, config.machine.values[index]?.join = some value →
    ∃ node opcode, g.NodeAt index node opcode ∧ ValueFits node opcode value
  kept : ∀ (index : ℕ) result, config.machine.hostResults[index]?.join = some result →
    ∃ node opcode, g.NodeAt index node opcode ∧ ResultFits opcode result
  present : ∀ index node opcode, g.NodeAt index node opcode → isTerminator opcode = false →
    Executed g config index → ∃ value, config.machine.values[index]?.join = some value
  results : ∀ index node opcode, g.NodeAt index node opcode → (keeper opcode).isSome = true →
    Executed g config index → ∃ result, config.machine.hostResults[index]?.join = some result
  texts : ∀ (index : ℕ) producer len,
    config.machine.values[index]?.join = some (.hostUtf8 producer len) →
      TextFits config.machine.hostResults producer len ∨
        (producer < config.next ∧ config.next ≤ index)
  counted : config.machine.executedNodes + config.machine.budget < 2 ^ 64

variable {index : ℕ} {config : Config σ} {node : NodeRecord} {opcode : Opcode} {value : Value}
  {config' : Config σ}

theorem join_set {α : Type} {table : List (Option α)} (h : index < table.length) (value : α)
    (other : ℕ) : (table.set index (some value))[other]?.join =
      if other = index then some value else table[other]?.join := by
  split_ifs with heq
  · rw [heq, List.getElem?_set_self h]
    rfl
  · rw [List.getElem?_set_ne (Ne.symm heq)]

/-- A projection of a text stands behind its producer. -/
theorem ValueFits.producer_lt (haccepted : Accepted g) (hnode : g.NodeAt index node opcode) {producer : ℕ}
    {len : UInt16} (h : ValueFits node opcode (.hostUtf8 producer len)) : producer < index := by
  obtain ⟨rfl, rfl⟩ := h.text producer len rfl
  obtain ⟨type, htype, hfits⟩ := haccepted.fits hnode
  exact (hfits.projection rfl).input0_lt

theorem ResultFits.not_terminator {result : HostCallResult} (h : ResultFits opcode result) :
    isTerminator opcode = false := by
  obtain ⟨validate, hkeeper, -⟩ := h
  cases opcode <;> first | rfl | cases hkeeper

/-- A projection between its producer and the next node is the next node, or follows it. -/
theorem Sound.stale_text (haccepted : Accepted g) (h : Sound g config)
    (hnode : g.NodeAt config.next node opcode) {producer : ℕ} {len : UInt16}
    (htext : config.machine.values[index]?.join = some (.hostUtf8 producer len))
    (hlow : producer < config.next) (hhigh : config.next ≤ index) : opcode = .hostResult := by
  obtain ⟨projection, projectionOpcode, hprojection, hfits⟩ := h.valued index _ htext
  obtain ⟨rfl, rfl⟩ := hfits.text producer len rfl
  by_cases heq : config.next = index
  · exact (hnode.unique (heq ▸ hprojection)).2
  · obtain ⟨type, htype, hfits⟩ := haccepted.fits hprojection
    obtain ⟨projector, hprojector, -⟩ := (hfits.projection rfl).run config.next hlow (by omega)
    exact (hnode.unique hprojector).2

theorem Sound.next_lt (haccepted : Accepted g) (h : Sound g config)
    (hnode : g.NodeAt config.next node opcode) : config.next < config.machine.values.length ∧
      config.next < config.machine.hostResults.length := by
  have hindex := haccepted.index_lt hnode
  exact ⟨h.values_length.symm ▸ hindex, h.results_length.symm ▸ hindex⟩

theorem valueFits_of_storeFits {hostResults : List (Option HostCallResult)}
    (h : StoreFits g imports hostResults node opcode value) : ValueFits node opcode value :=
  ⟨h.type_eq, h.not_terminator, h.slice,
    fun producer len htext ↦ ⟨(h.text producer len htext).1, (h.text producer len htext).2.1⟩⟩

/-- The token of an effectful node fits it. -/
theorem valueFits_effect (haccepted : Accepted g) (hnode : g.NodeAt index node opcode)
    (heffectful : opcode.signature.effectful = true) (token : ℕ) :
    ValueFits node opcode (.effect token) := by
  obtain ⟨type, htype, hfits⟩ := haccepted.fits hnode
  obtain ⟨hhost, hjump, hfixed, hplain⟩ : opcode ≠ .hostResult ∧ opcode ≠ .jump ∧
      (opcode ≠ .constU64 ∧ opcode ≠ .blockParam) ∧ isTerminator opcode = false := by
    revert heffectful
    cases opcode <;> decide
  obtain rfl : type = .effect := ((hfits.operands hhost hjump).result_eq hfixed).trans
    (Opcode.signature_of_effectful heffectful).2.2.2.1
  exact ⟨htype, hplain, fun _ _ _ hslice ↦ by simp at hslice, fun _ _ htext ↦ by simp at htext⟩

/-! ### One step -/

/-- The counters of a step: what is executed and what is left add up to the same. -/
theorem Stepped.counted {action : Action} {machine' : Machine σ}
    (h : Stepped g imports host config config' node opcode action machine') :
    config'.machine.executedNodes + config'.machine.budget =
      config.machine.executedNodes + config.machine.budget := by
  have hmachine := h.read_eq (fun machine ↦ machine.executedNodes + machine.budget) fun _ _ ↦ rfl
  have hperformed : machine'.executedNodes = config.machine.executedNodes + 1 ∧
      machine'.budget = config.machine.budget - 1 := by
    cases h.performs <;> exact ⟨rfl, rfl⟩
  have hbudget := h.budget_ne
  omega

/-- A step changes the tables at its own node alone, and what it leaves there fits the node. -/
structure Changes (config config' : Config σ) (node : NodeRecord) (opcode : Opcode)
    (value : Option Value) (result : Option HostCallResult) : Prop where
  values_length : config'.machine.values.length = config.machine.values.length
  results_length : config'.machine.hostResults.length = config.machine.hostResults.length
  values : ∀ index : ℕ, config'.machine.values[index]?.join =
    if index = config.next then value else config.machine.values[index]?.join
  results : ∀ index : ℕ, config'.machine.hostResults[index]?.join =
    if index = config.next then result else config.machine.hostResults[index]?.join
  fits : ∀ new, value = some new → ValueFits node opcode new
  kept : ∀ new, result = some new → ResultFits opcode new
  present : isTerminator opcode = false → ∃ new, value = some new
  result_present : (keeper opcode).isSome = true → ∃ new, result = some new
  text : ∀ producer len, value = some (.hostUtf8 producer len) →
    TextFits config.machine.hostResults producer len

theorem join_self {α : Type} (table : List (Option α)) (next other : ℕ) : table[other]?.join =
    if other = next then table[next]?.join else table[other]?.join := by
  split_ifs with heq
  · rw [heq]
  · rfl

section Step

variable (haccepted : Accepted g) (h : Sound g config) {action : Action} {machine' : Machine σ}
  (hstep : Stepped g imports host config config' node opcode action machine')

include haccepted h hstep

theorem Stepped.changes : ∃ value result, Changes config config' node opcode value result := by
  have hnode := hstep.nodeAt
  obtain ⟨type, htype, hfits⟩ := haccepted.fits hnode
  obtain ⟨hlt, hltResults⟩ := h.next_lt haccepted hnode
  have hperforms := hstep.performs
  have hold : ∀ new, config.machine.values[config.next]?.join = some new → ValueFits node opcode new := by
    intro new hnew
    obtain ⟨node', opcode', hnode', hfits'⟩ := h.valued _ new hnew
    obtain ⟨rfl, rfl⟩ := hnode.unique hnode'
    exact hfits'
  have hkept : ∀ new, config.machine.hostResults[config.next]?.join = some new →
      ResultFits opcode new := by
    intro new hnew
    obtain ⟨node', opcode', hnode', hfits'⟩ := h.kept _ new hnew
    rwa [(hnode.unique hnode').2]
  -- A node that stores a value and keeps no result.
  have hput (value : Value) (hvalues : machine'.values = config.machine.values.set config.next (some value))
      (hresults : machine'.hostResults = config.machine.hostResults) (hvalue : ValueFits node opcode value)
      (hkeeper : keeper opcode = none) (htext : ∀ producer len, value = .hostUtf8 producer len →
        TextFits config.machine.hostResults producer len) :
      ∃ value result, Changes config config' node opcode value result := by
    rw [← hstep.values_eq] at hvalues
    rw [← hstep.hostResults_eq] at hresults
    exact ⟨some value, _, by rw [hvalues, List.length_set], by rw [hresults],
      fun index ↦ hvalues ▸ join_set hlt value index, fun index ↦ hresults ▸ join_self _ config.next index,
      fun _ hnew ↦ Option.some_inj.mp hnew ▸ hvalue, hkept, fun _ ↦ ⟨value, rfl⟩,
      fun hkeeps ↦ by simp [hkeeper] at hkeeps,
      fun producer len hnew ↦ htext producer len (Option.some_inj.mp hnew)⟩
  rcases prepare_cases htype hfits hstep.prepared with
    ⟨value, rfl, hstore⟩ | ⟨request, rfl, hcall⟩ | ⟨rfl, hterminator⟩
  · cases hperforms
    have hkeeper : keeper opcode = none := by
      have hpure := hstore.not_effectful
      cases opcode <;> first | rfl | (revert hpure; decide)
    exact hput value rfl rfl (valueFits_of_storeFits hstore) hkeeper
      fun producer len htext ↦ (hstore.text producer len htext).2.2
  · have hkeeper := keeper_opcode request
    rw [hcall.opcode_eq] at hkeeper
    have heffect := valueFits_effect haccepted hnode (hcall.opcode_eq ▸ request.effectful) config.next
    cases hperforms with
    | emit hreply hvalidator =>
      exact hput _ rfl rfl heffect (hkeeper.trans hvalidator) fun _ _ htext ↦ by cases htext
    | keep hreply hvalidator hvalid =>
      have hvalues := hstep.values_eq
      have hresults := hstep.hostResults_eq
      refine ⟨_, _, by rw [hvalues]; exact List.length_set .., by rw [hresults]; exact List.length_set ..,
        fun index ↦ hvalues ▸ join_set hlt _ index, fun index ↦ hresults ▸ join_set hltResults _ index,
        fun _ hnew ↦ Option.some_inj.mp hnew ▸ heffect,
        fun _ hnew ↦ Option.some_inj.mp hnew ▸ ⟨_, hkeeper.trans hvalidator, hvalid⟩,
        fun _ ↦ ⟨_, rfl⟩, fun _ ↦ ⟨_, rfl⟩, fun _ _ htext ↦ by cases htext⟩
  · cases hperforms
    have hvalues := hstep.values_eq
    have hresults := hstep.hostResults_eq
    have hkeeper : keeper opcode = none := by
      cases opcode <;> first | rfl | (revert hterminator; decide)
    refine ⟨_, _, by rw [hvalues]; rfl, by rw [hresults]; rfl, fun index ↦ hvalues ▸ join_self _ config.next index,
      fun index ↦ hresults ▸ join_self _ config.next index, hold, hkept,
      fun hplain ↦ by simp [hterminator] at hplain, fun hkeeps ↦ by simp [hkeeper] at hkeeps,
      fun producer len hnew ↦ ?_⟩
    have hplain := (hold _ hnew).not_terminator
    simp [hterminator] at hplain

/-- A text of another node whose producer is executed again, or was since, waits for its projection. -/
theorem Stepped.waits {producer : ℕ} {len : UInt16} (hne : index ≠ config.next)
    (htext : config.machine.values[index]?.join = some (.hostUtf8 producer len))
    (hwaits : (producer = config.next ∧ ∃ kept, config.machine.hostResults[producer]?.join = some kept) ∨
      producer < config.next ∧ config.next ≤ index) : producer < config'.next ∧ config'.next ≤ index := by
  rcases hwaits with ⟨rfl, kept, hkept⟩ | ⟨hlow, hhigh⟩
  · obtain ⟨node', opcode', hnode', hfits⟩ := h.kept _ kept hkept
    rw [(hnode'.unique hstep.nodeAt).2] at hfits
    have hnext := (hstep.next_eq (by simp [hfits.not_terminator])).2
    obtain ⟨projection, projectionOpcode, hprojection, hprojected⟩ := h.valued index _ htext
    have hafter := hprojected.producer_lt haccepted hprojection
    omega
  · have hprojects := h.stale_text haccepted hstep.nodeAt htext hlow hhigh
    have hnext := (hstep.next_eq (by rw [hprojects]; decide)).2
    omega

/-- One step of a run keeps the tables sound. -/
theorem Sound.step : Sound g config' := by
  obtain ⟨value, result, hchanges⟩ := hstep.changes haccepted h
  have hnode := hstep.nodeAt
  refine ⟨hchanges.values_length.trans h.values_length, hchanges.results_length.trans h.results_length,
    fun index other hother ↦ ?_, fun index kept hkept ↦ ?_, fun index node' opcode' hnode' hplain hexec ↦ ?_,
    fun index node' opcode' hnode' hkeeps hexec ↦ ?_, fun index producer len htext ↦ ?_,
    hstep.counted ▸ h.counted⟩
  · rw [hchanges.values] at hother
    split_ifs at hother with heq
    · exact ⟨node, opcode, heq ▸ hnode, hchanges.fits other hother⟩
    · exact h.valued index other hother
  · rw [hchanges.results] at hkept
    split_ifs at hkept with heq
    · exact ⟨node, opcode, heq ▸ hnode, hchanges.kept kept hkept⟩
    · exact h.kept index kept hkept
  · rw [hchanges.values]
    split_ifs with heq
    · subst heq
      exact hchanges.present ((hnode'.unique hnode).2 ▸ hplain)
    · exact h.present index node' opcode' hnode' hplain (((hstep.executed index).mp hexec).resolve_right heq)
  · rw [hchanges.results]
    split_ifs with heq
    · subst heq
      exact hchanges.result_present ((hnode'.unique hnode).2 ▸ hkeeps)
    · exact h.results index node' opcode' hnode' hkeeps (((hstep.executed index).mp hexec).resolve_right heq)
  · rw [hchanges.values] at htext
    unfold TextFits
    rw [hchanges.results]
    split_ifs at htext with heq
    · have hafter := (hchanges.fits _ htext).producer_lt haccepted hnode
      rw [if_neg hafter.ne]
      exact Or.inl (hchanges.text producer len htext)
    rcases h.texts index producer len htext with hfits | hstale
    · by_cases hproducer : producer = config.next
      · obtain ⟨kept, hkept, -⟩ := hfits
        exact Or.inr (hstep.waits haccepted h heq htext (Or.inl ⟨hproducer, kept, hkept⟩))
      · rw [if_neg hproducer]
        exact Or.inl hfits
    · exact Or.inr (hstep.waits haccepted h heq htext (Or.inr hstale))

end Step

theorem join_replicate_none {α : Type} (count index : ℕ) :
    (List.replicate count (none : Option α))[index]?.join = none := by
  rw [List.getElem?_replicate]
  split_ifs <;> rfl

/-- Nothing was executed when a run enters its first block. -/
theorem not_executed_enter (budget : UInt64) (state : σ) {block : BlockRecord}
    (hblock : g.blocks[g.entryBlock]? = some block) (index : ℕ) : ¬ Executed g
      ⟨g.entryBlock, block.firstNode, (Machine.init budget state).enter g.entryBlock⟩ index := by
  rintro ⟨blockIndex, hin, hpast | ⟨rfl, hlt⟩⟩
  · simp [Machine.enter, Machine.init, enteredBlocks] at hpast
  · have hbounds := InBlock.bounds hin hblock
    exact absurd hlt (not_lt.mpr hbounds.1)

theorem Sound.enter (budget : UInt64) (state : σ) {block : BlockRecord}
    (hblock : g.blocks[g.entryBlock]? = some block) :
    Sound g ⟨g.entryBlock, block.firstNode, (Machine.init budget state).enter g.entryBlock⟩ := by
  have hvalues : ∀ index : ℕ, (Machine.init budget state).values[index]?.join = none :=
    join_replicate_none _
  have hresults : ∀ index : ℕ, (Machine.init budget state).hostResults[index]?.join = none :=
    join_replicate_none _
  have hfresh := not_executed_enter budget state hblock
  refine ⟨List.length_replicate, List.length_replicate, ?_, ?_, ?_, ?_, ?_, ?_⟩
  · intro index value hvalue
    simp [Machine.enter, hvalues] at hvalue
  · intro index result hresult
    simp [Machine.enter, hresults] at hresult
  · exact fun index _ _ _ _ hexec ↦ absurd hexec (hfresh index)
  · exact fun index _ _ _ _ hexec ↦ absurd hexec (hfresh index)
  · intro index producer len htext
    simp [Machine.enter, hvalues] at htext
  · have hbudget := budget.toNat_lt
    show 0 + budget.toNat < 2 ^ 64
    omega

/-- Every configuration that a run reaches is sound. -/
theorem Reaches.sound (haccepted : Accepted g) {budget : UInt64} {state : σ}
    (h : Reaches g imports host (Machine.init budget state) config) : Sound g config := by
  induction h with
  | enter hblock => exact Sound.enter budget state hblock
  | step hreaches hstep ih =>
    obtain ⟨-, node, opcode, action, machine', hstepped⟩ :=
      hstep.step haccepted (hreaches.positioned haccepted rfl)
    exact ih.step haccepted hstepped

/-- A run ends in the machine that its last node leaves. -/
theorem executeInner_leaves (haccepted : Accepted g) (imports : Vector PackedCapability maxPythGraphImports)
    (host : Host σ) (budget : UInt64) (state : σ) :
    ∃ result final, executeInner g imports host (Machine.init budget state) = some (result, final) ∧
      ∃ config, Reaches g imports host (Machine.init budget state) config ∧
        NodeLeaves g imports host config.next config.machine final := by
  obtain ⟨result, final, hrun, hends⟩ := executeInner_ends haccepted imports host
    (Machine.init budget state)
  have hleaves {config : Config σ} {outcome : Except RuntimeError (Option BlockOutcome)}
      (h : Reaches g imports host (Machine.init budget state) config)
      (hstep : executeNode g imports host config.next config.machine = (outcome, final)) :
      NodeLeaves g imports host config.next config.machine final := by
    obtain ⟨node, opcode, hnode, -⟩ := (h.positioned haccepted rfl).nodeAt haccepted
    obtain ⟨hlt, hltResults⟩ := (h.sound haccepted).next_lt haccepted hnode
    exact executeNode_leaves hlt hltResults hstep
  cases hends with
  | ret hreaches hstep | fail hreaches hstep =>
    exact ⟨_, _, hrun, _, hreaches, hleaves hreaches hstep⟩

end Invariant

end Pythos.Runtime
