import Pythos.Runtime.Soundness

/-!
# How a run of an accepted graph can fail

At a sound configuration whose node names no `Jump` among the operands it reads, every reader of the
handlers succeeds, so a step can fail only for want of budget, because the interpreter does not support
the opcode, because an import is missing, because the host refused, or for one of four causes
(`InvalidCause`): a constant error code that does not fit, a reply that its validation rejects, a zero
capability that is projected, or a host text that is not UTF-8.
-/

namespace Pythos.Runtime

open Foundation Shared Tig

/-! ### The operands a node reads -/

/-- The opcodes whose handlers read values. -/
def readsOperands : Opcode → Bool
  | .eq | .lessThanU64 | .branch | .systemLog | .objectCreate | .objectQuery | .objectInspect
  | .objectRevise | .objectHistory | .taskContextRead | .taskProposalEmit | .commandRead
  | .commandResultEmit => true
  | _ => false

/-- The operands that the interpreter reads when it executes a node. -/
def operandsRead (opcode : Opcode) (node : NodeRecord) : List ℕ :=
  if readsOperands opcode then node.inputs.take opcode.signature.inputCount else []

section Progress

variable {σ : Type} {g : Graph} {imports : Vector PackedCapability maxPythGraphImports}
  {host : Host σ}

variable {input : ℕ} {opcode : Opcode} {type : PythType} {config : Config σ} {node : NodeRecord}
  {result : HostCallResult}

/-- A typed operand is not a `Branch` or `Return`: those have the result type `Unit`, which no opcode
takes. -/
theorem not_terminator_of_operand (haccepted : Accepted g) {producer : NodeRecord}
    (hproducer : g.NodeAt input producer opcode)
    (htype : PythType.ofCode producer.resultType = some type) (hunit : type ≠ .unit)
    (hjump : opcode ≠ .jump) : isTerminator opcode = false := by
  have hfits := haccepted.typed input producer opcode type hproducer htype
  by_contra hterminator
  rcases isTerminator_iff.mp (by simpa using hterminator) with rfl | rfl | rfl
  · exact hjump rfl
  · exact hunit ((hfits.operands (by simp) hjump).result_eq (by decide))
  · exact hunit ((hfits.operands (by simp) hjump).result_eq (by decide))

/-- An operand that is read and is not a `Jump` has a value of the type its signature asks for. -/
theorem Sound.operand (haccepted : Accepted g) (hposition : Positioned g config)
    (h : Sound g config) (hnode : g.NodeAt config.next node opcode)
    (hreads : readsOperands opcode = true) {position : ℕ}
    (hinput : (node.inputs.take opcode.signature.inputCount)[position]? = some input)
    (hjump : ∀ producer, ¬ g.NodeAt input producer .jump) :
    ∃ value, config.machine.values[input]?.join = some value ∧ g.TypeAt input value.type ∧
      opcode.signature.inputs[position]? = some value.type := by
  obtain ⟨type, htype, hfits⟩ := haccepted.fits hnode
  have hother : opcode ≠ .hostResult ∧ opcode ≠ .jump := by
    constructor <;> rintro rfl <;> exact absurd hreads (by decide)
  obtain ⟨hne, expected, hexpected, producer, hproducer, hproducerType⟩ :=
    (hfits.operands hother.1 hother.2).operand position input hinput
  obtain ⟨producerOpcode, hproducerOpcode⟩ :=
    haccepted.known.opcode producer (List.mem_of_getElem? hproducer)
  have hposition' : position < opcode.signature.inputCount := by
    have hlt := (List.getElem?_eq_some_iff.mp hinput).1
    exact lt_of_lt_of_le hlt (List.length_take_le _ _)
  have hunit : expected ≠ .unit := by
    rintro rfl
    exact opcode.unit_not_mem_inputs hposition' hexpected
  have hplain := not_terminator_of_operand haccepted ⟨hproducer, hproducerOpcode⟩ hproducerType hunit
    (by rintro rfl; exact hjump producer ⟨hproducer, hproducerOpcode⟩)
  have hexecuted := hposition.executed_input haccepted hnode
    (List.mem_of_mem_take (List.mem_of_getElem? hinput)) hne
  obtain ⟨value, hvalue⟩ := h.present input producer producerOpcode ⟨hproducer, hproducerOpcode⟩
    hplain hexecuted
  obtain ⟨valued, valuedOpcode, hvalued, hfits⟩ := h.valued input value hvalue
  obtain ⟨rfl, rfl⟩ := hvalued.unique ⟨hproducer, hproducerOpcode⟩
  have htypeEq : value.type = expected := Option.some_inj.mp (hfits.type_eq.symm.trans hproducerType)
  exact ⟨value, hvalue, ⟨_, hproducer, hfits.type_eq⟩, htypeEq ▸ hexpected⟩

/-- The value of a read `Jump` is missing. -/
theorem Sound.no_jump_value (h : Sound g config) {producer : NodeRecord}
    (hproducer : g.NodeAt input producer .jump) : config.machine.values[input]?.join = none := by
  cases hvalue : config.machine.values[input]?.join with
  | none => rfl
  | some value =>
    obtain ⟨node, opcode, hnode, hfits⟩ := h.valued input value hvalue
    rw [← (hproducer.unique hnode).2] at hfits
    exact absurd hfits.not_terminator (by decide)

/-! ### Texts and bytes -/

theorem stringAt_of_constUtf8 (haccepted : Accepted g) {index : ℕ}
    (hnode : g.NodeAt index node .constUtf8) :
    ∃ text, stringAt g node.auxiliary0 node.auxiliary1 = .ok text := by
  obtain ⟨text, htext, -⟩ := haccepted.ranges.constUtf8 index node hnode
  have hlen : node.auxiliary1 < 2 ^ 16 := by
    have hin := htext
    unfold referencedBytes at hin
    split_ifs at hin with hbound
    have hslice := slice?_isSome_iff.mp (Option.isSome_of_mem hin)
    have htable := haccepted.length_stringTable_le
    unfold maxStringTableBytes at htable
    omega
  refine ⟨text, ?_⟩
  rw [stringAt, if_pos hlen, htext]
  rfl

theorem constantAt_of_constBytes (haccepted : Accepted g) {index : ℕ}
    (hnode : g.NodeAt index node .constBytes) :
    ∃ bytes, constantAt g node.auxiliary0 node.auxiliary1 = .ok bytes := by
  obtain ⟨bytes, hbytes⟩ := haccepted.ranges.constBytes index node hnode
  unfold referencedBytes at hbytes
  split_ifs at hbytes with hbound
  refine ⟨bytes, ?_⟩
  rw [constantAt, if_pos (by unfold usizeSize; omega), hbytes]
  rfl

/-- A text operand can be read: a constant lies in the string table, and a host text is that of the
result its producer returned last. -/
theorem Sound.expectUtf8Bytes (haccepted : Accepted g) (h : Sound g config)
    (hnode : g.NodeAt config.next node opcode) (hother : opcode ≠ .hostResult) {value : Value}
    (hvalue : config.machine.values[input]?.join = some value) (htype : value.type = .utf8) :
    ∃ text, expectUtf8Bytes g config.machine.values config.machine.hostResults input = .ok text := by
  have hload := loadValue_eq_ok_iff.mpr hvalue
  obtain ⟨producer, producerOpcode, hproducer, hfits⟩ := h.valued input value hvalue
  simp only [Runtime.expectUtf8Bytes, hload]
  cases value with
  | slice offset len utf8 =>
    cases utf8 with
    | false => simp [Value.type] at htype
    | true =>
      obtain ⟨rfl, rfl, hopcode⟩ := hfits.slice offset len true rfl
      have hconst : producerOpcode = .constUtf8 := hopcode
      subst hconst
      exact stringAt_of_constUtf8 haccepted hproducer
  | hostUtf8 source len =>
    rcases h.texts input source len hvalue with ⟨result, hresult, rfl, hlen, hvalid⟩ | ⟨hlow, hhigh⟩
    · refine ⟨result.text, ?_⟩
      show (okOrElse _ (config.machine.hostResults[source]?.join) >>= _) = _
      rw [hresult]
      show (if result.bytesLen.toNat > maxHostResultBytes then _ else _ :
        Except RuntimeError Bytes) = _
      rw [if_neg (not_lt.mpr hlen)]
      exact if_pos hvalid
    · exact absurd (h.stale_text haccepted hnode hvalue hlow hhigh) hother
  | _ => simp [Value.type] at htype

theorem Sound.expectBytes (haccepted : Accepted g) (h : Sound g config) {value : Value}
    (hvalue : config.machine.values[input]?.join = some value) (htype : value.type = .bytes) :
    ∃ bytes, expectBytes g config.machine.values input = .ok bytes := by
  have hload := loadValue_eq_ok_iff.mpr hvalue
  obtain ⟨producer, producerOpcode, hproducer, hfits⟩ := h.valued input value hvalue
  simp only [Runtime.expectBytes, hload]
  cases value with
  | slice offset len utf8 =>
    cases utf8 with
    | true => simp [Value.type] at htype
    | false =>
      obtain ⟨rfl, rfl, hopcode⟩ := hfits.slice offset len false rfl
      have hconst : producerOpcode = .constBytes := hopcode
      subst hconst
      exact constantAt_of_constBytes haccepted hproducer
  | _ => simp [Value.type] at htype

/-! ### Failing handlers -/

/-- The causes of an invalid value or string. -/
inductive InvalidCause (g : Graph) (imports : Vector PackedCapability maxPythGraphImports)
    (host : Host σ) (config : Config σ) : RuntimeError → Prop
  | errorCode {node : NodeRecord} (hnode : g.NodeAt config.next node .constU64)
      (htype : PythType.ofCode node.resultType = some .errorCode)
      (himmediate : 65535 < node.immediate) : InvalidCause g imports host config .invalidValue
  | reply {node : NodeRecord} {opcode : Opcode} {request : HostRequest} {result : HostCallResult}
      {validate : HostCallResult → Except RuntimeError Unit} {error : RuntimeError}
      (hnode : g.NodeAt config.next node opcode)
      (hprepared : prepare g imports config.machine.values config.machine.hostResults config.next
        node opcode = .ok (.call request))
      (hreply : (host request config.machine.host).1 = .ok result)
      (hvalidator : request.validator = some validate)
      (hinvalid : validate result = .error error) : InvalidCause g imports host config error
  | capability {node producer : NodeRecord} {opcode : Opcode} {result : HostCallResult}
      (hnode : g.NodeAt config.next node .hostResult)
      (hproducer : g.NodeAt node.input0 producer opcode)
      (hfield : hostResultFieldType opcode node.auxiliary0 = some .capability)
      (hresult : config.machine.hostResults[node.input0]?.join = some result)
      (hzero : result.capability.raw = 0) : InvalidCause g imports host config .invalidValue
  | text {node producer : NodeRecord} {opcode : Opcode} {result : HostCallResult}
      (hnode : g.NodeAt config.next node .hostResult)
      (hproducer : g.NodeAt node.input0 producer opcode)
      (hfield : hostResultFieldType opcode node.auxiliary0 = some .utf8)
      (hresult : config.machine.hostResults[node.input0]?.join = some result)
      (hinvalid : utf8Valid result.text = false) : InvalidCause g imports host config .invalidString

/-- The ways a handler may fail. -/
def HandlerFails (g : Graph) (imports : Vector PackedCapability maxPythGraphImports)
    (host : Host σ) (config : Config σ) (error : RuntimeError) : Prop :=
  error = .unsupportedOpcode ∨ error = .missingImport ∨ InvalidCause g imports host config error

/-- A result that passed its validation is not longer than its buffer. -/
theorem ResultFits.bytesLen_le (h : ResultFits opcode result) :
    result.bytesLen.toNat ≤ maxHostResultBytes := by
  obtain ⟨validate, hkeeper, hvalid⟩ := h
  by_contra hlong
  have hlong : result.bytesLen.toNat > maxHostResultBytes := not_le.mp hlong
  cases opcode <;> simp only [keeper, reduceCtorEq, Option.some_inj] at hkeeper <;> subst hkeeper <;>
    simp [validateHostCallResult, validateTaskContextResult, validateCommandReadResult, hlong] at hvalid

theorem hostUtf8Value_error {producer : ℕ} {error : RuntimeError}
    (hlen : result.bytesLen.toNat ≤ maxHostResultBytes)
    (h : hostUtf8Value producer result = .error error) :
    error = .invalidString ∧ utf8Valid result.text = false := by
  unfold hostUtf8Value at h
  split_ifs at h with hinvalid
  rcases hinvalid with hlong | hinvalid
  · exact absurd hlen (not_le.mpr hlong)
  · exact ⟨(Except.error.inj h).symm, by simpa using hinvalid⟩

/-- Only operations that keep their result have fields. -/
theorem keeper_of_field {field : ℕ} (h : hostResultFieldType opcode field = some type) :
    (keeper opcode).isSome = true := by
  cases opcode <;> first | rfl | simp [hostResultFieldType, isObjectOperation] at h

/-- A projection of a typed field fails only for a zero capability or an invalid text. -/
theorem projectedValue_error {producer field : ℕ} {error : RuntimeError}
    (htype : hostResultFieldType opcode field = some type)
    (hlen : result.bytesLen.toNat ≤ maxHostResultBytes)
    (h : projectedValue opcode producer field result = .error error) :
    (type = .capability ∧ error = .invalidValue ∧ result.capability.raw = 0) ∨
      (type = .utf8 ∧ error = .invalidString ∧ utf8Valid result.text = false) := by
  have hprojects := h ▸ projects_projectedValue htype
  generalize hvalue : Except.error error = projected at hprojects
  cases hprojects with
  | word => cases hvalue
  | capability =>
    split_ifs at hvalue with hzero
    exact Or.inl ⟨rfl, Except.error.inj hvalue, hzero⟩
  | text =>
    obtain ⟨rfl, hinvalid⟩ := hostUtf8Value_error hlen hvalue.symm
    exact Or.inr ⟨rfl, rfl, hinvalid⟩

/-- The node about to be dispatched reads no `Jump`. -/
def ReadsNoJump (g : Graph) (config : Config σ) : Prop :=
  ∀ node opcode, g.NodeAt config.next node opcode → ∀ input ∈ operandsRead opcode node,
    ∀ producer, ¬ g.NodeAt input producer .jump

/-- The reader that handlers apply to an operand of a type succeeds. -/
def Readable (g : Graph) (machine : Machine σ) (input : ℕ) : PythType → Prop
  | .effect => ∃ token, expectEffect machine.values input = .ok token
  | .capability => ∃ capability, expectCapability machine.values input = .ok capability
  | .objectId => ∃ id, expectObjectId machine.values input = .ok id
  | .taskId => ∃ id, expectTaskId machine.values input = .ok id
  | .u64 => ∃ word, expectU64 machine.values input = .ok word
  | .errorCode => ∃ code, expectErrorCode machine.values input = .ok code
  | .bool => ∃ condition, expectBool machine.values input = .ok condition
  | .utf8 => ∃ text, expectUtf8Bytes g machine.values machine.hostResults input = .ok text
  | .bytes => ∃ bytes, expectBytes g machine.values input = .ok bytes
  | _ => True

section Readers

variable {config : Config σ} (haccepted : Accepted g) (hposition : Positioned g config)
  (h : Sound g config) (hjump : ReadsNoJump g config) {node : NodeRecord} {opcode : Opcode}
  (hnode : g.NodeAt config.next node opcode) (hreads : readsOperands opcode = true)

include haccepted hposition h hjump hnode hreads

/-- An operand of a reading node has a value of the type of its signature. -/
theorem typed_operand {position input : ℕ} {expected : PythType}
    (hinput : (node.inputs.take opcode.signature.inputCount)[position]? = some input)
    (hexpected : opcode.signature.inputs[position]? = some expected) :
    ∃ value, config.machine.values[input]?.join = some value ∧ value.type = expected := by
  have hmem : input ∈ operandsRead opcode node := by
    rw [operandsRead, if_pos hreads]
    exact List.mem_of_getElem? hinput
  obtain ⟨value, hvalue, -, htype⟩ := h.operand haccepted hposition hnode hreads hinput
    (hjump node opcode hnode input hmem)
  exact ⟨value, hvalue, Option.some_inj.mp (htype.symm.trans hexpected)⟩

/-- The handler's reader of an operand's type succeeds. -/
theorem readable_operand (position input : ℕ) (expected : PythType)
    (hinput : (node.inputs.take opcode.signature.inputCount)[position]? = some input)
    (hexpected : opcode.signature.inputs[position]? = some expected) :
    Readable g config.machine input expected := by
  obtain ⟨value, hvalue, htype⟩ := typed_operand haccepted hposition h hjump hnode hreads hinput
    hexpected
  have hread := exists_expect_of_type hvalue
  cases expected with
  | effect => exact hread.1 htype
  | capability => exact hread.2.1 htype
  | objectId => exact hread.2.2.1 htype
  | taskId => exact hread.2.2.2.1 htype
  | u64 => exact hread.2.2.2.2.1 htype
  | errorCode => exact hread.2.2.2.2.2.1 htype
  | bool => exact hread.2.2.2.2.2.2 htype
  | utf8 =>
    refine h.expectUtf8Bytes haccepted hnode ?_ hvalue htype
    rintro rfl
    exact absurd hreads (by decide)
  | bytes => exact h.expectBytes haccepted hvalue htype
  | _ => trivial

/-- The handler of a host operation that reads its operands makes its request. -/
theorem prepare_operation (heffectful : opcode.signature.effectful = true) :
    ∃ action, prepare g imports config.machine.values config.machine.hostResults config.next node
      opcode = .ok action := by
  have hread := readable_operand haccepted hposition h hjump hnode hreads
  -- Every host operation reads the effect token and its capability first.
  obtain ⟨heffect, hcapability, hcount, -⟩ := Opcode.signature_of_effectful heffectful
  have htake (position : ℕ) (hlt : position < 2) :
      (node.inputs.take opcode.signature.inputCount)[position]? = node.inputs[position]? :=
    List.getElem?_take_of_lt (by omega)
  obtain ⟨_, h0⟩ := hread 0 node.input0 .effect (htake 0 (by omega)) heffect
  obtain ⟨_, h1⟩ := hread 1 node.input1 .capability (htake 1 (by omega)) hcapability
  cases opcode with
  | systemLog =>
    obtain ⟨_, h2⟩ := hread 2 node.input2 .utf8 rfl rfl
    exact ⟨_, by simp only [prepare, executeSystemLog, h0, h1, h2]; rfl⟩
  | objectCreate =>
    obtain ⟨_, h2⟩ := hread 2 node.input2 .utf8 rfl rfl
    exact ⟨_, by simp only [prepare, executeObjectCreate, h0, h1, h2]; rfl⟩
  | objectQuery =>
    obtain ⟨_, h2⟩ := hread 2 node.input2 .utf8 rfl rfl
    exact ⟨_, by simp only [prepare, executeObjectQuery, h0, h1, h2]; rfl⟩
  | objectInspect =>
    obtain ⟨_, h2⟩ := hread 2 node.input2 .objectId rfl rfl
    exact ⟨_, by simp only [prepare, executeObjectInspect, h0, h1, h2]; rfl⟩
  | objectRevise =>
    obtain ⟨_, h2⟩ := hread 2 node.input2 .objectId rfl rfl
    obtain ⟨_, h3⟩ := hread 3 node.input3 .bytes rfl rfl
    exact ⟨_, by simp only [prepare, executeObjectRevise, h0, h1, h2, h3]; rfl⟩
  | objectHistory =>
    obtain ⟨_, h2⟩ := hread 2 node.input2 .objectId rfl rfl
    exact ⟨_, by simp only [prepare, executeObjectHistory, h0, h1, h2]; rfl⟩
  | taskContextRead =>
    exact ⟨_, by simp only [prepare, executeTaskContext, h0, h1]; rfl⟩
  | taskProposalEmit =>
    obtain ⟨_, h2⟩ := hread 2 node.input2 .taskId rfl rfl
    obtain ⟨_, h3⟩ := hread 3 node.input3 .u64 rfl rfl
    exact ⟨_, by simp only [prepare, executeTaskProposalEmit, h0, h1, h2, h3]; rfl⟩
  | commandRead =>
    exact ⟨_, by simp only [prepare, executeCommandRead, h0, h1]; rfl⟩
  | commandResultEmit =>
    obtain ⟨_, h2⟩ := hread 2 node.input2 .errorCode rfl rfl
    obtain ⟨_, h3⟩ := hread 3 node.input3 .utf8 rfl rfl
    exact ⟨_, by simp only [prepare, executeCommandResultEmit, h0, h1, h2, h3]; rfl⟩
  | eq | lessThanU64 | branch => exact absurd heffectful (by decide)
  | _ => exact absurd hreads (by decide)

/-- The handler of a comparison stores its result. -/
theorem prepare_comparison (relation : UInt64 → UInt64 → Bool)
    (hcomparison : opcode = .eq ∨ opcode = .lessThanU64) :
    ∃ action, executeComparison config.machine.values node relation = .ok action := by
  obtain ⟨type, htype, hfits⟩ := haccepted.fits hnode
  have hread := readable_operand haccepted hposition h hjump hnode hreads
  have hbool : type = .bool := by
    rcases hcomparison with rfl | rfl <;>
      exact (hfits.operands (by simp) (by simp)).result_eq (by decide)
  obtain ⟨⟨_, hlhs⟩, ⟨_, hrhs⟩⟩ : (∃ word, expectU64 config.machine.values node.input0 = .ok word) ∧
      ∃ word, expectU64 config.machine.values node.input1 = .ok word := by
    rcases hcomparison with rfl | rfl <;>
      exact ⟨hread 0 node.input0 .u64 rfl rfl, hread 1 node.input1 .u64 rfl rfl⟩
  subst hbool
  exact ⟨_, by simp only [executeComparison, resultType_eq_ok_iff.mpr htype, hlhs, hrhs]; rfl⟩

end Readers

/-- The producer of a projection was executed before it. -/
theorem Positioned.executed_producer (haccepted : Accepted g) (h : Positioned g config)
    (hnode : g.NodeAt config.next node .hostResult) : Executed g config node.input0 := by
  obtain ⟨type, htype, hfits⟩ := haccepted.fits hnode
  have hlt := (hfits.projection rfl).input0_lt
  exact h.executed_input haccepted hnode (List.mem_cons_self ..)
    (ne_noValue_of_lt haccepted hnode hlt)

section Errors

variable {config : Config σ} (haccepted : Accepted g) {node : NodeRecord}

include haccepted

variable {error : RuntimeError}

theorem executeBlockParam_error (hnode : g.NodeAt config.next node .blockParam)
    (h : executeBlockParam imports node = .error error) :
    HandlerFails g imports host config error := by
  obtain ⟨type, htype, hfits⟩ := haccepted.fits hnode
  simp only [executeBlockParam, resultType_eq_ok_iff.mpr htype] at h
  change (if type ≠ .capability then _ else _ : Except RuntimeError Action) = _ at h
  split_ifs at h
  · exact Or.inl (Except.error.inj h).symm
  · cases himport : imports[node.auxiliary0]? with
    | none =>
      rw [himport] at h
      exact Or.inr (Or.inl (Except.error.inj h).symm)
    | some capability =>
      rw [himport] at h
      change (if capability.raw = 0 then _ else _ : Except RuntimeError Action) = _ at h
      split_ifs at h
      exact Or.inr (Or.inl (Except.error.inj h).symm)

theorem executeConstBool_ok (hnode : g.NodeAt config.next node .constBool) :
    ∃ action, executeConstBool node = .ok action := by
  obtain ⟨type, htype, hfits⟩ := haccepted.fits hnode
  have hbool : type = .bool := (hfits.operands (by simp) (by simp)).result_eq (by decide)
  have hcanonical := (haccepted.canonical.node config.next node _ hnode).2
  subst hbool
  simp only [executeConstBool, resultType_eq_ok_iff.mpr htype]
  by_cases hfalse : node.immediate = 0
  · exact ⟨_, by simp [hfalse, bind, Except.bind]; rfl⟩
  · have htrue : node.immediate = 1 := by
      simp only [nodeFieldsAreCanonical, hfalse, Bool.and_eq_true, decide_false, Bool.false_or,
        decide_eq_true_eq] at hcanonical
      exact hcanonical.2
    exact ⟨_, by simp [htrue, bind, Except.bind]; rfl⟩

theorem executeConstU64_error (hnode : g.NodeAt config.next node .constU64)
    (h : executeConstU64 node = .error error) : HandlerFails g imports host config error := by
  obtain ⟨type, htype, hfits⟩ := haccepted.fits hnode
  simp only [executeConstU64, resultType_eq_ok_iff.mpr htype] at h
  cases type with
  | errorCode =>
    change (if node.immediate < 2 ^ 16 then _ else _ : Except RuntimeError Action) = _ at h
    split_ifs at h with hfits
    rw [← Except.error.inj h]
    exact Or.inr (Or.inr (.errorCode hnode htype (by omega)))
  | u64 | objectId | revisionId | taskId | proposalId => cases h
  | _ => exact Or.inl (Except.error.inj h).symm

/-- The result that a projection reads was kept by its producer. -/
theorem executeHostResult_error (hposition : Positioned g config) (hsound : Sound g config)
    (hnode : g.NodeAt config.next node .hostResult)
    (h : executeHostResult g config.machine.hostResults node = .error error) :
    HandlerFails g imports host config error := by
  obtain ⟨type, htype, hfits⟩ := haccepted.fits hnode
  have hfits := hfits.projection rfl
  obtain ⟨producer, opcode, hproducer, -, hfield⟩ := hfits.producer
  have hkeeper : (keeper opcode).isSome = true := keeper_of_field hfield
  obtain ⟨result, hresult⟩ := hsound.results node.input0 producer opcode hproducer hkeeper
    (hposition.executed_producer haccepted hnode)
  obtain ⟨producer', opcode', hproducer', hvalid⟩ := hsound.kept node.input0 result hresult
  obtain ⟨rfl, rfl⟩ := hproducer.unique hproducer'
  simp only [executeHostResult, hproducer.1, hresult, okOrElse] at h
  change (okOrElse .unsupportedOpcode (Opcode.ofCode producer.opcode) >>= _) = _ at h
  rw [hproducer.2] at h
  change (projectedValue opcode node.input0 node.auxiliary0 result >>= _) = _ at h
  rcases bind_eq_error_iff.mp h with hprojected | ⟨value, -, hstored⟩
  · rcases projectedValue_error hfield hvalid.bytesLen_le hprojected with
      ⟨rfl, rfl, hzero⟩ | ⟨rfl, rfl, hinvalid⟩
    · exact Or.inr (Or.inr (.capability hnode hproducer hfield hresult hzero))
    · exact Or.inr (Or.inr (.text hnode hproducer hfield hresult hinvalid))
  · cases hstored

end Errors

end Progress

end Pythos.Runtime
