import Pythos.Runtime.Interpreter

/-!
# What the handlers of the interpreter prepare

For every opcode, what a successful `prepare` says of the node: the value that a pure node stores and its
type (`StoreFits`), the request that a host operation makes and where its capability comes from
(`CallFits`), and that only terminators do neither (`prepare_cases`). The statements take the tables of
the machine as they are; the run invariants supply what is in them.
-/

namespace Pythos.Runtime

open Foundation Shared Tig

/-! ### Operands -/

section Operands

variable {values : List (Option Value)} {index : ℕ}

theorem loadValue_eq_ok_iff {value : Value} :
    loadValue values index = .ok value ↔ values[index]?.join = some value :=
  okOrElse_eq_ok_iff

theorem expectCapability_eq_ok_iff {capability : PackedCapability} :
    expectCapability values index = .ok capability ↔
      values[index]?.join = some (.capability capability) := by
  rw [expectCapability, bind_eq_ok_iff, ← loadValue_eq_ok_iff]
  constructor
  · rintro ⟨value, hload, hvalue⟩
    cases value <;> simp_all
  · exact fun hload ↦ ⟨_, hload, rfl⟩

/-- Each reader succeeds on a value of its type. -/
theorem exists_expect_of_type {value : Value} (hvalue : values[index]?.join = some value) :
    (value.type = .effect → ∃ token, expectEffect values index = .ok token) ∧
      (value.type = .capability → ∃ capability, expectCapability values index = .ok capability) ∧
      (value.type = .objectId → ∃ id, expectObjectId values index = .ok id) ∧
      (value.type = .taskId → ∃ id, expectTaskId values index = .ok id) ∧
      (value.type = .u64 → ∃ word, expectU64 values index = .ok word) ∧
      (value.type = .errorCode → ∃ code, expectErrorCode values index = .ok code) ∧
      (value.type = .bool → ∃ condition, expectBool values index = .ok condition) := by
  have hload := loadValue_eq_ok_iff.mpr hvalue
  simp only [expectEffect, expectCapability, expectObjectId, expectTaskId, expectU64,
    expectErrorCode, expectBool, hload]
  refine ⟨?_, ?_, ?_, ?_, ?_, ?_, ?_⟩ <;> intro htype <;> cases value <;>
    first
      | exact ⟨_, rfl⟩
      | (exfalso; revert htype; simp [Value.type]; try split_ifs <;> simp)

end Operands

/-! ### Stored values -/

/-- A text value stands for a kept result of its producer: of its length, and UTF-8. -/
def TextFits (hostResults : List (Option HostCallResult)) (producer : ℕ) (len : UInt16) : Prop :=
  ∃ result, hostResults[producer]?.join = some result ∧ result.bytesLen = len ∧
    result.bytesLen.toNat ≤ maxHostResultBytes ∧ utf8Valid result.text = true

/-- What a node that stores a value is and stores. -/
structure StoreFits (g : Graph) (imports : Vector PackedCapability maxPythGraphImports)
    (hostResults : List (Option HostCallResult)) (node : NodeRecord) (opcode : Opcode)
    (value : Value) : Prop where
  type_eq : PythType.ofCode node.resultType = some value.type
  not_terminator : isTerminator opcode = false
  not_effectful : opcode.signature.effectful = false
  slice : ∀ offset len utf8, value = .slice offset len utf8 → offset = node.auxiliary0 ∧
    len = node.auxiliary1 ∧ opcode = if utf8 then .constUtf8 else .constBytes
  text : ∀ producer len, value = .hostUtf8 producer len → opcode = .hostResult ∧
    producer = node.input0 ∧ TextFits hostResults producer len
  capability : ∀ capability, value = .capability capability →
    (opcode = .blockParam ∧ imports[node.auxiliary0]? = some capability) ∨
      (opcode = .hostResult ∧ ∃ result, hostResults[node.input0]?.join = some result ∧
        result.capability = capability)

variable {opcode : Opcode} {value : Value} {producer : ℕ} {result : HostCallResult}
  {type : PythType} {field : ℕ}

/-- The types of the values other than slices, host texts and capabilities. -/
def isWord : PythType → Bool
  | .bytes | .utf8 | .capability => false
  | _ => true

/-- A value that is neither a slice nor a host text nor a capability fits by its type. -/
theorem StoreFits.of_type {g : Graph} {imports : Vector PackedCapability maxPythGraphImports}
    {hostResults : List (Option HostCallResult)} {node : NodeRecord}
    (htype : PythType.ofCode node.resultType = some value.type)
    (hterminator : isTerminator opcode = false) (heffectful : opcode.signature.effectful = false)
    (hword : isWord value.type = true) :
    StoreFits g imports hostResults node opcode value where
  type_eq := htype
  not_terminator := hterminator
  not_effectful := heffectful
  slice := by
    rintro offset len utf8 rfl
    cases utf8 <;> cases hword
  text := by
    rintro producer len rfl
    cases hword
  capability := by
    rintro capability rfl
    cases hword

theorem hostUtf8Value_eq_ok (h : hostUtf8Value producer result = .ok value) :
    value = .hostUtf8 producer result.bytesLen ∧ result.bytesLen.toNat ≤ maxHostResultBytes ∧
      utf8Valid result.text = true := by
  unfold hostUtf8Value at h
  split_ifs at h with hinvalid
  push Not at hinvalid
  exact ⟨(Except.ok.inj h).symm, hinvalid.1, hinvalid.2⟩

/-- What a projection yields: a value of the type of the field, a text only of its own producer, and
a capability only of the result. -/
structure ProjectedFits (producer : ℕ) (result : HostCallResult) (type : PythType) (value : Value) :
    Prop where
  type_eq : value.type = type
  not_slice : ∀ offset len utf8, value ≠ .slice offset len utf8
  text : ∀ producer' len, value = .hostUtf8 producer' len → producer' = producer ∧
    len = result.bytesLen ∧ result.bytesLen.toNat ≤ maxHostResultBytes ∧
      utf8Valid result.text = true
  capability : ∀ capability, value = .capability capability → capability = result.capability

theorem ProjectedFits.of_word (htype : value.type = type) (hword : isWord type = true) :
    ProjectedFits producer result type value := by
  subst htype
  refine ⟨rfl, ?_, ?_, ?_⟩
  · rintro offset len utf8 rfl
    cases utf8 <;> cases hword
  · rintro producer' len rfl
    cases hword
  · rintro capability rfl
    cases hword

/-- The ways to project a field of a type. -/
inductive Projects (producer : ℕ) (result : HostCallResult) : PythType → Except RuntimeError Value → Prop
  | word {type : PythType} {value : Value} (htype : value.type = type) (hword : isWord type = true) :
      Projects producer result type (.ok value)
  | capability : Projects producer result .capability
      (if result.capability.raw = 0 then .error .invalidValue else .ok (.capability result.capability))
  | text : Projects producer result .utf8 (hostUtf8Value producer result)

theorem projects_projectedValue (htype : hostResultFieldType opcode field = some type) :
    Projects producer result type (projectedValue opcode producer field result) := by
  by_cases hread : opcode = .taskContextRead ∨ opcode = .commandRead
  · rcases hread with rfl | rfl
    all_goals
      simp only [hostResultFieldType, isObjectOperation, reduceCtorEq, decide_false, Bool.or_self,
        Bool.false_eq_true, false_and, if_false, or_self, true_and] at htype
      simp only [projectedValue, taskContextHostResultValue, commandHostResultValue]
      split_ifs at htype ⊢ <;> obtain rfl := Option.some_inj.mp htype <;>
        first | exact .word rfl rfl | exact .text
  obtain ⟨htask, hcommand⟩ := not_or.mp hread
  have hobject : projectedValue opcode producer field result =
      objectHostResultValue producer field result := by
    cases opcode <;> first | rfl | contradiction
  rw [hobject]
  simp only [hostResultFieldType, htask, hcommand, false_and, if_false, hostResultStatus,
    hostResultObjectId, hostResultRevision, hostResultCapability, hostResultUtf8] at htype
  simp only [objectHostResultValue, hostResultStatus, hostResultObjectId, hostResultRevision,
    hostResultCapability, hostResultUtf8]
  by_cases hsmall : field = 0 ∨ field = 1 ∨ field = 2
  · rcases hsmall with rfl | rfl | rfl
    all_goals
      simp at htype
      obtain ⟨-, rfl⟩ := htype
      exact .word rfl rfl
  push Not at hsmall
  by_cases hcapability : field = 3
  · subst hcapability
    simp at htype
    obtain ⟨-, rfl⟩ := htype
    exact .capability
  by_cases htext : field = 4
  · subst htext
    simp at htype
    obtain ⟨-, rfl⟩ := htype
    exact .text
  · simp [hsmall, hcapability, htext] at htype

/-- A projection of a field has the type that the verifier gives the field. -/
theorem projectedFits (htype : hostResultFieldType opcode field = some type)
    (h : projectedValue opcode producer field result = .ok value) :
    ProjectedFits producer result type value := by
  have hprojects := h ▸ projects_projectedValue htype
  generalize hvalue : Except.ok value = projected at hprojects
  cases hprojects with
  | word hvalueType hword =>
    obtain rfl := Except.ok.inj hvalue
    exact .of_word hvalueType hword
  | capability =>
    split_ifs at hvalue
    obtain rfl := Except.ok.inj hvalue
    exact ⟨rfl, nofun, nofun, fun capability hcapability ↦ (Value.capability.inj hcapability).symm⟩
  | text =>
    obtain ⟨rfl, hlen, hvalid⟩ := hostUtf8Value_eq_ok hvalue.symm
    refine ⟨rfl, nofun, fun producer' len htext ↦ ?_, nofun⟩
    obtain ⟨rfl, rfl⟩ := Value.hostUtf8.inj htext
    exact ⟨rfl, rfl, hlen, hvalid⟩

section Prepare

variable {g : Graph} {imports : Vector PackedCapability maxPythGraphImports}
  {values : List (Option Value)} {hostResults : List (Option HostCallResult)} {index : ℕ}
  {node : NodeRecord}

variable {type : PythType} {action : Action} {opcode : Opcode}

theorem resultType_eq_ok_iff :
    resultType node = .ok type ↔ PythType.ofCode node.resultType = some type :=
  okOrElse_eq_ok_iff

theorem storeFits_blockParam (h : executeBlockParam imports node = .ok action) :
    ∃ value, action = .store value ∧ StoreFits g imports hostResults node .blockParam value := by
  rw [executeBlockParam, bind_eq_ok_iff] at h
  obtain ⟨type, htype, h⟩ := h
  split_ifs at h with hcapability
  rw [bind_eq_ok_iff] at h
  obtain ⟨capability, himport, h⟩ := h
  split_ifs at h with hzero
  obtain rfl := Except.ok.inj h
  rw [not_not] at hcapability
  subst hcapability
  refine ⟨_, rfl, ⟨resultType_eq_ok_iff.mp htype, rfl, rfl, nofun, nofun,
    fun other hother ↦ Or.inl ⟨rfl, ?_⟩⟩⟩
  rw [← Value.capability.inj hother]
  exact okOrElse_eq_ok_iff.mp himport

theorem storeFits_constBool (h : executeConstBool node = .ok action) :
    ∃ value, action = .store value ∧ StoreFits g imports hostResults node .constBool value := by
  rw [executeConstBool, bind_eq_ok_iff] at h
  obtain ⟨type, htype, h⟩ := h
  have htype := resultType_eq_ok_iff.mp htype
  split_ifs at h with hbool hzero hone
  all_goals
    rw [not_not] at hbool
    subst hbool
    obtain rfl := Except.ok.inj h
    exact ⟨_, rfl, .of_type htype rfl rfl rfl⟩

theorem storeFits_constU64 (h : executeConstU64 node = .ok action) :
    ∃ value, action = .store value ∧ StoreFits g imports hostResults node .constU64 value := by
  rw [executeConstU64, bind_eq_ok_iff] at h
  obtain ⟨type, htype, h⟩ := h
  have htype := resultType_eq_ok_iff.mp htype
  cases type <;> simp only [reduceCtorEq] at h
  case errorCode =>
    split_ifs at h with hsmall
    obtain rfl := Except.ok.inj h
    exact ⟨_, rfl, .of_type htype rfl rfl rfl⟩
  all_goals
    obtain rfl := Except.ok.inj h
    exact ⟨_, rfl, .of_type htype rfl rfl rfl⟩

theorem storeFits_comparison {relation : UInt64 → UInt64 → Bool}
    (hterminator : isTerminator opcode = false) (heffectful : opcode.signature.effectful = false)
    (h : executeComparison values node relation = .ok action) :
    ∃ value, action = .store value ∧ StoreFits g imports hostResults node opcode value := by
  rw [executeComparison, bind_eq_ok_iff] at h
  obtain ⟨type, htype, h⟩ := h
  have htype := resultType_eq_ok_iff.mp htype
  split_ifs at h with hbool
  rw [not_not] at hbool
  subst hbool
  simp only [bind_eq_ok_iff] at h
  obtain ⟨lhs, -, rhs, -, h⟩ := h
  obtain rfl := Except.ok.inj h
  exact ⟨_, rfl, .of_type htype hterminator heffectful rfl⟩

/-- What a node that calls the host is and passes: the request of its opcode, with the capability of
its second operand. -/
structure CallFits (values : List (Option Value)) (node : NodeRecord) (opcode : Opcode)
    (request : HostRequest) : Prop where
  opcode_eq : request.opcode = opcode
  capability : values[node.input1]?.join = some (.capability request.capability)

theorem HostRequest.effectful (request : HostRequest) :
    request.opcode.signature.effectful = true := by
  cases request <;> rfl

/-- The operation opcodes, each with its handler: a successful handler calls the host. -/
theorem callFits_of_prepare (heffectful : opcode.signature.effectful = true)
    (h : prepare g imports values hostResults index node opcode = .ok action) :
    ∃ request, action = .call request ∧ CallFits values node opcode request := by
  cases opcode <;> simp only [prepare, reduceCtorEq] at h <;>
    first
      | (exfalso; revert heffectful; decide)
      | (simp only [executeSystemLog, executeObjectCreate, executeObjectQuery, executeObjectInspect,
           executeObjectRevise, executeObjectHistory, executeTaskContext, executeTaskProposalEmit,
           executeCommandRead, executeCommandResultEmit, bind_eq_ok_iff,
           expectCapability_eq_ok_iff] at h
         first
           | (obtain ⟨_, -, capability, hcapability, h⟩ := h
              exact ⟨_, (Except.ok.inj h).symm, rfl, hcapability⟩)
           | (obtain ⟨_, -, capability, hcapability, _, -, h⟩ := h
              exact ⟨_, (Except.ok.inj h).symm, rfl, hcapability⟩)
           | (obtain ⟨_, -, capability, hcapability, _, -, _, -, h⟩ := h
              exact ⟨_, (Except.ok.inj h).symm, rfl, hcapability⟩))

variable (htype : PythType.ofCode node.resultType = some type)

include htype

/-- A constant in a pool is stored as its slice. -/
theorem storeFits_slice (utf8 : Bool)
    (hfits : g.OperandsFit node (if utf8 then .constUtf8 else .constBytes) type) :
    StoreFits g imports hostResults node (if utf8 then .constUtf8 else .constBytes)
      (.slice node.auxiliary0 node.auxiliary1 utf8) := by
  obtain rfl : type = (Value.slice node.auxiliary0 node.auxiliary1 utf8).type := by
    cases utf8 <;> exact hfits.result_eq (by decide)
  refine ⟨htype, by cases utf8 <;> rfl, by cases utf8 <;> rfl, fun offset len utf8 hslice ↦ ?_, nofun, nofun⟩
  obtain ⟨rfl, rfl, rfl⟩ := Value.slice.inj hslice
  exact ⟨rfl, rfl, rfl⟩

theorem storeFits_effectStart (hfits : g.OperandsFit node .effectStart type) :
    StoreFits g imports hostResults node .effectStart (.effect index) := by
  obtain rfl : type = .effect := hfits.result_eq (by decide)
  exact .of_type htype rfl rfl rfl

theorem storeFits_hostResult (hfits : g.ProjectionFits index node type)
    (h : executeHostResult g hostResults node = .ok action) :
    ∃ value, action = .store value ∧ StoreFits g imports hostResults node .hostResult value := by
  simp only [executeHostResult, bind_eq_ok_iff, okOrElse_eq_ok_iff] at h
  obtain ⟨producer, hproducer, opcode, hopcode, result, hresult, value, hvalue, h⟩ := h
  obtain rfl := Except.ok.inj h
  obtain ⟨producer', opcode', hnode', -, hfield⟩ := hfits.producer
  obtain ⟨rfl, rfl⟩ := hnode'.unique ⟨hproducer, hopcode⟩
  have hprojected := projectedFits hfield hvalue
  refine ⟨value, rfl, ⟨hprojected.type_eq ▸ htype, rfl, rfl,
    fun offset len utf8 hslice ↦ absurd hslice (hprojected.not_slice offset len utf8),
    fun producer len htext ↦ ?_, fun capability hcapability ↦ Or.inr ⟨rfl, result, hresult, ?_⟩⟩⟩
  · obtain ⟨rfl, rfl, hlen, hvalid⟩ := hprojected.text producer len htext
    exact ⟨rfl, rfl, result, hresult, rfl, hlen, hvalid⟩
  · exact (hprojected.capability capability hcapability).symm

/-- What a successful `prepare` can be: a stored value, a host call, or a terminator. -/
theorem prepare_cases (hfits : g.NodeFits index node opcode type)
    (h : prepare g imports values hostResults index node opcode = .ok action) :
    (∃ value, action = .store value ∧ StoreFits g imports hostResults node opcode value) ∨
      (∃ request, action = .call request ∧ CallFits values node opcode request) ∨
        (action = .proceed ∧ isTerminator opcode = true) := by
  by_cases heffectful : opcode.signature.effectful = true
  · exact Or.inr (Or.inl (callFits_of_prepare heffectful h))
  cases opcode with
  | blockParam => exact Or.inl (storeFits_blockParam h)
  | constBool => exact Or.inl (storeFits_constBool h)
  | constU64 => exact Or.inl (storeFits_constU64 h)
  | constBytes =>
    obtain ⟨bytes, -, h⟩ := bind_eq_ok_iff.mp h
    exact Or.inl ⟨_, (Except.ok.inj h).symm, storeFits_slice htype false (hfits.operands (by simp) (by simp))⟩
  | constUtf8 =>
    obtain ⟨text, -, h⟩ := bind_eq_ok_iff.mp h
    exact Or.inl ⟨_, (Except.ok.inj h).symm, storeFits_slice htype true (hfits.operands (by simp) (by simp))⟩
  | effectStart =>
    obtain rfl := Except.ok.inj h
    exact Or.inl ⟨_, rfl, storeFits_effectStart htype (hfits.operands (by simp) (by simp))⟩
  | hostResult => exact Or.inl (storeFits_hostResult htype (hfits.projection rfl) h)
  | eq | lessThanU64 => exact Or.inl (storeFits_comparison rfl rfl h)
  | jump | branch | ret => exact Or.inr (Or.inr ⟨(Except.ok.inj h).symm, rfl⟩)
  | _ => first | exact absurd rfl heffectful | simp [prepare] at h

theorem callFits_of_call (hfits : g.NodeFits index node opcode type) {request : HostRequest}
    (h : prepare g imports values hostResults index node opcode = .ok (.call request)) :
    CallFits values node opcode request := by
  rcases prepare_cases htype hfits h with ⟨_, hfalse, -⟩ | ⟨made, hmade, hcall⟩ | ⟨hfalse, -⟩
  · cases hfalse
  · exact Action.call.inj hmade ▸ hcall
  · cases hfalse

end Prepare

end Pythos.Runtime
