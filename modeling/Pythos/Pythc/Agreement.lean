import Pythos.Pythc.Lower

/-!
# Agreement between symbols and locals

The checker drops the symbols of a block when the block ends, and refuses a name that is visible; the lowerer
keeps every local and finds the newest. `Agrees` relates a table of symbols to a lowerer: a visible name is
found as the local of the same import or `let`, every name lowered so far was resolved by the checker to the
definition of its node, and a capability that a host call takes has the resource and the rights that its
opcode requires.

`Runs` is the rule for the programs that lower expressions: they keep the agreement, also when they fail, and
only add nodes. A call whose capability covers the requirement of its intrinsic runs
(`gives_lowerIntrinsic`).
-/

namespace Pythos.Pythc

open Foundation Tig Stateful

/-! ### Nodes that grant a capability -/

theorem getElem?_of_isPrefix {α : Type} {first second : List α} (h : first <+: second) {index : ℕ} {value : α}
    (hvalue : first[index]? = some value) : second[index]? = some value := by
  obtain ⟨rest, rfl⟩ := h
  rw [List.getElem?_append_left (List.getElem?_eq_some_iff.mp hvalue).1, hvalue]

namespace Lowerer

/-- The node is a capability with the resource and the rights: a parameter for an import that asks for
them, or the capability of a created or queried object. A graph with more nodes than indices is not looked
at. -/
def Grants (lowerer : Lowerer) (info : CapabilityInfo) (node : UInt32) : Prop :=
  lowerer.nodes.length ≤ 2 ^ 32 → ∃ record, lowerer.nodes[node.toNat]? = some record ∧
    record.resultType = .capability ∧
      (record.opcode = .blockParam → ∃ imported, lowerer.imports[record.auxiliary0.toNat]? = some imported ∧
        imported.resourceKind.toNat = info.resourceKind ∧ imported.rights.toNat = info.rights) ∧
      (record.opcode = .hostResult → info = ⟨resourceObject, rightsRead ||| rightsRevise⟩)

variable {lowerer : Lowerer}

theorem Grants.mono {lowerer' : Lowerer} {info : CapabilityInfo} {node : UInt32}
    (h : lowerer.Grants info node) (hnodes : lowerer.nodes <+: lowerer'.nodes)
    (himports : lowerer.imports <+: lowerer'.imports) : lowerer'.Grants info node := by
  intro hlength
  obtain ⟨record, hrecord, htype, hparam, hresult⟩ := h (hnodes.length_le.trans hlength)
  refine ⟨record, getElem?_of_isPrefix hnodes hrecord, htype, fun hopcode ↦ ?_, hresult⟩
  obtain ⟨imported, himported, hgrant⟩ := hparam hopcode
  exact ⟨imported, getElem?_of_isPrefix himports himported, hgrant⟩

/-- A capability has the resource and at least the rights of a requirement. -/
def Covers (info requirement : CapabilityInfo) : Prop :=
  info.resourceKind = requirement.resourceKind ∧ info.rights &&& requirement.rights = requirement.rights

/-- A capability has what an opcode requires. -/
def Meets (info : CapabilityInfo) (opcode : Opcode) : Prop :=
  ∀ kind, opcode.signature.requiredResourceKind = some kind →
    Covers info ⟨kind, opcode.signature.requiredRights⟩

theorem Covers.meets {info requirement : CapabilityInfo} {opcode : Opcode} (h : Covers info requirement)
    (hkind : opcode.signature.requiredResourceKind = some requirement.resourceKind)
    (hrights : opcode.signature.requiredRights = requirement.rights) : Meets info opcode := by
  intro kind hkind'
  rw [hkind] at hkind'
  rw [hrights, ← Option.some.inj hkind']
  exact h

/-- A capability is a parameter of the entry block or a host result, and a host call takes one that meets
the requirement of its opcode. -/
structure Authorised (lowerer : Lowerer) (record : GraphNode) : Prop where
  origin : record.resultType = .capability →
    record.opcode = .hostResult ∨ record.opcode = .blockParam ∧ record.blockIndex = 0
  required : record.opcode.signature.requiredResourceKind ≠ none →
    ∃ info, lowerer.Grants info record.input1 ∧ Meets info record.opcode

theorem Authorised.mono {lowerer' : Lowerer} {record : GraphNode} (h : lowerer.Authorised record)
    (hnodes : lowerer.nodes <+: lowerer'.nodes) (himports : lowerer.imports <+: lowerer'.imports) :
    lowerer'.Authorised record := by
  refine ⟨h.origin, fun hne ↦ ?_⟩
  obtain ⟨info, hgrants, hmeets⟩ := h.required hne
  exact ⟨info, hgrants.mono hnodes himports, hmeets⟩

/-- A node that is no capability and calls no host. -/
theorem authorised_plain {record : GraphNode} (htype : record.resultType ≠ .capability)
    (hopcode : record.opcode.signature.requiredResourceKind = none) : lowerer.Authorised record :=
  ⟨fun h ↦ absurd h htype, fun h ↦ absurd hopcode h⟩

/-- The imports ask for capabilities, in the order of their slots. -/
def Slots (lowerer : Lowerer) : Prop :=
  ∀ (slot : ℕ) imported, lowerer.imports[slot]? = some imported →
    imported.importSlot.toNat = slot ∧ imported.expectedType = .capability

end Lowerer

open Lowerer

/-! ### The relation -/

/-- A table of symbols, and a log of resolved names, agree with a lowerer. -/
structure Agrees (symbols : List (String × SymbolInfo)) (resolved : List (Path × Binder))
    (lowerer : Lowerer) : Prop where
  visible : ∀ name symbol, symbols.lookup name = some symbol → ∃ node,
    lowerer.locals.lookup name = some node ∧ (symbol.binder, node) ∈ lowerer.defined ∧
      ∀ info, symbol.capability = some info → lowerer.Grants info node
  visited : ∀ visit ∈ lowerer.visits, ∀ ident, visit.expr = .name ident →
    ∃ binder, (visit.path, binder) ∈ resolved ∧ (binder, visit.node) ∈ lowerer.defined
  authorised : ∀ record ∈ lowerer.nodes, lowerer.Authorised record
  slots : lowerer.Slots

variable {symbols symbols' : List (String × SymbolInfo)} {resolved : List (Path × Binder)} {α β : Type}

variable {lowerer : Lowerer} {info : CapabilityInfo} {opcode : Opcode} {resultType : PythType}
  {inputs : List UInt32} {auxiliary0 auxiliary1 : UInt32} {immediate : UInt64}

/-- Nodes and imports are added; names, and what was lowered, stay. -/
theorem Agrees.extend {lowerer' : Lowerer} (h : Agrees symbols resolved lowerer)
    (hnodes : lowerer.nodes <+: lowerer'.nodes) (himports : lowerer.imports <+: lowerer'.imports)
    (hlocals : lowerer'.locals = lowerer.locals) (hvisits : lowerer'.visits = lowerer.visits)
    (hdefined : lowerer'.defined = lowerer.defined)
    (hnew : ∀ record ∈ lowerer'.nodes, record ∈ lowerer.nodes ∨ lowerer'.Authorised record)
    (hslots : lowerer'.Slots) : Agrees symbols resolved lowerer' where
  visible name symbol hsymbol := by
    obtain ⟨node, hnode, hbinder, hgrants⟩ := h.visible name symbol hsymbol
    rw [hlocals, hdefined]
    exact ⟨node, hnode, hbinder, fun info hinfo ↦ (hgrants info hinfo).mono hnodes himports⟩
  visited := by
    rw [hvisits, hdefined]
    exact h.visited
  authorised record hrecord := (hnew record hrecord).elim
    (fun hold ↦ (h.authorised record hold).mono hnodes himports) fun hauthorised ↦ hauthorised
  slots := hslots

/-- Names that are visible in one table are the same symbols in another, which has more in front. -/
structure Widens (symbols symbols' : List (String × SymbolInfo)) : Prop where
  suffix : symbols <:+ symbols'
  lookup : ∀ name symbol, symbols.lookup name = some symbol → symbols'.lookup name = some symbol

theorem Widens.refl (symbols : List (String × SymbolInfo)) : Widens symbols symbols :=
  ⟨List.suffix_rfl, fun _ _ h ↦ h⟩

theorem Widens.trans {symbols'' : List (String × SymbolInfo)} (h : Widens symbols symbols')
    (h' : Widens symbols' symbols'') : Widens symbols symbols'' :=
  ⟨h.suffix.trans h'.suffix, fun name symbol hsymbol ↦ h'.lookup name symbol (h.lookup name symbol hsymbol)⟩

theorem widens_nil (symbols : List (String × SymbolInfo)) : Widens [] symbols :=
  ⟨List.nil_suffix, fun _ _ h ↦ by cases h⟩

/-- A name that is not visible is defined. -/
theorem widens_cons {name : String} (info : SymbolInfo) (hname : symbols.lookup name = none) :
    Widens symbols ((name, info) :: symbols) := by
  refine ⟨List.suffix_cons .., fun other symbol hsymbol ↦ ?_⟩
  have hne : (other == name) = false := by
    refine beq_false_of_ne fun heq ↦ ?_
    rw [heq, hname] at hsymbol
    cases hsymbol
  rw [List.lookup_cons, hne, hsymbol]

theorem Agrees.narrow (h : Agrees symbols' resolved lowerer) (hwidens : Widens symbols symbols') :
    Agrees symbols resolved lowerer :=
  { h with visible := fun name symbol hsymbol ↦ h.visible name symbol (hwidens.lookup name symbol hsymbol) }

/-! ### Programs that keep it -/

/-- Nodes were added, and nothing was imported or defined. -/
structure Extends (first second : Lowerer) : Prop where
  nodes : first.nodes <+: second.nodes
  imports : second.imports = first.imports
  defined : second.defined = first.defined

theorem Extends.refl (lowerer : Lowerer) : Extends lowerer lowerer :=
  ⟨List.prefix_rfl, rfl, rfl⟩

theorem Extends.trans {first second third : Lowerer} (h : Extends first second)
    (h' : Extends second third) : Extends first third :=
  ⟨h.nodes.trans h'.nodes, h'.imports.trans h.imports, h'.defined.trans h.defined⟩

theorem Extends.grants {lowerer' : Lowerer} {node : UInt32} (h : Extends lowerer lowerer')
    (hgrants : lowerer.Grants info node) : lowerer'.Grants info node :=
  hgrants.mono h.nodes (h.imports ▸ List.prefix_rfl)

/-- A program of the lowering of an expression keeps the agreement; started under one condition it returns
with another. -/
def Runs (symbols : List (String × SymbolInfo)) (resolved : List (Path × Binder))
    (pre : Lowerer → Prop) (program : Lower α) (post : α → Lowerer → Prop) : Prop :=
  ∀ lowerer, Agrees symbols resolved lowerer → pre lowerer →
    Ensures program
      (fun value after ↦ Agrees symbols resolved after ∧ Extends lowerer after ∧ post value after)
      (fun _ after ↦ Agrees symbols resolved after ∧ Extends lowerer after) lowerer

/-- The condition of a program that needs nothing of the lowerer. -/
abbrev anywhere : Lowerer → Prop := fun _ ↦ True

/-- The program keeps the agreement, and returns the node of a capability if it stands for one. -/
abbrev Gives (symbols : List (String × SymbolInfo)) (resolved : List (Path × Binder))
    (program : Lower UInt32) (capability : Option CapabilityInfo) : Prop :=
  Runs symbols resolved anywhere program fun node lowerer ↦
    ∀ info, capability = some info → lowerer.Grants info node

abbrev Keeps (symbols : List (String × SymbolInfo)) (resolved : List (Path × Binder))
    (program : Lower α) : Prop :=
  Runs symbols resolved anywhere program fun _ ↦ anywhere

/-- A condition that added nodes do not affect. -/
def Persists (pre : Lowerer → Prop) : Prop :=
  ∀ first second, Extends first second → pre first → pre second

theorem persists_anywhere : Persists anywhere := fun _ _ _ h ↦ h

theorem persists_grants (info : CapabilityInfo) (node : UInt32) :
    Persists fun lowerer ↦ lowerer.Grants info node :=
  fun _ _ hextends hgrants ↦ hextends.grants hgrants

namespace Runs

variable {pre : Lowerer → Prop} {post : α → Lowerer → Prop}

theorem pure (value : α) (h : ∀ lowerer, pre lowerer → post value lowerer) :
    Runs symbols resolved pre (Pure.pure value) post :=
  fun lowerer hagrees hpre ↦ ⟨hagrees, .refl lowerer, h lowerer hpre⟩

theorem fail (error : Fault Diagnostic) : Runs symbols resolved pre (Stateful.fail error) post :=
  fun lowerer hagrees _ ↦ ⟨hagrees, .refl lowerer⟩

theorem mono {pre' : Lowerer → Prop} {post' : α → Lowerer → Prop} {program : Lower α}
    (h : Runs symbols resolved pre program post) (hpre : ∀ lowerer, pre' lowerer → pre lowerer)
    (hpost : ∀ value lowerer, post value lowerer → post' value lowerer) :
    Runs symbols resolved pre' program post' :=
  fun lowerer hagrees h' ↦ (h lowerer hagrees (hpre lowerer h')).mono
    (fun value after hafter ↦ ⟨hafter.1, hafter.2.1, hpost value after hafter.2.2⟩) fun _ _ hfails ↦ hfails

theorem keeps {program : Lower α} (h : Runs symbols resolved anywhere program post) :
    Keeps symbols resolved program :=
  h.mono (fun _ h ↦ h) fun _ _ _ ↦ trivial

/-- What held before a program still holds behind it, beside what the program returns with. -/
theorem bind {middle : β → Lowerer → Prop} {program : Lower β} {next : β → Lower α}
    (hpre : Persists pre) (hprogram : Runs symbols resolved pre program middle)
    (hnext : ∀ value, Runs symbols resolved (fun lowerer ↦ pre lowerer ∧ middle value lowerer)
      (next value) post) : Runs symbols resolved pre (program >>= next) post := by
  intro lowerer hagrees h
  rw [ensures_bind]
  refine (hprogram lowerer hagrees h).next fun value after hafter ↦ ?_
  obtain ⟨hagrees', hextends, hmiddle⟩ := hafter
  exact (hnext value after hagrees' ⟨hpre lowerer after hextends h, hmiddle⟩).mono
    (fun _ _ hfinal ↦ ⟨hfinal.1, hextends.trans hfinal.2.1, hfinal.2.2⟩)
    fun _ _ hfails ↦ ⟨hfails.1, hextends.trans hfails.2⟩

/-- A program whose value does not matter. -/
theorem after {program : Lower β} {next : β → Lower α} (hpre : Persists pre)
    (hprogram : Keeps symbols resolved program)
    (hnext : ∀ value, Runs symbols resolved pre (next value) post) :
    Runs symbols resolved pre (program >>= next) post :=
  bind hpre (hprogram.mono (fun _ _ ↦ trivial) fun _ _ h ↦ h) fun value ↦
    (hnext value).mono (fun _ h ↦ h.1) fun _ _ h ↦ h

/-- A program behind one that needs nothing. -/
theorem seq {program : Lower β} {next : β → Lower α} (hprogram : Keeps symbols resolved program)
    (hnext : ∀ value, Runs symbols resolved anywhere (next value) post) :
    Runs symbols resolved anywhere (program >>= next) post :=
  after persists_anywhere hprogram hnext

theorem done (value : α) : Runs symbols resolved pre (Pure.pure value) fun _ ↦ pre :=
  pure value fun _ h ↦ h

theorem read {next : Lowerer → Lower α} (h : ∀ before, Runs symbols resolved pre (next before) post) :
    Runs symbols resolved pre (Stateful.read >>= next) post :=
  fun lowerer hagrees hpre ↦ ensures_bind.mpr (h lowerer lowerer hagrees hpre)

theorem ite {condition : Prop} [Decidable condition] {first second : Lower α}
    (hfirst : Runs symbols resolved pre first post) (hsecond : Runs symbols resolved pre second post) :
    Runs symbols resolved pre (if condition then first else second) post :=
  fun lowerer hagrees hpre ↦
    ensures_ite.mpr ⟨fun _ ↦ hfirst lowerer hagrees hpre, fun _ ↦ hsecond lowerer hagrees hpre⟩

end Runs

/-! ### Steps of the lowerer -/

theorem integerType_ne_capability (expected : Option PythType) : integerType expected ≠ .capability := by
  unfold integerType
  cases expected with
  | none => decide
  | some type => cases type <;> decide

/-- A change of what the relation does not look at. -/
theorem keeps_modify {change : Lowerer → Lowerer}
    (h : ∀ lowerer, (change lowerer).nodes = lowerer.nodes ∧ (change lowerer).imports = lowerer.imports ∧
      (change lowerer).locals = lowerer.locals ∧ (change lowerer).visits = lowerer.visits ∧
        (change lowerer).defined = lowerer.defined) :
    Keeps symbols resolved (Stateful.modify change) := by
  intro lowerer hagrees _
  obtain ⟨hnodes, himports, hlocals, hvisits, hdefined⟩ := h lowerer
  refine ⟨hagrees.extend (hnodes ▸ List.prefix_rfl) (himports ▸ List.prefix_rfl) hlocals hvisits hdefined
    (fun record hrecord ↦ Or.inl (hnodes ▸ hrecord)) ?_, ⟨hnodes ▸ List.prefix_rfl, himports, hdefined⟩,
    trivial⟩
  unfold Slots
  rw [himports]
  exact hagrees.slots

theorem keeps_setFlow (change : Flow → Flow) : Keeps symbols resolved (setFlow change) :=
  keeps_modify fun _ ↦ ⟨rfl, rfl, rfl, rfl, rfl⟩

theorem keeps_addBlock : Keeps symbols resolved addBlock :=
  fun _ hagrees _ ↦ ⟨hagrees.extend List.prefix_rfl List.prefix_rfl rfl rfl rfl
    (fun _ hrecord ↦ Or.inl hrecord) hagrees.slots, ⟨List.prefix_rfl, rfl, rfl⟩, trivial⟩

/-- An authorised node is pushed; its index reads it back. -/
theorem runs_pushNode {pre : Lowerer → Prop} (h : ∀ lowerer, pre lowerer → lowerer.Authorised
      (nodeOf lowerer.currentBlock opcode resultType inputs auxiliary0 auxiliary1 immediate)) :
    Runs symbols resolved pre (pushNode opcode resultType inputs auxiliary0 auxiliary1 immediate)
      fun node lowerer ↦ lowerer.nodes.length ≤ 2 ^ 32 → ∃ block,
        lowerer.nodes[node.toNat]? =
          some (nodeOf block opcode resultType inputs auxiliary0 auxiliary1 immediate) := by
  intro lowerer hagrees hpre
  have hnodes : lowerer.nodes <+: lowerer.nodes ++
      [nodeOf lowerer.currentBlock opcode resultType inputs auxiliary0 auxiliary1 immediate] :=
    List.prefix_append ..
  refine ⟨hagrees.extend hnodes List.prefix_rfl rfl rfl rfl ?_ hagrees.slots, ⟨hnodes, rfl, rfl⟩, ?_⟩
  · intro record hrecord
    refine (List.mem_append.mp hrecord).imp id fun hnew ↦ ?_
    rw [List.mem_singleton.mp hnew]
    exact (h lowerer hpre).mono hnodes List.prefix_rfl
  · intro (hlength : (lowerer.nodes ++ [_]).length ≤ 2 ^ 32)
    rw [List.length_append, List.length_singleton] at hlength
    refine ⟨lowerer.currentBlock, ?_⟩
    show (lowerer.nodes ++ [_])[(UInt32.ofNat lowerer.nodes.length).toNat]? = _
    rw [UInt32.toNat_ofNat', Nat.mod_eq_of_lt (by omega), List.getElem?_concat_length]

theorem keeps_pushNode (htype : resultType ≠ .capability)
    (hopcode : opcode.signature.requiredResourceKind = none) :
    Keeps symbols resolved (pushNode opcode resultType inputs auxiliary0 auxiliary1 immediate) :=
  (runs_pushNode fun _ _ ↦ authorised_plain htype hopcode).keeps

theorem keeps_pushPure (htype : resultType ≠ .capability)
    (hopcode : opcode.signature.requiredResourceKind = none) :
    Keeps symbols resolved (pushPure opcode resultType inputs auxiliary0 auxiliary1 immediate) :=
  .seq (keeps_setFlow _) fun _ ↦ keeps_pushNode htype hopcode

theorem runs_pushEffectNode {effect capability : UInt32} {args : List UInt32}
    {producer : Option HostProducer} (hmeets : Meets info opcode) :
    Runs symbols resolved (fun lowerer ↦ lowerer.Grants info capability)
      (pushEffectNode opcode effect (capability :: args) producer) fun _ ↦ anywhere :=
  .bind (persists_grants info capability)
    (runs_pushNode fun _ hgrants ↦ ⟨fun h ↦ (by cases h), fun _ ↦ ⟨info, hgrants, hmeets⟩⟩) fun _ ↦
    (Runs.seq (keeps_setFlow _) fun _ ↦ .done _).mono (fun _ _ ↦ trivial) fun _ _ h ↦ h

theorem runs_pushNextEffect {capability : UInt32} {args : List UInt32}
    {producer : Option HostProducer} (hmeets : Meets info opcode) :
    Runs symbols resolved (fun lowerer ↦ lowerer.Grants info capability)
      (pushNextEffect opcode (capability :: args) producer) fun _ ↦ anywhere :=
  .read fun _ ↦ runs_pushEffectNode hmeets

/-- A projection; one of a capability grants the rights on a created or queried object. -/
theorem runs_pushHostResult {producer : UInt32} {field : ℕ} :
    Runs symbols resolved anywhere (pushHostResult producer field resultType)
      fun node lowerer ↦ resultType = .capability →
        lowerer.Grants ⟨resourceObject, rightsRead ||| rightsRevise⟩ node := by
  refine (runs_pushNode fun _ _ ↦ ⟨fun _ ↦ Or.inl rfl, fun h ↦ absurd rfl h⟩).mono
    (fun _ h ↦ h) fun node lowerer hnode htype hlength ↦ ?_
  obtain ⟨block, hrecord⟩ := hnode hlength
  exact ⟨_, hrecord, htype, fun h ↦ (by cases h), fun _ ↦ rfl⟩

theorem keeps_sliceWords (offset len : ℕ) : Keeps symbols resolved (sliceWords offset len) :=
  .ite (.done _) (.fail _)

theorem ensures_internString (bytes : Bytes) (lowerer : Lowerer) :
    Ensures (internString bytes) (fun _ after ↦ ∃ table, after = { lowerer with stringTable := table })
      (fun _ after ↦ after = lowerer) lowerer := by
  rw [internString, ensures_bind, ensures_read]
  cases findSubslice lowerer.stringTable bytes with
  | some offset => exact ensures_ite.mpr ⟨fun _ ↦ ⟨lowerer.stringTable, rfl⟩, fun _ ↦ rfl⟩
  | none =>
    exact ensures_bind.mpr (ensures_ite.mpr ⟨fun _ ↦ ⟨lowerer.stringTable ++ bytes, rfl⟩, fun _ ↦ rfl⟩)

theorem Agrees.intern (h : Agrees symbols resolved lowerer) (table : Bytes) :
    Agrees symbols resolved { lowerer with stringTable := table } :=
  h.extend List.prefix_rfl List.prefix_rfl rfl rfl rfl (fun _ hrecord ↦ Or.inl hrecord) h.slots

theorem keeps_internString (bytes : Bytes) : Keeps symbols resolved (internString bytes) := by
  refine fun lowerer hagrees _ ↦ (ensures_internString bytes lowerer).mono ?_ ?_
  · rintro _ _ ⟨table, rfl⟩
    exact ⟨hagrees.intern table, ⟨List.prefix_rfl, rfl, rfl⟩, trivial⟩
  · rintro _ _ rfl
    exact ⟨hagrees, .refl _⟩

theorem keeps_internConstant (bytes : Bytes) : Keeps symbols resolved (internConstant bytes) :=
  .read fun _ ↦ .seq (keeps_sliceWords _ _) fun _ ↦
    .seq (keeps_modify fun _ ↦ ⟨rfl, rfl, rfl, rfl, rfl⟩) fun _ ↦ .done _

theorem keeps_lowerLiteral (expected : Option PythType) (literal : Literal) :
    Keeps symbols resolved (lowerLiteral expected literal) := by
  cases literal with
  | bool value span => exact keeps_pushPure (by decide) rfl
  | string value span =>
    exact .ite
      (.seq (keeps_internConstant _) fun _ ↦ keeps_pushPure (by decide) rfl)
      (.seq (keeps_internString _) fun _ ↦ keeps_pushPure (by decide) rfl)
  | integer text span =>
    have hopcode : (if integerType expected = .i64 then Opcode.constI64 else
        .constU64).signature.requiredResourceKind = none := by split_ifs <;> rfl
    rw [lowerLiteral]
    split
    · exact .fail _
    · exact keeps_pushPure (integerType_ne_capability expected) hopcode

/-! ### Intrinsics -/

section Calls

variable {arg : LowerArg} {first : Option CapabilityInfo} {info : CapabilityInfo}

/-- The arguments of a call keep the agreement; the first one may be a capability. -/
def ArgsGive (symbols : List (String × SymbolInfo)) (resolved : List (Path × Binder)) (arg : LowerArg)
    (first : Option CapabilityInfo) : Prop :=
  ∀ index type, Gives symbols resolved (arg index type) (if index = 0 then first else none)

theorem ArgsGive.keeps (h : ArgsGive symbols resolved arg first) (index : ℕ) (type : PythType) :
    Keeps symbols resolved (arg index type) :=
  (h index type).keeps

/-- The capability of a call is lowered, and the rest may use it. -/
theorem ArgsGive.bind {next : UInt32 → Lower α} {post : α → Lowerer → Prop}
    (h : ArgsGive symbols resolved arg (some info))
    (hnext : ∀ node, Runs symbols resolved (fun lowerer ↦ lowerer.Grants info node) (next node) post) :
    Runs symbols resolved anywhere (arg 0 .capability >>= next) post :=
  .bind persists_anywhere (h 0 .capability) fun node ↦
    (hnext node).mono (fun _ hnode ↦ hnode.2 info rfl) fun _ _ h ↦ h

variable {expected : Option PythType} {opcode : Opcode} {field : ℕ × PythType}
  {args : List Expression} {span : Span} {intrinsic : Intrinsic}

theorem keeps_projected {producer : UInt32} {field : ℕ} {resultType : PythType} :
    Keeps symbols resolved (projected producer expected field resultType) :=
  .ite runs_pushHostResult.keeps (.done _)

/-- A host call, and what is done with its node. -/
theorem Runs.call {capability : UInt32} {args : List UInt32} {producer : Option HostProducer}
    {next : UInt32 → Lower α} (hmeets : Meets info opcode)
    (hnext : ∀ node, Keeps symbols resolved (next node)) :
    Runs symbols resolved (fun lowerer ↦ lowerer.Grants info capability)
      (pushNextEffect opcode (capability :: args) producer >>= next) fun _ ↦ anywhere :=
  .bind (persists_grants info capability) (runs_pushNextEffect hmeets) fun node ↦
    (hnext node).mono (fun _ _ ↦ trivial) fun _ _ h ↦ h

theorem keeps_lowerInOrder (harg : ArgsGive symbols resolved arg first) (index : ℕ)
    (types : List PythType) : Keeps symbols resolved (lowerInOrder arg index types) := by
  induction types generalizing index with
  | nil => exact .done _
  | cons type types ih =>
    exact .seq (harg.keeps index type) fun _ ↦ .seq (ih (index + 1)) fun _ ↦ .done _

theorem keeps_lowerObjectKind (expr : Expression) : Keeps symbols resolved (lowerObjectKind expr) := by
  unfold lowerObjectKind
  split
  · split
    · exact .fail _
    · exact .seq (keeps_internString _) fun _ ↦ keeps_pushPure (by decide) rfl
  · exact .fail _

theorem keeps_argAt (args : List Expression) (index : ℕ) : Keeps symbols resolved (argAt args index) := by
  unfold argAt
  cases args[index]? with
  | none => exact .fail _
  | some expr => exact .done _

theorem keeps_lowerRevisionPayload (harg : ArgsGive symbols resolved arg first) :
    Keeps symbols resolved (lowerRevisionPayload args arg) := by
  refine .seq (keeps_argAt args 3) fun expr ↦ ?_
  split
  · exact harg.keeps 3 .bytes
  · exact .fail _

section

variable (harg : ArgsGive symbols resolved arg (some info))

include harg

theorem keeps_lowerAccessor {pending : Flow → Option (UInt32 × UInt32)}
    {setPending : UInt32 × UInt32 → Flow → Flow} (hmeets : Meets info opcode) :
    Keeps symbols resolved (lowerAccessor opcode pending setPending field arg) := by
  refine harg.bind fun capability ↦ .bind (persists_grants info capability)
    (.read fun _ ↦ .ite (.pure _ fun _ _ ↦ trivial) (runs_pushNextEffect hmeets) :
      Runs symbols resolved _ (sharedRead opcode pending capability) fun _ ↦ anywhere) fun producer ↦ ?_
  exact (Runs.seq (keeps_setFlow _) fun _ ↦ runs_pushHostResult.keeps).mono
    (fun _ _ ↦ trivial) fun _ _ h ↦ h

theorem keeps_lowerTaskContextAccessor (hmeets : Meets info .taskContextRead) :
    Keeps symbols resolved (lowerTaskContextAccessor field arg) :=
  keeps_lowerAccessor harg hmeets

theorem keeps_lowerCommandAccessor (hmeets : Meets info .commandRead) :
    Keeps symbols resolved (lowerCommandAccessor field arg) :=
  keeps_lowerAccessor harg hmeets

theorem runs_lowerInOrder (types : List PythType) :
    Runs symbols resolved anywhere (lowerInOrder arg 0 (.capability :: types)) fun nodes lowerer ↦
      ∃ capability args, nodes = capability :: args ∧ lowerer.Grants info capability :=
  harg.bind fun capability ↦ .after (persists_grants info capability) (keeps_lowerInOrder harg 1 types)
    fun args ↦ .pure _ fun _ hgrants ↦ ⟨capability, args, rfl, hgrants⟩

/-- Arguments in order, with the capability in front, for a host call. -/
theorem keeps_lowerInOrder_bind {types : List PythType} {next : List UInt32 → Lower α}
    (hnext : ∀ capability args, Runs symbols resolved (fun lowerer ↦ lowerer.Grants info capability)
      (next (capability :: args)) fun _ ↦ anywhere) :
    Keeps symbols resolved (lowerInOrder arg 0 (.capability :: types) >>= next) := by
  refine .bind persists_anywhere (runs_lowerInOrder harg types) fun nodes lowerer hagrees hnodes ↦ ?_
  obtain ⟨-, capability, args, rfl, hgrants⟩ := hnodes
  exact hnext capability args lowerer hagrees hgrants

theorem keeps_lowerObjectWorkspaceIntrinsic {producer : HostProducer} (hmeets : Meets info opcode) :
    Keeps symbols resolved (lowerObjectWorkspaceIntrinsic opcode producer args arg expected) :=
  harg.bind fun capability ↦ .after (persists_grants info capability)
    (.seq (keeps_argAt args 1) keeps_lowerObjectKind) fun _ ↦
      .call hmeets fun _ ↦ keeps_projected

theorem keeps_lowerObjectRevise (hmeets : Meets info .objectRevise) :
    Keeps symbols resolved (lowerObjectRevise args arg expected) :=
  harg.bind fun capability ↦ .after (persists_grants info capability) (harg.keeps 1 .objectId) fun _ ↦
    .after (persists_grants info capability) (keeps_lowerRevisionPayload harg) fun _ ↦
      .call hmeets fun _ ↦ keeps_projected

theorem keeps_lowerObjectInspect (hmeets : Meets info .objectInspect) :
    Keeps symbols resolved (lowerObjectInspect arg expected) :=
  harg.bind fun capability ↦ .after (persists_grants info capability) (harg.keeps 1 .objectId) fun _ ↦
    .call hmeets fun _ ↦ .ite runs_pushHostResult.keeps (.done _)

theorem keeps_lowerObjectHistory (hmeets : Meets info .objectHistory) :
    Keeps symbols resolved (lowerObjectHistory arg span expected) :=
  harg.bind fun capability ↦ .after (persists_grants info capability) (harg.keeps 1 .objectId) fun _ ↦
    .call hmeets fun _ ↦ .ite (.fail _) (.done _)

theorem keeps_lowerTaskPropose (hmeets : Meets info .taskProposalEmit) :
    Keeps symbols resolved (lowerTaskPropose arg span expected) :=
  .ite (.fail _) (keeps_lowerInOrder_bind harg fun _ _ ↦ runs_pushNextEffect hmeets)

theorem keeps_lowerGenericEffectfulIntrinsic {types : List PythType} (span : Span)
    (hlength : args.length = intrinsic.argTypes.length)
    (htypes : intrinsic.argTypes = .capability :: types)
    (hmeets : ∀ opcode, opcodeForIntrinsic intrinsic = some opcode → Meets info opcode) :
    Keeps symbols resolved (lowerGenericEffectfulIntrinsic intrinsic args arg span) := by
  unfold lowerGenericEffectfulIntrinsic
  cases hopcode : opcodeForIntrinsic intrinsic with
  | none => exact .fail _
  | some opcode =>
    refine .read fun before ↦ ?_
    rw [hlength, List.take_length, htypes]
    exact keeps_lowerInOrder_bind harg fun _ _ ↦ runs_pushEffectNode (hmeets opcode hopcode)

end

/-- An access to a capability projects a capability. -/
theorem accessField_type {producer : HostProducer} {access : HostResultAccess} {field : ℕ}
    {type : PythType} (haccess : intrinsic.hostResultAccess = some access)
    (hfield : accessField producer access = some (field, type))
    (hinfo : intrinsic.resultCapability = some info) :
    type = .capability ∧ info = ⟨resourceObject, rightsRead ||| rightsRevise⟩ := by
  cases intrinsic <;> cases haccess <;> cases hinfo <;> cases producer <;> cases hfield <;> exact ⟨rfl, rfl⟩

theorem gives_lowerHostResultAccess {access : HostResultAccess}
    (haccess : intrinsic.hostResultAccess = some access) :
    Gives symbols resolved (lowerHostResultAccess access span) intrinsic.resultCapability := by
  refine .read fun before ↦ ?_
  cases before.flow.hostProducer with
  | none => exact .fail _
  | some pending =>
    obtain ⟨producer, node⟩ := pending
    cases hfield : accessField producer access with
    | none =>
      simp only [hfield]
      exact .fail _
    | some entry =>
      obtain ⟨field, type⟩ := entry
      simp only [hfield]
      refine runs_pushHostResult.mono (fun _ h ↦ h) fun node lowerer hgrants info hinfo ↦ ?_
      obtain ⟨rfl, rfl⟩ := accessField_type haccess hfield hinfo
      exact hgrants rfl

/-- A call whose first argument covers the requirement of the intrinsic. The opcodes require nothing
that the intrinsics do not. -/
theorem gives_lowerIntrinsic (hlength : args.length = intrinsic.argTypes.length)
    (hcovers : ∀ requirement, intrinsic.requirement = some requirement →
      ∃ info, first = some info ∧ Covers info requirement)
    (harg : ArgsGive symbols resolved arg first) :
    Gives symbols resolved (lowerIntrinsic intrinsic args arg span expected)
      intrinsic.resultCapability := by
  cases haccess : intrinsic.hostResultAccess with
  | some access =>
    simp only [lowerIntrinsic, haccess]
    exact gives_lowerHostResultAccess haccess
  | none =>
    have hnone : intrinsic.resultCapability = none := by cases intrinsic <;> first | rfl | cases haccess
    obtain ⟨requirement, hrequirement⟩ : ∃ requirement, intrinsic.requirement = some requirement := by
      cases intrinsic <;> first | exact ⟨_, rfl⟩ | cases haccess
    obtain ⟨info, rfl, hinfo⟩ := hcovers requirement hrequirement
    have hkeeps : Keeps symbols resolved (lowerIntrinsic intrinsic args arg span expected) := by
      cases intrinsic <;> cases haccess <;> cases hrequirement
      case objectCreate => exact keeps_lowerObjectWorkspaceIntrinsic harg (hinfo.meets rfl rfl)
      case objectQuery => exact keeps_lowerObjectWorkspaceIntrinsic harg (hinfo.meets rfl rfl)
      case objectInspect => exact keeps_lowerObjectInspect harg (hinfo.meets rfl rfl)
      case objectHistory => exact keeps_lowerObjectHistory harg (hinfo.meets rfl rfl)
      case objectRevise => exact keeps_lowerObjectRevise harg (hinfo.meets rfl rfl)
      case taskPropose => exact keeps_lowerTaskPropose harg (hinfo.meets rfl rfl)
      case systemLog | commandResultEmit =>
        exact keeps_lowerGenericEffectfulIntrinsic harg span hlength rfl
          fun opcode h ↦ by cases h; exact hinfo.meets rfl rfl
      case taskActive | graphRelated | relevanceEmit | capabilityRequest =>
        exact keeps_lowerGenericEffectfulIntrinsic harg span hlength rfl fun opcode h ↦ by cases h
      case taskContextActive | taskContextCandidate | taskContextScore | taskContextKind
          | taskContextReason =>
        exact keeps_lowerTaskContextAccessor harg (hinfo.meets rfl rfl)
      all_goals exact keeps_lowerCommandAccessor harg (hinfo.meets rfl rfl)
    refine hkeeps.mono (fun _ h ↦ h) fun _ _ _ info hsome ↦ ?_
    rw [hnone] at hsome
    cases hsome

end Calls

/-! ### Names -/

/-- A visible name is lowered to the node of its definition. -/
theorem runs_lookupLocal {ident : Ident} {symbol : SymbolInfo} (h : symbols.lookup ident.text = some symbol) :
    Runs symbols resolved anywhere (lookupLocal ident) fun node lowerer ↦
      (∀ info, symbol.capability = some info → lowerer.Grants info node) ∧
        (symbol.binder, node) ∈ lowerer.defined := by
  intro lowerer hagrees _
  obtain ⟨node, hnode, hbinder, hgrants⟩ := hagrees.visible ident.text symbol h
  simp only [lookupLocal, ensures_bind, ensures_read, hnode]
  exact ⟨hagrees, .refl lowerer, hgrants, hbinder⟩

/-- An expression is logged; a name with the binder that the checker found. -/
theorem gives_visited {path : Path} {expr : Expression} {program : Lower UInt32}
    {capability : Option CapabilityInfo}
    (h : Runs symbols resolved anywhere program fun node lowerer ↦
      (∀ info, capability = some info → lowerer.Grants info node) ∧
        ∀ ident, expr = .name ident →
          ∃ binder, (path, binder) ∈ resolved ∧ (binder, node) ∈ lowerer.defined) :
    Gives symbols resolved (visited path expr program) capability := by
  refine .read fun before ↦ .bind persists_anywhere h fun node lowerer hagrees hnode ↦ ?_
  obtain ⟨-, hgrants, hname⟩ := hnode
  refine ⟨⟨hagrees.visible, ?_, fun record hrecord ↦ (hagrees.authorised record hrecord).mono
    List.prefix_rfl List.prefix_rfl, hagrees.slots⟩, ⟨List.prefix_rfl, rfl, rfl⟩, hgrants⟩
  intro visit hvisit ident hident
  rcases List.mem_cons.mp hvisit with rfl | hvisit
  · exact hname ident hident
  · exact hagrees.visited visit hvisit ident hident

/-- An expression that is no name is logged. -/
theorem Runs.visited {path : Path} {expr : Expression} {program : Lower UInt32}
    {capability : Option CapabilityInfo} (hexpr : ∀ ident, expr ≠ .name ident)
    (h : Gives symbols resolved program capability) :
    Gives symbols resolved (Lowerer.visited path expr program) capability :=
  gives_visited (h.mono (fun _ h ↦ h) fun _ _ hnode ↦ ⟨hnode, fun ident hident ↦ absurd hident (hexpr ident)⟩)

end Pythos.Pythc
