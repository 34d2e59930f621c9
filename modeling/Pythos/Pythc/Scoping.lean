import Pythos.Foundation.Journal
import Pythos.Pythc.Agreement

/-!
# Names mean the same to the checker and to the lowerer

What the checker accepts is lowered in agreement with the symbols it saw, expression by expression and
statement by statement (`accepts_checkExpression`, `accepts_checkStatement`). Both logs are journals of a walk
over the program, so a place is resolved once and a binder defines one node; a name that is lowered stands for
the node of the import or `let` that the checker found (`lowered_name_resolved_alike`).
-/

namespace Pythos.Pythc

open Foundation Tig Stateful Lowerer

variable {symbols symbols' : List (String × SymbolInfo)} {resolved : List (Path × Binder)} {α β : Type}

/-! ### The checker -/

section Checker

open Checker

variable {checker : Checker}

/-- Nothing is said about a program that the checker refuses. -/
abbrev Accepts (program : Check α) (post : α → Checker → Prop) (checker : Checker) : Prop :=
  Ensures program post (fun _ _ ↦ True) checker

theorem Accepts.bind {program : Check β} {next : β → Check α} {middle : β → Checker → Prop}
    {post : α → Checker → Prop} (h : Accepts program middle checker)
    (hnext : ∀ value after, middle value after → Accepts (next value) post after) :
    Accepts (program >>= next) post checker :=
  ensures_bind.mpr (Ensures.mono h hnext fun _ _ h ↦ h)

theorem accepts_refuse {condition : Bool} {code message : String} {span : Span} {post : Unit → Checker → Prop}
    (h : condition = false → post () checker) : Accepts (refuse condition code message span) post checker := by
  cases condition with
  | true => trivial
  | false => exact h rfl

theorem accepts_checkLiteral (expected : Option PythType) (literal : Literal) :
    Accepts (checkLiteral expected literal)
      (fun outcome after ↦ after = checker ∧ outcome.capability = none) checker := by
  cases literal with
  | bool value span | string value span => exact ⟨rfl, rfl⟩
  | integer text span => exact ensures_bind.mpr (accepts_refuse fun _ ↦ ⟨rfl, rfl⟩)

theorem accepts_checkName (path : Path) (ident : Ident) :
    Accepts (checkName path ident) (fun outcome after ↦ ∃ symbol,
      checker.symbols.lookup ident.text = some symbol ∧ outcome.capability = symbol.capability ∧
        after = { checker with resolved := (path, symbol.binder) :: checker.resolved }) checker := by
  rw [checkName, Accepts, ensures_bind, ensures_read]
  cases hsymbol : checker.lookupSymbol ident.text with
  | none => trivial
  | some symbol => exact ⟨symbol, hsymbol, rfl, rfl⟩

theorem accepts_recordIntrinsic (intrinsic : Intrinsic) :
    Accepts (recordIntrinsic intrinsic) (fun _ after ↦
      after.symbols = checker.symbols ∧ after.resolved = checker.resolved) checker := by
  rw [recordIntrinsic, Accepts, ensures_modify]
  split_ifs <;> exact ⟨rfl, rfl⟩

theorem accepts_checkRequirement (intrinsic : Intrinsic) (first : Option CapabilityInfo) (span : Span) :
    Accepts (checkRequirement intrinsic first span) (fun _ after ↦ after = checker ∧ ∀ requirement,
      intrinsic.requirement = some requirement → ∃ info, first = some info ∧ Covers info requirement)
      checker := by
  unfold checkRequirement
  split
  case h_1 hnone => exact ⟨rfl, fun requirement hsome ↦ absurd (hnone.symm.trans hsome) (by simp)⟩
  case h_2 => trivial
  case h_3 requirement info hrequirement =>
    refine ensures_bind.mpr (accepts_refuse fun hkind ↦ accepts_refuse fun hrights ↦ ⟨rfl, ?_⟩)
    intro requirement' hrequirement'
    obtain rfl := Option.some.inj (hrequirement.symm.trans hrequirement')
    exact ⟨info, rfl, by simpa using hkind, by simpa using hrights⟩

theorem accepts_checkAuthority (intrinsic : Intrinsic) (first : Option CapabilityInfo) (span : Span) :
    Accepts (checkAuthority intrinsic first span) (fun outcome after ↦ after = checker ∧
      outcome.capability = intrinsic.resultCapability ∧ ∀ requirement,
        intrinsic.requirement = some requirement → ∃ info, first = some info ∧ Covers info requirement)
      checker := by
  refine (accepts_checkRequirement intrinsic first span).bind ?_
  rintro _ after ⟨rfl, hcovers⟩
  cases intrinsic.hostResultAccess with
  | none => exact ⟨rfl, rfl, hcovers⟩
  | some access =>
    exact ensures_bind.mpr (ensures_bind.mpr (accepts_refuse fun _ ↦ ⟨rfl, rfl, hcovers⟩))

theorem accepts_checkOperands (op : BinaryOp) (left right : ExprOutcome) (span : Span) :
    Accepts (checkOperands op left right span)
      (fun outcome after ↦ after = checker ∧ outcome.capability = none) checker :=
  ensures_bind.mpr (accepts_refuse fun _ ↦ ensures_bind.mpr (accepts_refuse fun _ ↦ ⟨rfl, rfl⟩))

/-- What the checker did at the places of a set: it resolved names there, and dropped no symbol. -/
structure Scanned (places : Set Path) (before after : Checker) : Prop where
  symbols : after.symbols = before.symbols
  resolved : Logged places before.resolved after.resolved

end Checker

mutual

/-- An expression that the checker accepts is lowered in agreement with the symbols it saw, whatever the
type that is expected of it. -/
theorem accepts_checkExpression (expr : Expression) (path : Path) (expected : Option PythType)
    (checker : Checker) :
    Accepts (checkExpression path expr expected) (fun outcome after ↦
      Scanned (below id path) checker after ∧ ∀ resolved, after.resolved ⊆ resolved → ∀ type,
        Gives checker.symbols resolved (lowerExpression path expr type) outcome.capability) checker := by
  match expr with
  | .literal value =>
    rw [checkExpression]
    refine (accepts_checkLiteral expected value).next ?_
    rintro outcome _ ⟨rfl, hcapability⟩
    refine ⟨⟨rfl, .refl _⟩, fun resolved _ type ↦ ?_⟩
    rw [lowerExpression, hcapability]
    exact .visited (fun _ h ↦ by cases h) ((keeps_lowerLiteral type value).mono (fun _ h ↦ h)
      fun _ _ _ _ h ↦ by cases h)
  | .name ident =>
    rw [checkExpression]
    refine (accepts_checkName path ident).next ?_
    rintro outcome _ ⟨symbol, hsymbol, hcapability, rfl⟩
    refine ⟨⟨rfl, .cons symbol.binder checker.resolved ⟨path, List.suffix_rfl, rfl⟩⟩, ?_⟩
    intro resolved hresolved type
    rw [lowerExpression, hcapability]
    refine gives_visited ((runs_lookupLocal hsymbol).mono (fun _ h ↦ h) fun node lowerer hnode ↦ ?_)
    exact ⟨hnode.1, fun _ _ ↦ ⟨symbol.binder, hresolved List.mem_cons_self, hnode.2⟩⟩
  | .call callee args span =>
    rw [checkExpression]
    cases hintrinsic : Intrinsic.fromName callee.text with
    | none => trivial
    | some intrinsic =>
      refine (accepts_recordIntrinsic intrinsic).bind ?_
      rintro _ recorded ⟨hsymbols, hresolved⟩
      refine ensures_bind.mpr (accepts_refuse fun hlength ↦ ensures_bind.mpr ?_)
      have hlength : args.length = intrinsic.argTypes.length := by simpa using hlength
      refine (accepts_checkArgs args path 0 intrinsic.argTypes hlength recorded).next ?_
      rintro first after ⟨hscanned, hgives⟩
      refine (accepts_checkAuthority intrinsic first span).next ?_
      rintro outcome _ ⟨rfl, hcapability, hcovers⟩
      rw [hsymbols] at hgives
      refine ⟨⟨hscanned.symbols.trans hsymbols, hresolved ▸ hscanned.resolved.children⟩, ?_⟩
      intro resolved hsubset type
      rw [lowerExpression, hintrinsic, hcapability]
      exact .visited (fun _ h ↦ by cases h) (gives_lowerIntrinsic hlength hcovers (hgives resolved hsubset))
  | .unary op inner span =>
    rw [checkExpression]
    refine (accepts_checkExpression inner (0 :: path) (some .bool) checker).bind ?_
    rintro outcome after ⟨hscanned, hgives⟩
    refine ensures_bind.mpr (accepts_refuse fun _ ↦ ensures_bind.mpr (accepts_refuse fun _ ↦ ?_))
    refine ⟨⟨hscanned.symbols, (hscanned.resolved.last Function.injective_id).children⟩, ?_⟩
    intro resolved hresolved type
    rw [lowerExpression]
    refine .visited (fun _ h ↦ by cases h) ((Runs.seq (hgives resolved hresolved _).keeps
      fun _ ↦ keeps_pushPure (by decide) rfl).mono (fun _ h ↦ h) fun _ _ _ _ h ↦ by cases h)
  | .binary op left right span =>
    rw [checkExpression]
    refine (accepts_checkExpression left (0 :: path) none checker).bind ?_
    rintro leftOutcome middle ⟨hleft, hgivesLeft⟩
    refine (accepts_checkExpression right (1 :: path) none middle).bind ?_
    rintro rightOutcome after ⟨hright, hgivesRight⟩
    refine (accepts_checkOperands op leftOutcome rightOutcome span).next ?_
    rintro outcome _ ⟨rfl, hcapability⟩
    have hlast := hright.resolved.last Function.injective_id
    refine ⟨⟨hright.symbols.trans hleft.symbols, (hleft.resolved.next Function.injective_id hlast).children⟩, ?_⟩
    intro resolved hresolved type
    rw [lowerExpression, hcapability]
    have hgivesLeft := (hgivesLeft resolved (List.Subset.trans hright.resolved.subset hresolved)
      (some (operatorOpcode op).2.2)).keeps
    have hgivesRight := (hgivesRight resolved hresolved (some (operatorOpcode op).2.2)).keeps
    rw [hleft.symbols] at hgivesRight
    refine .visited (fun _ h ↦ by cases h) (Runs.mono (.seq hgivesLeft fun _ ↦
      .seq hgivesRight fun _ ↦ keeps_pushPure (by cases op <;> decide)
        (by cases op <;> rfl)) (fun _ h ↦ h) fun _ _ _ _ h ↦ by cases h)

/-- The arguments from an index on. -/
theorem accepts_checkArgs (args : List Expression) (path : Path) (index : ℕ) (types : List PythType)
    (hlength : args.length = types.length) (checker : Checker) :
    Accepts (checkArgs path index args types) (fun first after ↦
      Scanned (belowFrom id index path) checker after ∧ ∀ resolved, after.resolved ⊆ resolved →
        ∀ position type, Gives checker.symbols resolved (lowerArg path index args position type)
          (if position = index then first else none)) checker := by
  match args, types with
  | [], [] =>
    unfold checkArgs
    refine ⟨⟨rfl, .refl _⟩, fun resolved _ position type ↦ ?_⟩
    rw [lowerArg]
    exact .fail _
  | arg :: args, expected :: types =>
    rw [checkArgs]
    refine (accepts_checkExpression arg (index :: path) (some expected) checker).bind ?_
    rintro outcome middle ⟨hscanned, hgives⟩
    refine ensures_bind.mpr (accepts_refuse fun _ ↦ ensures_bind.mpr ?_)
    refine (accepts_checkArgs args path (index + 1) types (Nat.succ.inj hlength) middle).mono ?_
      fun _ _ h ↦ h
    rintro _ after ⟨hrest, hgivesRest⟩
    refine ⟨⟨hrest.symbols.trans hscanned.symbols,
      hscanned.resolved.next Function.injective_id hrest.resolved⟩, fun resolved hresolved position type ↦ ?_⟩
    rw [lowerArg]
    split_ifs with hposition hcapability
    · exact hgives resolved (List.Subset.trans hrest.resolved.subset hresolved) _
    · exact (hgives resolved (List.Subset.trans hrest.resolved.subset hresolved) _).mono (fun _ h ↦ h)
        fun _ _ _ _ h ↦ by cases h
    · have hgivesRest := (hgivesRest resolved hresolved position type).keeps
      rw [hscanned.symbols] at hgivesRest
      exact hgivesRest.mono (fun _ h ↦ h) fun _ _ _ _ h ↦ by cases h

end

/-! ### Statements -/

/-- The lowering of a statement takes the agreement from one table of symbols to another, and defines
nodes for binders of a set. -/
def Steps (symbols symbols' : List (String × SymbolInfo)) (resolved : List (Path × Binder))
    (binders : Set Binder) (program : Lower α) : Prop :=
  ∀ lowerer, Agrees symbols resolved lowerer →
    Ensures program
      (fun _ after ↦ Agrees symbols' resolved after ∧ Logged binders lowerer.defined after.defined)
      (fun _ after ↦ Agrees symbols resolved after ∧ Logged binders lowerer.defined after.defined) lowerer

theorem declared_injective : Function.Injective Binder.declared := fun _ _ h ↦ Binder.declared.inj h

namespace Steps

variable {binders : Set Binder} {path : Path} {position : ℕ}

theorem of_keeps {program : Lower α} (h : Keeps symbols resolved program) :
    Steps symbols symbols resolved binders program :=
  fun lowerer hagrees ↦ (h lowerer hagrees trivial).mono
    (fun _ _ hafter ↦ ⟨hafter.1, hafter.2.1.defined ▸ .refl _⟩) fun _ _ hafter ↦
      ⟨hafter.1, hafter.2.defined ▸ .refl _⟩

theorem children {program : Lower α}
    (h : Steps symbols symbols' resolved (belowFrom .declared position path) program) :
    Steps symbols symbols' resolved (below .declared path) program :=
  fun lowerer hagrees ↦ (h lowerer hagrees).mono (fun _ _ hafter ↦ ⟨hafter.1, hafter.2.children⟩)
    fun _ _ hafter ↦ ⟨hafter.1, hafter.2.children⟩

theorem read {next : Lowerer → Lower α} (h : ∀ before, Steps symbols symbols' resolved binders (next before)) :
    Steps symbols symbols' resolved binders (Stateful.read >>= next) :=
  fun lowerer hagrees ↦ ensures_bind.mpr (h lowerer lowerer hagrees)

theorem ite {condition : Prop} [Decidable condition] {first second : Lower α}
    (hfirst : Steps symbols symbols' resolved binders first)
    (hsecond : Steps symbols symbols' resolved binders second) :
    Steps symbols symbols' resolved binders (if condition then first else second) :=
  fun lowerer hagrees ↦ ensures_ite.mpr ⟨fun _ ↦ hfirst lowerer hagrees, fun _ ↦ hsecond lowerer hagrees⟩

/-- Behind the lowering of expressions. -/
theorem after {program : Lower β} {next : β → Lower α} (h : Keeps symbols resolved program)
    (hnext : ∀ value, Steps symbols symbols' resolved binders (next value)) :
    Steps symbols symbols' resolved binders (program >>= next) := by
  intro lowerer hagrees
  refine ensures_bind.mpr ((h lowerer hagrees trivial).mono (fun value middle hmiddle ↦ ?_) ?_)
  · rw [← hmiddle.2.1.defined]
    exact hnext value middle hmiddle.1
  · exact fun _ _ hfails ↦ ⟨hfails.1, hfails.2.defined ▸ .refl _⟩

/-- In front of the lowering of expressions. -/
theorem before {program : Lower β} {next : β → Lower α} (h : Steps symbols symbols resolved binders program)
    (hnext : ∀ value, Keeps symbols resolved (next value)) :
    Steps symbols symbols resolved binders (program >>= next) := by
  intro lowerer hagrees
  refine ensures_bind.mpr ((h lowerer hagrees).next fun value middle hmiddle ↦ ?_)
  exact (hnext value middle hmiddle.1 trivial).mono
    (fun _ _ hafter ↦ ⟨hafter.1, hafter.2.1.defined ▸ hmiddle.2⟩)
    fun _ _ hafter ↦ ⟨hafter.1, hafter.2.defined ▸ hmiddle.2⟩

/-- The lowering below one child, and below the later ones; symbols of the child may be dropped. -/
theorem next {middle : List (String × SymbolInfo)} {program : Lower β} {next : β → Lower α}
    (h : Steps symbols middle resolved (below .declared (position :: path)) program)
    (hwidens : Widens symbols middle)
    (hnext : ∀ value, Steps middle middle resolved (belowFrom .declared (position + 1) path) (next value)) :
    Steps symbols symbols resolved (belowFrom .declared position path) (program >>= next) := by
  intro lowerer hagrees
  refine ensures_bind.mpr ((h lowerer hagrees).mono (fun value state hstate ↦ ?_) ?_)
  · exact (hnext value state hstate.1).mono
      (fun _ _ hafter ↦ ⟨hafter.1.narrow hwidens, hstate.2.next declared_injective hafter.2⟩)
      fun _ _ hafter ↦ ⟨hafter.1.narrow hwidens, hstate.2.next declared_injective hafter.2⟩
  · exact fun _ _ hfails ↦ ⟨hfails.1, hfails.2.last declared_injective⟩

end Steps

variable {lowerer : Lowerer} {info : CapabilityInfo}

/-- A node gets a name that stands for it from now on. -/
theorem Agrees.define (h : Agrees symbols resolved lowerer) (name : String) (symbol : SymbolInfo)
    {node : UInt32} (hgrants : ∀ info, symbol.capability = some info → lowerer.Grants info node) :
    Agrees ((name, symbol) :: symbols) resolved
      { lowerer with
        locals := (name, node) :: lowerer.locals
        defined := (symbol.binder, node) :: lowerer.defined } where
  visible other found hfound := by
    rw [List.lookup_cons] at hfound ⊢
    cases hname : other == name with
    | true =>
      rw [hname] at hfound
      obtain rfl := Option.some.inj hfound
      exact ⟨node, rfl, List.mem_cons_self, hgrants⟩
    | false =>
      rw [hname] at hfound
      obtain ⟨node', hnode', hbinder, hgrants'⟩ := h.visible other found hfound
      exact ⟨node', hnode', List.mem_cons_of_mem _ hbinder, hgrants'⟩
  visited visit hvisit ident hident := by
    obtain ⟨binder, hbinder, hdefined⟩ := h.visited visit hvisit ident hident
    exact ⟨binder, hbinder, List.mem_cons_of_mem _ hdefined⟩
  authorised record hrecord := (h.authorised record hrecord).mono List.prefix_rfl List.prefix_rfl
  slots := h.slots

theorem steps_define {path : Path} {program : Lower UInt32} {capability : Option CapabilityInfo}
    (h : Gives symbols resolved program capability) (name : String) (type : PythType) :
    Steps symbols ((name, ⟨type, capability, .declared path⟩) :: symbols) resolved (below .declared path)
      (program >>= defineLocal name (.declared path)) := by
  intro lowerer hagrees
  refine ensures_bind.mpr ((h lowerer hagrees trivial).mono (fun node middle hmiddle ↦ ?_) ?_)
  · obtain ⟨hagrees', hextends, hgrants⟩ := hmiddle
    refine ⟨hagrees'.define name ⟨type, capability, .declared path⟩ hgrants, ?_⟩
    rw [← hextends.defined]
    exact .cons node middle.defined ⟨path, List.suffix_rfl, rfl⟩
  · exact fun _ _ hfails ↦ ⟨hfails.1, hfails.2.defined ▸ .refl _⟩

theorem keeps_leaveBranch (join : Option ℕ) : Keeps symbols resolved (leaveBranch join) := by
  refine .read fun before ↦ .ite (.done _) ?_
  have hrest : ∀ target : ℕ, Keeps symbols resolved (do
      let _ ← pushPure .jump .unit [] (UInt32.ofNat target) 0 0
      Pure.pure (some before.flow, some target)) := fun target ↦
    .seq (keeps_pushPure (by decide) rfl) fun _ ↦ .done _
  cases join with
  | some block => exact .seq (.done block) hrest
  | none => exact .seq keeps_addBlock hrest

theorem keeps_enterBlock (block : ℕ) (flow : Flow) : Keeps symbols resolved (enterBlock block flow) :=
  keeps_modify fun _ ↦ ⟨rfl, rfl, rfl, rfl, rfl⟩

theorem keeps_enterJoin (join : Option ℕ) (thenFlow elseFlow : Option Flow) :
    Keeps symbols resolved (enterJoin join thenFlow elseFlow) := by
  cases join with
  | none => exact .done _
  | some block => exact keeps_modify fun _ ↦ ⟨rfl, rfl, rfl, rfl, rfl⟩

theorem keeps_pushLoop (budget : UInt64) : Keeps symbols resolved (pushLoop budget) :=
  .seq (keeps_modify fun _ ↦ ⟨rfl, rfl, rfl, rfl, rfl⟩) fun _ ↦ .read fun _ ↦
    .seq (keeps_pushPure (by decide) rfl) fun _ ↦ .done _

theorem keeps_pushReturn : Keeps symbols resolved pushReturn :=
  .seq (keeps_pushPure (by decide) rfl) fun _ ↦ .done _

section Checker

open Checker

variable {checker : Checker}

/-- The checker passed over the places of a set, and kept the symbols that were visible. -/
structure Passed (places : Set Path) (before after : Checker) : Prop where
  symbols : Widens before.symbols after.symbols
  resolved : Logged places before.resolved after.resolved

theorem accepts_defineSymbol (ident : Ident) (info : SymbolInfo) :
    Accepts (defineSymbol ident info) (fun _ after ↦ checker.symbols.lookup ident.text = none ∧
      after = { checker with symbols := (ident.text, info) :: checker.symbols }) checker := by
  rw [defineSymbol, Accepts, ensures_bind, ensures_read, ensures_bind]
  refine accepts_refuse fun hnone ↦ ⟨?_, rfl⟩
  simpa [lookupSymbol] using hnone

theorem accepts_finishExpression (outcome : ExprOutcome) :
    Accepts (finishExpression outcome) (fun _ after ↦ after.symbols = checker.symbols ∧
      after.resolved = checker.resolved) checker := by
  unfold finishExpression
  split_ifs <;> exact ⟨rfl, rfl⟩

theorem accepts_checkCondition (condition : Expression) (path : Path) :
    Accepts (checkCondition path condition) (fun _ after ↦ Scanned (below id path) checker after ∧
      ∀ resolved, after.resolved ⊆ resolved → ∀ type,
        Keeps checker.symbols resolved (lowerExpression path condition type)) checker := by
  refine (accepts_checkExpression condition path (some .bool) checker).bind ?_
  rintro outcome after ⟨hscanned, hgives⟩
  refine ensures_bind.mpr (accepts_refuse fun _ ↦ ⟨⟨hscanned.symbols, hscanned.resolved⟩, ?_⟩)
  exact fun resolved hresolved type ↦ (hgives resolved hresolved type).keeps

/-- The symbols of a nested block are dropped behind it. -/
theorem accepts_checkNestedBlock {block : Check Unit} (post : List (Path × Binder) → Prop)
    (h : Accepts block (fun _ after ↦ Widens checker.symbols after.symbols ∧ post after.resolved)
      { checker with pendingHostProducer := none }) :
    Accepts (checkNestedBlock block)
      (fun _ after ↦ after.symbols = checker.symbols ∧ post after.resolved) checker := by
  rw [checkNestedBlock, Accepts, ensures_bind, ensures_read, ensures_bind]
  refine ensures_bind.mpr (h.next ?_)
  rintro _ after ⟨hwidens, hpost⟩
  exact ⟨(List.suffix_iff_eq_drop.mp hwidens.suffix).symm, hpost⟩

end Checker

/-! ### Blocks -/

/-- The statements of a block, from an index on, are lowered in agreement with the symbols in front. -/
def BlockLowers (symbols : List (String × SymbolInfo)) (path : Path) (index : ℕ)
    (statements : List Statement) (found : List (Path × Binder)) : Prop :=
  ∀ resolved, found ⊆ resolved → Steps symbols symbols resolved (belowFrom .declared index path)
    (lowerStatements path index statements)

theorem steps_ifElse {condition : Expression} {thenStatements elseStatements : List Statement} {span : Span}
    {path : Path} (hcondition : Keeps symbols resolved (lowerExpression (0 :: path) condition (some .bool)))
    (hthen : Steps symbols symbols resolved (belowFrom .declared 0 (1 :: path))
      (lowerStatements (1 :: path) 0 thenStatements))
    (helse : Steps symbols symbols resolved (belowFrom .declared 0 (2 :: path))
      (lowerStatements (2 :: path) 0 elseStatements)) :
    Steps symbols symbols resolved (below .declared path)
      (lowerStatement path (.ifElse condition thenStatements elseStatements span)) := by
  rw [lowerStatement]
  suffices h : Steps symbols symbols resolved (belowFrom .declared 1 path) _ from h.children
  refine .after hcondition fun condition ↦ .after (keeps_setFlow _) fun _ ↦ .read fun incoming ↦ ?_
  refine .after keeps_addBlock fun thenBlock ↦ .after keeps_addBlock fun elseBlock ↦ ?_
  refine .after (keeps_pushNode (by decide) rfl) fun _ ↦ .after (keeps_enterBlock thenBlock _) fun _ ↦ ?_
  refine .next hthen.children (.refl symbols) fun _ ↦ .after (keeps_leaveBranch none) fun left ↦ ?_
  refine .after (keeps_enterBlock elseBlock _) fun _ ↦ ?_
  refine .next helse.children (.refl symbols) fun _ ↦ .after (keeps_leaveBranch left.2) fun right ↦ ?_
  exact .of_keeps (keeps_enterJoin right.2 left.1 right.1)

open Checker in
/-- A block in a statement, at a place below the statement. -/
theorem accepts_nested {checker : Checker} {statements : List Statement} {path : Path}
    (h : ∀ checker, Accepts (checkStatements path 0 statements) (fun _ after ↦
      Passed (belowFrom id 0 path) checker after ∧
        BlockLowers checker.symbols path 0 statements after.resolved) checker) :
    Accepts (checkNestedBlock (checkStatements path 0 statements)) (fun _ after ↦
      Scanned (below id path) checker after ∧
        BlockLowers checker.symbols path 0 statements after.resolved) checker := by
  refine (accepts_checkNestedBlock (fun found ↦ Logged (below id path) checker.resolved found ∧
    BlockLowers checker.symbols path 0 statements found) ((h _).next ?_)).next ?_
  · exact fun _ _ hafter ↦ ⟨hafter.1.symbols, hafter.1.resolved.children, hafter.2⟩
  · exact fun _ _ hafter ↦ ⟨⟨hafter.1, hafter.2.1⟩, hafter.2.2⟩

mutual

/-- A statement that the checker accepts is lowered in agreement, from the symbols in front of it to those
behind it. -/
theorem accepts_checkStatement (statement : Statement) (path : Path) (checker : Checker) :
    Accepts (checkStatement path statement) (fun _ after ↦ Passed (below id path) checker after ∧
      ∀ resolved, after.resolved ⊆ resolved → Steps checker.symbols after.symbols resolved
        (below .declared path) (lowerStatement path statement)) checker := by
  match statement with
  | .letLocal name typeName value span =>
    rw [checkStatement]
    refine (accepts_checkExpression value (0 :: path) (some typeName.pythType) checker).bind ?_
    rintro outcome middle ⟨hscanned, hgives⟩
    refine ensures_bind.mpr (accepts_refuse fun _ ↦ ensures_bind.mpr ?_)
    refine (accepts_defineSymbol name _).next ?_
    rintro _ defined ⟨hnone, hdefined⟩
    refine (accepts_finishExpression outcome).next ?_
    rintro _ after ⟨hsymbols, hresolved⟩
    rw [hdefined] at hsymbols hresolved
    rw [hscanned.symbols] at hnone hsymbols
    refine ⟨⟨hsymbols ▸ widens_cons _ hnone, hresolved ▸ ?_⟩, fun resolved hsubset ↦ ?_⟩
    · exact (hscanned.resolved.last Function.injective_id).children
    · rw [hresolved] at hsubset
      rw [lowerStatement, hsymbols]
      refine steps_define ((hgives resolved hsubset _).mono (fun _ h ↦ h) ?_) name.text _
      intro node lowerer hgrants info hinfo
      split_ifs at hinfo
      exact hgrants info hinfo
  | .expr expr =>
    rw [checkStatement]
    refine (accepts_checkExpression expr (0 :: path) none checker).bind ?_
    rintro outcome middle ⟨hscanned, hgives⟩
    refine (accepts_finishExpression outcome).next ?_
    rintro _ after ⟨hsymbols, hresolved⟩
    rw [hscanned.symbols] at hsymbols
    refine ⟨⟨hsymbols ▸ .refl _, hresolved ▸ ?_⟩, fun resolved hsubset ↦ ?_⟩
    · exact (hscanned.resolved.last Function.injective_id).children
    · rw [hresolved] at hsubset
      rw [lowerStatement, hsymbols]
      exact .of_keeps (.seq (hgives resolved hsubset _).keeps fun _ ↦
        .done _)
  | .ret span =>
    rw [checkStatement]
    refine ⟨⟨.refl _, .refl _⟩, fun resolved _ ↦ ?_⟩
    rw [lowerStatement]
    exact .of_keeps keeps_pushReturn
  | .ifElse condition thenStatements elseStatements span =>
    rw [checkStatement]
    refine (accepts_checkCondition condition (0 :: path)).bind ?_
    rintro _ first ⟨hfirst, hcondition⟩
    refine (accepts_nested fun checker ↦ accepts_checkStatements thenStatements (1 :: path) 0 checker).bind ?_
    rintro _ second ⟨hsecond, hthen⟩
    refine (accepts_nested fun checker ↦ accepts_checkStatements elseStatements (2 :: path) 0 checker).bind ?_
    rintro _ third ⟨hthird, helse⟩
    rw [hsecond.symbols, hfirst.symbols] at helse
    rw [hfirst.symbols] at hthen
    have hsymbols : third.symbols = checker.symbols :=
      hthird.symbols.trans (hsecond.symbols.trans hfirst.symbols)
    have hlater := hsecond.resolved.next Function.injective_id (hthird.resolved.last Function.injective_id)
    refine ⟨⟨hsymbols ▸ .refl _, (hfirst.resolved.next Function.injective_id hlater).children⟩, ?_⟩
    intro resolved (hsubset : third.resolved ⊆ resolved)
    have hsecondSubset := List.Subset.trans hthird.resolved.subset hsubset
    have hfirstSubset := List.Subset.trans hsecond.resolved.subset hsecondSubset
    show Steps checker.symbols third.symbols resolved (below .declared path) _
    rw [hsymbols]
    exact steps_ifElse (hcondition resolved hfirstSubset _) (hthen resolved hsecondSubset)
      (helse resolved hsubset)
  | .whileLoop budget condition statements span =>
    rw [checkStatement]
    refine ensures_bind.mpr (accepts_refuse fun _ ↦ ensures_bind.mpr ?_)
    refine (accepts_checkCondition condition (0 :: path)).next ?_
    rintro _ first ⟨hfirst, -⟩
    refine (accepts_nested fun checker ↦ accepts_checkStatements statements (1 :: path) 0 checker).bind ?_
    rintro _ second ⟨hsecond, -⟩
    have hsymbols : second.symbols = checker.symbols := hsecond.symbols.trans hfirst.symbols
    refine ⟨⟨hsymbols ▸ .refl _, ?_⟩, fun resolved _ ↦ ?_⟩
    · exact (hfirst.resolved.next Function.injective_id
        (hsecond.resolved.last Function.injective_id)).children
    · show Steps checker.symbols second.symbols resolved (below .declared path) _
      rw [lowerStatement, hsymbols]
      exact .of_keeps (keeps_pushLoop budget)

/-- The statements of a block from an index on. When the lowering stops early, at a terminated block, what
the checker defined behind it is not visible. -/
theorem accepts_checkStatements (statements : List Statement) (path : Path) (index : ℕ)
    (checker : Checker) :
    Accepts (checkStatements path index statements) (fun _ after ↦
      Passed (belowFrom id index path) checker after ∧
        BlockLowers checker.symbols path index statements after.resolved) checker := by
  match statements with
  | [] =>
    rw [checkStatements]
    refine ⟨⟨.refl _, .refl _⟩, fun resolved _ ↦ ?_⟩
    rw [lowerStatements]
    exact .of_keeps (.done _)
  | statement :: statements =>
    rw [checkStatements]
    refine (accepts_checkStatement statement (index :: path) checker).bind ?_
    rintro _ middle ⟨hpassed, hsteps⟩
    refine (accepts_checkStatements statements path (index + 1) middle).next ?_
    rintro _ after ⟨hrest, hblock⟩
    refine ⟨⟨hpassed.symbols.trans hrest.symbols,
      hpassed.resolved.next Function.injective_id hrest.resolved⟩, fun resolved hsubset ↦ ?_⟩
    rw [lowerStatements]
    refine .read fun before ↦ .ite (.of_keeps (.done _)) ?_
    exact .next (hsteps resolved (List.Subset.trans hrest.resolved.subset hsubset)) hpassed.symbols
      fun _ ↦ hblock resolved hsubset

end

/-! ### Imports -/

theorem lookup_lt {table : List (String × ℕ)} {name : String} {value bound : ℕ}
    (htable : ∀ entry ∈ table, entry.2 < bound) (h : table.lookup name = some value) : value < bound := by
  obtain ⟨front, back, rfl, -⟩ := List.lookup_eq_some_iff.mp h
  exact htable (name, value) (by simp)

theorem resourceKind_lt {resource : String} {kind : ℕ} (h : resourceKind resource = some kind) :
    kind < 2 ^ 16 :=
  lookup_lt (by decide) h

theorem rightsBits_lt {rights : String} {bits : ℕ} (h : rightsBits rights = some bits) : bits < 2 ^ 64 := by
  have hfold : ∀ (words : List (List Char)) (start : ℕ), start < 2 ^ 64 →
      words.foldlM (fun bits right ↦ (rightBit (.ofList right)).map (bits ||| ·)) start = some bits →
        bits < 2 ^ 64 := by
    intro words
    induction words with
    | nil =>
      intro start hstart hbits
      exact Option.some.inj hbits ▸ hstart
    | cons word words ih =>
      intro start hstart hbits
      rw [List.foldlM_cons] at hbits
      obtain ⟨next, hnext, hrest⟩ := Option.bind_eq_some_iff.mp hbits
      obtain ⟨bit, hbit, rfl⟩ := Option.map_eq_some_iff.mp hnext
      exact ih _ (Nat.or_lt_two_pow hstart (lookup_lt (by decide) hbit)) hrest
  exact hfold _ 0 (by decide) h

theorem importInfo_lt {record : ImportDecl} (h : importInfo record = .ok info) :
    info.resourceKind < 2 ^ 16 ∧ info.rights < 2 ^ 64 := by
  unfold importInfo at h
  split at h
  · cases h
  · cases h
  · next kind bits hkind hbits =>
    obtain rfl := Except.ok.inj h
    exact ⟨resourceKind_lt hkind, rightsBits_lt hbits⟩

/-- The import of the next slot is declared. -/
theorem Agrees.declare (h : Agrees symbols resolved lowerer) (info : CapabilityInfo)
    (name : UInt32 × UInt16) (hslot : lowerer.imports.length < 2 ^ 16) :
    Agrees symbols resolved
      { lowerer with imports := lowerer.imports ++ [importOf lowerer.imports.length info name] } := by
  refine h.extend List.prefix_rfl (List.prefix_append ..) rfl rfl rfl (fun _ hrecord ↦ Or.inl hrecord) ?_
  intro slot found (hfound : (lowerer.imports ++ [_])[slot]? = some found)
  rw [List.getElem?_append] at hfound
  split_ifs at hfound with hlt
  · exact h.slots slot found hfound
  · obtain ⟨hzero, rfl⟩ := List.getElem?_eq_some_iff.mp hfound
    rw [List.length_singleton] at hzero
    obtain rfl : slot = lowerer.imports.length := by omega
    exact ⟨by simpa [importOf] using hslot, by simp [importOf]⟩

/-- A parameter for an import grants what the import asks for. -/
theorem runs_pushParameter {slot : ℕ} {name : UInt32 × UInt16} (hslot : slot < 2 ^ 16)
    (hkind : info.resourceKind < 2 ^ 16) (hrights : info.rights < 2 ^ 64) :
    Runs symbols resolved
      (fun lowerer ↦ lowerer.currentBlock = 0 ∧ lowerer.imports[slot]? = some (importOf slot info name))
      (pushNode .blockParam .capability [] (UInt32.ofNat slot) 0 0)
      fun node lowerer ↦ lowerer.currentBlock = 0 ∧ lowerer.Grants info node := by
  have hpush : Runs symbols resolved (fun lowerer ↦ lowerer.currentBlock = 0)
      (pushNode .blockParam .capability [] (UInt32.ofNat slot) 0 0) _ :=
    runs_pushNode fun lowerer hblock ↦ ⟨fun _ ↦ Or.inr ⟨rfl, by rw [hblock]; rfl⟩, fun h ↦ absurd rfl h⟩
  intro lowerer hagrees hpre
  obtain ⟨hagrees', hextends, hnode⟩ := hpush lowerer hagrees hpre.1
  refine ⟨hagrees', hextends, hpre.1, fun hlength ↦ ?_⟩
  obtain ⟨block, hrecord⟩ := hnode hlength
  refine ⟨_, hrecord, rfl, fun _ ↦ ⟨importOf slot info name, ?_, ?_, ?_⟩, fun h ↦ (by cases h)⟩
  · show lowerer.imports[(UInt32.ofNat slot).toNat]? = _
    rw [UInt32.toNat_ofNat', Nat.mod_eq_of_lt (by omega)]
    exact hpre.2
  · rw [importOf, UInt16.toNat_ofNat', Nat.mod_eq_of_lt hkind]
  · rw [importOf, UInt64.toNat_ofNat', Nat.mod_eq_of_lt hrights]

theorem ensures_lowerImport {record : ImportDecl} (hagrees : Agrees symbols resolved lowerer)
    (hblock : lowerer.currentBlock = 0) (hinfo : importInfo record = .ok info) :
    Ensures (lowerImport lowerer.imports.length record) (fun _ after ↦
      Agrees ((record.name.text, ⟨.capability, some info, .imported lowerer.imports.length⟩) :: symbols)
        resolved after ∧ after.currentBlock = 0 ∧ after.imports.length = lowerer.imports.length + 1 ∧
          ∃ node, after.defined = (.imported lowerer.imports.length, node) :: lowerer.defined)
      (fun _ after ↦ Agrees symbols resolved after ∧ after.defined = lowerer.defined) lowerer := by
  rw [lowerImport, hinfo]
  refine ensures_ite.mpr ⟨fun hslot ↦ ?_, fun _ ↦ ⟨hagrees, rfl⟩⟩
  refine ensures_bind.mpr (ensures_handle.mpr ((ensures_internString _ lowerer).mono ?_ ?_))
  · rintro name _ ⟨table, rfl⟩
    obtain ⟨hkind, hrights⟩ := importInfo_lt hinfo
    have hdeclared := (hagrees.intern table).declare info name hslot
    refine ensures_bind.mpr (ensures_modify.mpr (ensures_bind.mpr ?_))
    refine (runs_pushParameter hslot hkind hrights _ hdeclared
      ⟨hblock, List.getElem?_concat_length⟩).mono ?_ fun _ _ hfails ↦ ⟨hfails.1, hfails.2.defined⟩
    rintro node pushed ⟨hpushed, hextends, hblock', hgrants⟩
    refine ⟨hpushed.define _ ⟨.capability, some info, .imported _⟩ ?_, hblock', ?_, node, ?_⟩
    · rintro _ ⟨⟩
      exact hgrants
    · show pushed.imports.length = _
      rw [hextends.imports, List.length_append, List.length_singleton]
    · show (_, node) :: pushed.defined = _
      rw [hextends.defined]
  · rintro _ _ rfl
    exact ⟨hagrees, rfl⟩

/-- The imports from a slot on. -/
def importedFrom (slot : ℕ) : Set Binder := {binder | ∃ later, slot ≤ later ∧ binder = .imported later}

theorem logged_imported {slot : ℕ} {first third : List (Binder × UInt32)} {node : UInt32}
    (h : Logged (importedFrom (slot + 1)) ((.imported slot, node) :: first) third) :
    Logged (importedFrom slot) first third := by
  have hfirst : Logged {Binder.imported slot} first ((.imported slot, node) :: first) :=
    .cons node first (Set.mem_singleton _)
  refine (hfirst.trans h (Set.disjoint_singleton_left.mpr ?_)).mono (Set.union_subset ?_ ?_)
  · rintro ⟨later, hlater, heq⟩
    have := Binder.imported.inj heq
    omega
  · exact Set.singleton_subset_iff.mpr ⟨slot, le_rfl, rfl⟩
  · rintro binder ⟨later, hlater, rfl⟩
    exact ⟨later, by omega, rfl⟩

/-- The imports from a slot on are symbols for the checker and parameters of the entry block for the
lowerer. -/
theorem accepts_checkImports (records : List ImportDecl) (slot : ℕ) (checker : Checker) :
    Accepts (checkImports slot records) (fun _ after ↦ after.resolved = checker.resolved ∧
      ∀ resolved lowerer, Agrees checker.symbols resolved lowerer → lowerer.currentBlock = 0 →
        lowerer.imports.length = slot → Ensures (lowerImports slot records)
          (fun _ final ↦ Agrees after.symbols resolved final ∧
            Logged (importedFrom slot) lowerer.defined final.defined)
          (fun _ final ↦ Agrees [] resolved final ∧
            Logged (importedFrom slot) lowerer.defined final.defined) lowerer) checker := by
  induction records generalizing slot checker with
  | nil => exact ⟨rfl, fun resolved lowerer hagrees _ _ ↦ ⟨hagrees, .refl _⟩⟩
  | cons record records ih =>
    rw [checkImports]
    refine ensures_bind.mpr (ensures_ofExcept.mpr ⟨fun info hinfo ↦ ?_, fun _ _ ↦ trivial⟩)
    refine (accepts_defineSymbol record.name _).bind ?_
    rintro _ _ ⟨-, rfl⟩
    refine (ih (slot + 1) _).next ?_
    rintro _ after ⟨hresolved, hlower⟩
    refine ⟨hresolved, fun resolved lowerer hagrees hblock hlength ↦ ?_⟩
    subst hlength
    refine ensures_bind.mpr ((ensures_lowerImport hagrees hblock hinfo).mono ?_ ?_)
    · rintro _ middle ⟨hmiddle, hblock', hlength', node, hdefined⟩
      have hrest := hlower resolved middle hmiddle hblock' hlength'
      rw [hdefined] at hrest
      exact hrest.mono (fun _ _ h ↦ ⟨h.1, logged_imported h.2⟩) fun _ _ h ↦ ⟨h.1, logged_imported h.2⟩
    · intro _ middle hfails
      exact ⟨hfails.1.narrow (widens_nil _), hfails.2 ▸ .refl _⟩

/-! ### Programs -/

theorem agrees_lowerer (program : Program) (resolved : List (Path × Binder)) :
    Agrees [] resolved program.lowerer where
  visible _ _ h := by cases h
  visited _ h := (List.not_mem_nil h).elim
  authorised _ h := (List.not_mem_nil h).elim
  slots _ _ h := by cases h

theorem keeps_startEntry : Keeps symbols resolved startEntry :=
  .seq keeps_addBlock fun _ ↦
    .seq (keeps_pushNode (by decide) rfl) fun _ ↦ keeps_setFlow _

theorem ensures_startEntry (lowerer : Lowerer) :
    Ensures startEntry (fun _ after ↦ after.currentBlock = lowerer.currentBlock) (fun _ _ ↦ True) lowerer :=
  rfl

theorem steps_lowerMain {statements : List Statement} {found : List (Path × Binder)}
    (h : BlockLowers symbols [] 0 statements found) (hfound : found ⊆ resolved) :
    Steps symbols symbols resolved (belowFrom .declared 0 []) (lowerMain statements) := by
  unfold lowerMain
  cases firstLoopBudget statements with
  | some budget => exact .of_keeps (keeps_pushLoop budget)
  | none =>
    exact .before (h resolved hfound) fun _ ↦ .read fun _ ↦ .ite (.done _) keeps_pushReturn

theorem ensures_finishBlocks (blocks : List BlockBuilder) (id : ℕ) (lowerer : Lowerer) :
    Ensures (finishBlocks id blocks) (fun _ after ↦ after = lowerer) (fun _ after ↦ after = lowerer)
      lowerer := by
  induction blocks generalizing id with
  | nil => exact rfl
  | cons block blocks ih =>
    rw [finishBlocks]
    cases block.firstNode with
    | none => exact rfl
    | some firstNode => exact ensures_bind.mpr ((ih (id + 1)).mono (fun _ _ h ↦ h) fun _ _ h ↦ h)

/-- The graph has the nodes and the imports of the lowerer. -/
theorem ensures_finish (lowerer : Lowerer) :
    Ensures finish
      (fun graph after ↦ after = lowerer ∧ graph.nodes = lowerer.nodes ∧ graph.imports = lowerer.imports)
      (fun _ after ↦ after = lowerer) lowerer :=
  ensures_bind.mpr (ensures_bind.mpr ((ensures_finishBlocks lowerer.blocks 0 lowerer).mono
    (fun _ _ h ↦ ⟨h, rfl, rfl⟩) fun _ _ h ↦ h))

/-- What the lowerer leaves behind a program, also behind one that it cannot lower. -/
def Lowered (resolved : List (Path × Binder)) (lowerer : Lowerer) : Prop :=
  Agrees [] resolved lowerer ∧ Logged Set.univ [] lowerer.defined

/-- Imports and `let` statements are different binders. -/
theorem lowered_of_logged {lowerer' : Lowerer}
    (himports : Logged (importedFrom 0) [] lowerer.defined)
    (hagrees : Agrees symbols resolved lowerer')
    (hmain : Logged (belowFrom .declared 0 []) lowerer.defined lowerer'.defined) :
    Lowered resolved lowerer' := by
  refine ⟨hagrees.narrow (widens_nil _), (himports.trans hmain ?_).mono (Set.subset_univ _)⟩
  refine Set.disjoint_left.mpr ?_
  rintro _ ⟨later, -, rfl⟩ ⟨place, -, heq⟩
  cases heq

/-- A program that the checker accepts is lowered in agreement with what the checker resolved. -/
theorem accepts_checkProgram (program : Program) :
    Accepts (checkProgram program) (fun _ after ↦ Logged Set.univ [] after.resolved ∧
      Ensures (lowerProgram program) (fun graph lowerer ↦ Lowered after.resolved lowerer ∧
          graph.nodes = lowerer.nodes ∧ graph.imports = lowerer.imports)
        (fun _ lowerer ↦ Lowered after.resolved lowerer) program.lowerer) .new := by
  refine (accepts_checkImports program.imports 0 .new).bind ?_
  rintro _ imported ⟨hresolved, himports⟩
  refine (accepts_checkStatements program.main.statements [] 0 imported).next ?_
  rintro _ after ⟨hpassed, hblock⟩
  have hlog := hpassed.resolved
  rw [hresolved] at hlog
  refine ⟨hlog.mono (Set.subset_univ _), ensures_bind.mpr ?_⟩
  refine ((keeps_startEntry program.lowerer (agrees_lowerer program after.resolved) trivial).and
    (ensures_startEntry program.lowerer)).mono ?_ ?_
  · rintro _ entry ⟨⟨hagrees, hextends, -⟩, hentry⟩
    have hempty : entry.defined = [] := hextends.defined
    refine ensures_bind.mpr ((himports after.resolved entry hagrees hentry
      (congrArg List.length hextends.imports)).mono ?_ ?_)
    · rintro _ declared ⟨hdeclared, hlogged⟩
      rw [hempty] at hlogged
      refine ensures_bind.mpr ((steps_lowerMain hblock (List.Subset.refl _) declared hdeclared).mono ?_ ?_)
      · intro _ final hfinal
        have hlowered := lowered_of_logged hlogged hfinal.1 hfinal.2
        refine (ensures_finish final).mono ?_ ?_
        · rintro graph _ ⟨rfl, hgraph⟩
          exact ⟨hlowered, hgraph⟩
        · rintro _ _ rfl
          exact hlowered
      · exact fun _ final hfinal ↦ lowered_of_logged hlogged hfinal.1 hfinal.2
    · rintro _ declared ⟨hdeclared, hlogged⟩
      exact ⟨hdeclared, hempty ▸ hlogged.mono (Set.subset_univ _)⟩
  · rintro _ entry ⟨⟨hagrees, hextends⟩, -⟩
    exact ⟨hagrees, hextends.defined ▸ .refl _⟩

end Pythos.Pythc
