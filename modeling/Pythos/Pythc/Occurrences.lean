import Pythos.Pythc.Scoping

/-!
# Which names are lowered

The lowerer does not look at every name that the checker resolves. A loop becomes a jump, without its
condition and its body; a loop among the statements of `main` replaces all of them; statements behind one
that terminates the block are skipped; and the third argument of `object.revise` is ignored. `namesIn` lists
the names of a program by their places, all of them or those that are left.

`Lowers` is the rule for the programs of the lowerer that return: no node is lost, and a block grows at its
end, so that its last node tells whether it is terminated. From it follows that the names of a program that
is lowered are resolved as the checker resolved them exactly when they are left (`resolvedAlike_iff`).
-/

namespace Pythos.Pythc

open Foundation Tig Stateful Lowerer

/-! ### Places of names -/

/-- The arguments that the call of an intrinsic lowers. -/
def Intrinsic.loweredArgs : Intrinsic → List ℕ
  | .objectRevise => [0, 1, 3]
  | intrinsic => List.range intrinsic.argTypes.length

def lowersArg (callee : String) (index : ℕ) : Bool :=
  (Intrinsic.fromName callee).any fun intrinsic ↦ index ∈ intrinsic.loweredArgs

mutual

/-- The names of an expression, with their places: all, or those that are lowered. -/
def Expression.namesIn (lowered : Bool) (path : Path) : Expression → List (Path × Ident)
  | .literal _ => []
  | .name ident => [(path, ident)]
  | .call callee args _ => argsNamesIn lowered callee.text path 0 args
  | .unary _ expr _ => expr.namesIn lowered (0 :: path)
  | .binary _ left right _ => left.namesIn lowered (0 :: path) ++ right.namesIn lowered (1 :: path)

/-- The names of the arguments from an index on. -/
def argsNamesIn (lowered : Bool) (callee : String) (path : Path) (index : ℕ) :
    List Expression → List (Path × Ident)
  | [] => []
  | arg :: args =>
    (if lowered && !lowersArg callee index then [] else arg.namesIn lowered (index :: path)) ++
      argsNamesIn lowered callee path (index + 1) args

end

mutual

/-- Nothing behind the statement is lowered into its block. -/
def Statement.terminates : Statement → Bool
  | .ret _ => true
  | .whileLoop _ _ _ _ => true
  | .ifElse _ thenStatements elseStatements _ =>
    blockTerminates thenStatements && blockTerminates elseStatements
  | .letLocal _ _ _ _ => false
  | .expr _ => false

def blockTerminates : List Statement → Bool
  | [] => false
  | statement :: statements => statement.terminates || blockTerminates statements

end

mutual

def Statement.namesIn (lowered : Bool) (path : Path) : Statement → List (Path × Ident)
  | .letLocal _ _ value _ => value.namesIn lowered (0 :: path)
  | .expr expr => expr.namesIn lowered (0 :: path)
  | .ret _ => []
  | .ifElse condition thenStatements elseStatements _ =>
    condition.namesIn lowered (0 :: path) ++ blockNamesIn lowered (1 :: path) 0 thenStatements ++
      blockNamesIn lowered (2 :: path) 0 elseStatements
  | .whileLoop _ condition statements _ =>
    if lowered then []
    else condition.namesIn lowered (0 :: path) ++ blockNamesIn lowered (1 :: path) 0 statements

/-- The names of the statements from an index on. -/
def blockNamesIn (lowered : Bool) (path : Path) (index : ℕ) : List Statement → List (Path × Ident)
  | [] => []
  | statement :: statements =>
    statement.namesIn lowered (index :: path) ++
      if lowered && statement.terminates then [] else blockNamesIn lowered path (index + 1) statements

end

/-- Every name of a program. -/
def Program.names (program : Program) : List (Path × Ident) :=
  blockNamesIn false [] 0 program.main.statements

namespace Lowerer

/-- A name was lowered at a place. -/
def Named (lowerer : Lowerer) (place : Path × Ident) : Prop :=
  ∃ visit ∈ lowerer.visits, visit.path = place.1 ∧ visit.expr = .name place.2

/-- A block without nodes. -/
def Fresh (lowerer : Lowerer) (block : ℕ) : Prop := lowerer.blocks[block]? = some ⟨none, 0⟩

/-- The current block ends with the last node, which terminates it or does not. -/
def EndsWith (lowerer : Lowerer) (terminator : Bool) : Prop :=
  ∃ first count node, lowerer.blocks[lowerer.currentBlock]? = some ⟨some first, count⟩ ∧
    first + count = UInt32.ofNat lowerer.nodes.length ∧ lowerer.nodes.getLast? = some node ∧
      node.opcode.signature.terminator = terminator

/-- The current block is terminated, or can be continued. -/
def Ended (lowerer : Lowerer) (stops : Bool) : Prop :=
  lowerer.EndsWith stops ∨ stops = false ∧ lowerer.Fresh lowerer.currentBlock

theorem Ended.lt_length {lowerer : Lowerer} {stops : Bool} (h : lowerer.Ended stops) :
    lowerer.currentBlock < lowerer.blocks.length := by
  obtain ⟨_, _, _, hblock, -⟩ | ⟨-, hblock⟩ := h
  · exact (List.getElem?_eq_some_iff.mp hblock).1
  · exact (List.getElem?_eq_some_iff.mp hblock).1

/-- With no more nodes than indices, the lowerer sees whether the block is terminated. -/
theorem Ended.currentBlockIsTerminated {lowerer : Lowerer} {stops : Bool} (h : lowerer.Ended stops)
    (hlength : lowerer.nodes.length ≤ 2 ^ 32) : lowerer.currentBlockIsTerminated = stops := by
  obtain ⟨first, count, node, hblock, hcount, hlast, hstops⟩ | ⟨rfl, hblock⟩ := h
  · have hpos : 0 < lowerer.nodes.length := by
      refine List.length_pos_of_ne_nil fun hnil ↦ ?_
      rw [hnil] at hlast
      cases hlast
    have hindex : (first + count - 1).toNat = lowerer.nodes.length - 1 := by
      obtain ⟨length, hsucc⟩ := Nat.exists_eq_add_of_lt hpos
      rw [Nat.zero_add] at hsucc
      rw [hcount, hsucc, UInt32.ofNat_add]
      show (UInt32.ofNat length + 1 - 1).toNat = _
      rw [UInt32.add_sub_cancel, UInt32.toNat_ofNat', Nat.mod_eq_of_lt (by omega), Nat.add_sub_cancel]
    rw [Lowerer.currentBlockIsTerminated, hblock]
    simp only
    rw [hindex, ← List.getLast?_eq_getElem?, hlast, Option.any_some, hstops]
  · rw [Lowerer.currentBlockIsTerminated, hblock]

/-- What a program of the lowerer does to the blocks in front of it, and which names it lowers: it works on
the current block and on new ones. -/
structure Moves (names : List (Path × Ident)) (before after : Lowerer) : Prop where
  blocks : before.blocks.length ≤ after.blocks.length
  current : after.currentBlock = before.currentBlock ∨ before.blocks.length ≤ after.currentBlock
  others : ∀ block < before.blocks.length, block ≠ before.currentBlock →
    after.blocks[block]? = before.blocks[block]?
  named : ∀ place, after.Named place ↔ before.Named place ∨ place ∈ names

namespace Moves

variable {names names' : List (Path × Ident)} {first second third : Lowerer}

theorem refl (lowerer : Lowerer) : Moves [] lowerer lowerer :=
  ⟨le_rfl, .inl rfl, fun _ _ _ ↦ rfl, fun _ ↦ by simp⟩

theorem trans (h : Moves names first second) (h' : Moves names' second third) :
    Moves (names ++ names') first third where
  blocks := h.blocks.trans h'.blocks
  current := by
    have := h.blocks
    rcases h.current with heq | hnew <;> rcases h'.current with heq' | hnew'
    · exact .inl (heq'.trans heq)
    · exact .inr (this.trans hnew')
    · exact .inr (heq' ▸ hnew)
    · exact .inr (this.trans hnew')
  others block hblock hne := by
    have hother : block ≠ second.currentBlock := by
      rcases h.current with heq | hnew
      · rwa [heq]
      · omega
    rw [h'.others block (hblock.trans_le h.blocks) hother, h.others block hblock hne]
  named place := by rw [h'.named, h.named, List.mem_append, or_assoc]

theorem congr (h : Moves names first second) (hsame : ∀ place, place ∈ names ↔ place ∈ names') :
    Moves names' first second :=
  { h with named := fun place ↦ by rw [h.named, hsame] }

/-- A change of the current block to a new one. -/
theorem enter (h : Moves names first second) {block : ℕ} (hblock : first.blocks.length ≤ block)
    (flow : Flow) : Moves names first { second with currentBlock := block, flow } :=
  { h with current := .inr hblock }

theorem fresh (h : Moves names first second) {block : ℕ} (hfresh : first.Fresh block)
    (hne : block ≠ first.currentBlock) : second.Fresh block := by
  rw [Fresh, h.others block (List.getElem?_eq_some_iff.mp hfresh).1 hne]
  exact hfresh

end Moves

/-- A node is pushed into the current block. -/
theorem moves_pushed {lowerer : Lowerer} (node : GraphNode) (index : UInt32) :
    Moves [] lowerer { lowerer with
      blocks := lowerer.blocks.modify lowerer.currentBlock (BlockBuilder.push · index)
      nodes := lowerer.nodes ++ [node] } where
  blocks := (List.length_modify ..).ge
  current := .inl rfl
  others block _ hne := List.getElem?_modify_ne _ _ (Ne.symm hne)
  named place := by simp [Named]

/-- The pushed node is the last one of the current block. -/
theorem endsWith_pushed {lowerer : Lowerer} {node : GraphNode} {stops : Bool} (h : lowerer.Ended stops) :
    EndsWith { lowerer with
      blocks := lowerer.blocks.modify lowerer.currentBlock
        (BlockBuilder.push · (UInt32.ofNat lowerer.nodes.length))
      nodes := lowerer.nodes ++ [node] } node.opcode.signature.terminator := by
  have hnext : UInt32.ofNat (lowerer.nodes ++ [node]).length = UInt32.ofNat lowerer.nodes.length + 1 := by
    rw [List.length_append, List.length_singleton, UInt32.ofNat_add]
    rfl
  obtain ⟨first, count, _, hblock, hcount, -, -⟩ | ⟨-, hblock⟩ := h
  · refine ⟨first, count + 1, node, ?_, ?_, by simp, rfl⟩
    · simp only [List.getElem?_modify_eq, hblock]
      rfl
    · rw [hnext, ← hcount, UInt32.add_assoc]
  · refine ⟨UInt32.ofNat lowerer.nodes.length, 0 + 1, node, ?_, ?_, by simp, rfl⟩
    · simp only [List.getElem?_modify_eq, show lowerer.blocks[lowerer.currentBlock]? = _ from hblock]
      rfl
    · rw [hnext]
      rfl

end Lowerer

/-! ### Programs that return -/

variable {α β : Type}

/-- A program of the lowerer that returns adds nodes. If there are no more than indices in the end, it takes
one condition to another. -/
def Lowers (pre : Lowerer → Prop) (program : Lower α) (post : α → Lowerer → Lowerer → Prop) : Prop :=
  ∀ before, Ensures program (fun value after ↦ before.nodes.length ≤ after.nodes.length ∧
    (after.nodes.length ≤ 2 ^ 32 → pre before → post value before after)) (fun _ _ ↦ True) before

theorem Lowers.bind {pre : Lowerer → Prop} {program : Lower β} {middle : β → Lowerer → Lowerer → Prop}
    {next : β → Lower α} {pre' : β → Lowerer → Prop} {post' : β → α → Lowerer → Lowerer → Prop}
    {post : α → Lowerer → Lowerer → Prop} (h : Lowers pre program middle)
    (hnext : ∀ value, Lowers (pre' value) (next value) (post' value))
    (hpost : ∀ value before between, pre before → middle value before between →
      pre' value between ∧ ∀ result after, post' value result between after → post result before after) :
    Lowers pre (program >>= next) post := by
  intro before
  refine ensures_bind.mpr ((h before).next fun value between hbetween ↦ ?_)
  refine (hnext value between).next fun result after hafter ↦ ⟨hbetween.1.trans hafter.1, ?_⟩
  intro hlength hpre
  have hmiddle := hbetween.2 (hafter.1.trans hlength) hpre
  obtain ⟨hpre', hpost'⟩ := hpost value before between hpre hmiddle
  exact hpost' result after (hafter.2 hlength hpre')

/-- A program lowers names into the current block, which can be continued behind them. -/
def Adds (names : List (Path × Ident)) (program : Lower α) : Prop :=
  Lowers (fun _ ↦ True) program fun _ before after ↦
    Moves names before after ∧ (before.Ended false → after.Ended false)

namespace Adds

variable {names names' : List (Path × Ident)}

theorem pure (value : α) : Adds [] (Pure.pure value) :=
  fun before ↦ ⟨le_rfl, fun _ _ ↦ ⟨.refl before, fun h ↦ h⟩⟩

theorem fail (error : Fault Diagnostic) : Adds names (Stateful.fail error : Lower α) :=
  fun _ ↦ trivial

theorem congr {program : Lower α} (h : Adds names program)
    (hsame : ∀ place, place ∈ names ↔ place ∈ names') : Adds names' program :=
  fun before ↦ (h before).next fun _ _ hafter ↦
    ⟨hafter.1, fun hlength hpre ↦ (hafter.2 hlength hpre).imp_left (·.congr hsame)⟩

theorem bind {program : Lower β} {next : β → Lower α} (h : Adds names program)
    (hnext : ∀ value, Adds names' (next value)) : Adds (names ++ names') (program >>= next) :=
  Lowers.bind h hnext fun _ _ _ _ hmiddle ↦ ⟨trivial, fun _ _ hafter ↦
    ⟨hmiddle.1.trans hafter.1, fun hopen ↦ hafter.2 (hmiddle.2 hopen)⟩⟩

/-- Names are lowered in the first step only. -/
theorem before {program : Lower β} {next : β → Lower α} (h : Adds names program)
    (hnext : ∀ value, Adds [] (next value)) : Adds names (program >>= next) :=
  (h.bind hnext).congr fun _ ↦ by rw [List.append_nil]

/-- Names are lowered in the later steps only. -/
theorem after {program : Lower β} {next : β → Lower α} (h : Adds [] program)
    (hnext : ∀ value, Adds names (next value)) : Adds names (program >>= next) :=
  h.bind hnext

theorem read {next : Lowerer → Lower α} (h : ∀ lowerer, Adds names (next lowerer)) :
    Adds names (Stateful.read >>= next) :=
  fun before ↦ ensures_bind.mpr (h before before)

theorem ite {condition : Prop} [Decidable condition] {first second : Lower α} (h : Adds names first)
    (h' : Adds names second) : Adds names (if condition then first else second) :=
  fun before ↦ ensures_ite.mpr ⟨fun _ ↦ h before, fun _ ↦ h' before⟩

/-- A change of what nodes, blocks and visits do not depend on. -/
theorem modify {change : Lowerer → Lowerer} (h : ∀ lowerer, (change lowerer).nodes = lowerer.nodes ∧
    (change lowerer).blocks = lowerer.blocks ∧ (change lowerer).currentBlock = lowerer.currentBlock ∧
      (change lowerer).visits = lowerer.visits) : Adds [] (Stateful.modify change) := by
  intro before
  obtain ⟨hnodes, hblocks, hcurrent, hvisits⟩ := h before
  refine ⟨hnodes ▸ le_rfl, fun _ _ ↦ ⟨⟨hblocks ▸ le_rfl, .inl hcurrent, fun _ _ _ ↦ hblocks ▸ rfl, ?_⟩, ?_⟩⟩
  · simp [Named, hvisits]
  · simp only [Ended, EndsWith, Fresh, hnodes, hblocks, hcurrent]
    exact id

theorem setFlow (change : Flow → Flow) : Adds [] (setFlow change) :=
  modify fun _ ↦ ⟨rfl, rfl, rfl, rfl⟩

end Adds

/-! ### Expressions -/

section Nodes

variable {opcode : Opcode} {resultType : PythType} {inputs : List UInt32} {auxiliary0 auxiliary1 : UInt32}
  {immediate : UInt64}

/-- A node is pushed into the current block, and ends it. -/
theorem lowers_pushNode :
    Lowers (fun _ ↦ True) (pushNode opcode resultType inputs auxiliary0 auxiliary1 immediate)
      fun _ before after ↦ Moves [] before after ∧ ∀ stops, before.Ended stops →
        after.EndsWith opcode.signature.terminator :=
  fun _ ↦ ⟨by simp, fun _ _ ↦ ⟨moves_pushed _ _, fun _ hended ↦ endsWith_pushed hended⟩⟩

theorem adds_pushNode (h : opcode.signature.terminator = false) :
    Adds [] (pushNode opcode resultType inputs auxiliary0 auxiliary1 immediate) :=
  fun before ↦ (lowers_pushNode before).next fun _ _ hafter ↦ ⟨hafter.1, fun hlength _ ↦
    (hafter.2 hlength trivial).imp_right fun hends hopen ↦ .inl (h ▸ hends false hopen)⟩

theorem lowers_pushPure :
    Lowers (fun _ ↦ True) (pushPure opcode resultType inputs auxiliary0 auxiliary1 immediate)
      fun _ before after ↦ Moves [] before after ∧ (before.Ended false →
        after.EndsWith opcode.signature.terminator) :=
  Lowers.bind (Adds.setFlow _) (fun _ ↦ lowers_pushNode) fun _ _ _ _ hmiddle ↦ ⟨trivial, fun _ _ hafter ↦
    ⟨hmiddle.1.trans hafter.1, fun hopen ↦ hafter.2 false (hmiddle.2 hopen)⟩⟩

theorem adds_pushPure (h : opcode.signature.terminator = false) :
    Adds [] (pushPure opcode resultType inputs auxiliary0 auxiliary1 immediate) :=
  (Adds.setFlow _).after fun _ ↦ adds_pushNode h

end Nodes

theorem adds_pushEffectNode {opcode : Opcode} (h : opcode.signature.terminator = false) (effect : UInt32)
    (args : List UInt32) (producer : Option HostProducer) :
    Adds [] (pushEffectNode opcode effect args producer) :=
  (adds_pushNode h).after fun _ ↦ (Adds.setFlow _).after fun _ ↦ .pure _

theorem adds_pushNextEffect {opcode : Opcode} (h : opcode.signature.terminator = false)
    (args : List UInt32) (producer : Option HostProducer) :
    Adds [] (pushNextEffect opcode args producer) :=
  .read fun _ ↦ adds_pushEffectNode h _ _ _

theorem adds_pushHostResult (producer : UInt32) (field : ℕ) (resultType : PythType) :
    Adds [] (pushHostResult producer field resultType) :=
  adds_pushNode rfl

theorem adds_sliceWords (offset len : ℕ) : Adds [] (sliceWords offset len) :=
  .ite (.pure _) (.fail _)

theorem adds_internString (bytes : Bytes) : Adds [] (internString bytes) := by
  refine .read fun lowerer ↦ ?_
  cases findSubslice lowerer.stringTable bytes with
  | some offset => exact adds_sliceWords _ _
  | none =>
    exact (adds_sliceWords _ _).after fun _ ↦
      .after (.modify fun _ ↦ ⟨rfl, rfl, rfl, rfl⟩) fun _ ↦ .pure _

theorem adds_internConstant (bytes : Bytes) : Adds [] (internConstant bytes) :=
  .read fun _ ↦ (adds_sliceWords _ _).after fun _ ↦
    .after (.modify fun _ ↦ ⟨rfl, rfl, rfl, rfl⟩) fun _ ↦ .pure _

theorem adds_lowerLiteral (expected : Option PythType) (literal : Literal) :
    Adds [] (lowerLiteral expected literal) := by
  cases literal with
  | bool value span => exact adds_pushPure rfl
  | string value span =>
    exact .ite ((adds_internConstant _).after fun _ ↦ adds_pushPure rfl)
      ((adds_internString _).after fun _ ↦ adds_pushPure rfl)
  | integer text span =>
    rw [lowerLiteral]
    cases parseU64 text with
    | none => exact .fail _
    | some value => exact adds_pushPure (by split_ifs <;> rfl)

theorem adds_lookupLocal (ident : Ident) : Adds [] (lookupLocal ident) := by
  refine .read fun lowerer ↦ ?_
  cases lowerer.locals.lookup ident.text with
  | none => exact .fail _
  | some node => exact .pure _

theorem adds_defineLocal (name : String) (binder : Binder) (node : UInt32) :
    Adds [] (defineLocal name binder node) :=
  .modify fun _ ↦ ⟨rfl, rfl, rfl, rfl⟩

/-- An expression that is lowered adds the names below it, and its own if it is one. -/
theorem adds_visited {path : Path} {expr : Expression} {program : Lower UInt32}
    {names names' : List (Path × Ident)} (h : Adds names program)
    (hsame : ∀ place, place ∈ names' ↔ place ∈ names ∨ place.1 = path ∧ expr = .name place.2) :
    Adds names' (visited path expr program) := by
  intro before
  rw [visited, ensures_bind, ensures_read, ensures_bind]
  refine (h before).next fun node after hafter ↦ ⟨hafter.1, fun hlength hpre ↦ ?_⟩
  obtain ⟨hmoves, hopen⟩ := hafter.2 hlength hpre
  refine ⟨{ hmoves with named := fun place ↦ ?_ }, hopen⟩
  have hnamed := hmoves.named place
  simp only [Named, List.exists_mem_cons_iff] at hnamed ⊢
  rw [hnamed, hsame, or_comm, or_assoc, eq_comm]

theorem adds_visited_inner {path : Path} {expr : Expression} {program : Lower UInt32}
    {names : List (Path × Ident)} (h : Adds names program) (hexpr : ∀ ident, expr ≠ .name ident) :
    Adds names (visited path expr program) :=
  adds_visited h fun place ↦ by simp [hexpr]

/-! ### Intrinsics -/

section Intrinsics

variable {names : ℕ → List (Path × Ident)} {args : List Expression} {arg : LowerArg}
  (harg : ∀ index type, Adds (names index) (arg index type))

theorem adds_sharedRead {opcode : Opcode} (h : opcode.signature.terminator = false)
    (pending : Flow → Option (UInt32 × UInt32)) (capability : UInt32) :
    Adds [] (sharedRead opcode pending capability) :=
  .read fun _ ↦ .ite (.pure _) (adds_pushNextEffect h _ _)

theorem adds_projected (producer : UInt32) (expected : Option PythType) (field : ℕ)
    (resultType : PythType) : Adds [] (projected producer expected field resultType) :=
  .ite (adds_pushHostResult _ _ _) (.pure _)

theorem adds_lowerHostResultAccess (access : HostResultAccess) (span : Span) :
    Adds [] (lowerHostResultAccess access span) := by
  refine .read fun lowerer ↦ ?_
  cases lowerer.flow.hostProducer with
  | none => exact .fail _
  | some found =>
    obtain ⟨producer, node⟩ := found
    simp only
    cases accessField producer access with
    | none => exact .fail _
    | some field => exact adds_pushHostResult _ _ _

/-- The argument that is named by its kind is a literal, without names. -/
theorem adds_lowerObjectKind {index : ℕ}
    (hliteral : ∀ literal, args[index]? = some (.literal literal) → names index = []) :
    Adds (names index) (argAt args index >>= lowerObjectKind) := by
  rw [argAt]
  cases hexpr : args[index]? with
  | none => exact .fail _
  | some expr =>
    change Adds (names index) (lowerObjectKind expr)
    unfold lowerObjectKind
    split
    · rw [hliteral _ hexpr]
      split
      · exact .fail _
      · exact (adds_internString _).after fun _ ↦ adds_pushPure rfl
    · exact .fail _

include harg

theorem adds_lowerAccessor {opcode : Opcode} (h : opcode.signature.terminator = false)
    (pending : Flow → Option (UInt32 × UInt32)) (setPending : UInt32 × UInt32 → Flow → Flow)
    (field : ℕ × PythType) : Adds (names 0) (lowerAccessor opcode pending setPending field arg) :=
  (harg 0 .capability).before fun _ ↦ (adds_sharedRead h _ _).after fun _ ↦
    (Adds.setFlow _).after fun _ ↦ adds_pushHostResult _ _ _

theorem adds_lowerInOrder (types : List PythType) (index : ℕ) :
    Adds ((List.range' index types.length).flatMap names) (lowerInOrder arg index types) := by
  induction types generalizing index with
  | nil => exact .pure _
  | cons type types ih =>
    exact (harg index type).bind fun _ ↦ (ih (index + 1)).before fun _ ↦ .pure _

theorem adds_lowerRevisionPayload : Adds (names 3) (lowerRevisionPayload args arg) := by
  rw [lowerRevisionPayload, argAt]
  cases args[3]? with
  | none => exact .fail _
  | some expr =>
    refine .after (.pure expr) fun _ ↦ ?_
    split
    · exact harg 3 .bytes
    · exact .fail _

theorem adds_lowerGenericEffectfulIntrinsic (hnone : ∀ index, args.length ≤ index → names index = [])
    (intrinsic : Intrinsic) (span : Span) :
    Adds ((List.range intrinsic.argTypes.length).flatMap names)
      (lowerGenericEffectfulIntrinsic intrinsic args arg span) := by
  rw [lowerGenericEffectfulIntrinsic]
  cases hopcode : opcodeForIntrinsic intrinsic with
  | none => exact .fail _
  | some opcode =>
    have hplain : opcode.signature.terminator = false := by
      cases intrinsic <;> cases hopcode <;> rfl
    refine .read fun _ ↦ ((adds_lowerInOrder harg _ 0).before fun _ ↦
      adds_pushEffectNode hplain _ _ _).congr fun place ↦ ?_
    -- an argument that is not there has no names
    simp only [List.mem_flatMap, List.mem_range'_1, List.mem_range, List.length_take, Nat.zero_le,
      true_and, Nat.zero_add, lt_min_iff]
    refine exists_congr fun index ↦ and_congr_left fun hmem ↦ and_iff_right (not_le.mp fun hle ↦ ?_)
    rw [hnone index hle] at hmem
    cases hmem

/-- A call lowers the names of the arguments that its intrinsic looks at. -/
theorem adds_lowerIntrinsic (intrinsic : Intrinsic) (span : Span) (expected : Option PythType)
    (hliteral : ∀ index literal, args[index]? = some (.literal literal) → names index = [])
    (hnone : ∀ index, args.length ≤ index → names index = []) :
    Adds (intrinsic.loweredArgs.flatMap names) (lowerIntrinsic intrinsic args arg span expected) := by
  have htask (field : ℕ × PythType) :
      Adds ((List.range 1).flatMap names) (lowerTaskContextAccessor field arg) :=
    (adds_lowerAccessor harg rfl _ _ field).congr fun _ ↦ by simp
  have hcommand (field : ℕ × PythType) :
      Adds ((List.range 1).flatMap names) (lowerCommandAccessor field arg) :=
    (adds_lowerAccessor harg rfl _ _ field).congr fun _ ↦ by simp
  have htwo {program : UInt32 → UInt32 → Lower UInt32} (h : ∀ first second, Adds [] (program first second))
      (type : PythType) : Adds ((List.range 2).flatMap names) (do
        let first ← arg 0 .capability
        let second ← arg 1 type
        program first second) :=
    ((harg 0 .capability).bind fun first ↦ (harg 1 type).before fun second ↦ h first second).congr
      fun _ ↦ by simp [List.range_succ]
  have hworkspace {opcode : Opcode} (h : opcode.signature.terminator = false) (producer : HostProducer) :
      Adds ((List.range 2).flatMap names)
        (lowerObjectWorkspaceIntrinsic opcode producer args arg expected) :=
    ((harg 0 .capability).bind fun _ ↦ (adds_lowerObjectKind (hliteral 1)).before fun _ ↦
      (adds_pushNextEffect h _ _).after fun _ ↦ adds_projected _ _ _ _).congr
        fun _ ↦ by simp [List.range_succ]
  cases intrinsic
  case objectCreatedCapability | objectCreatedRevision | objectQueriedCapability |
      objectInspectedRevision => exact adds_lowerHostResultAccess _ _
  case taskContextActive | taskContextCandidate | taskContextScore | taskContextKind |
      taskContextReason => exact htask _
  case commandKind | commandObject | commandTask | commandProposal | commandText => exact hcommand _
  case objectCreate | objectQuery => exact hworkspace (by decide) _
  case objectInspect =>
    exact htwo (fun _ _ ↦ (adds_pushNextEffect rfl _ _).after fun _ ↦
      .ite (adds_pushHostResult _ _ _) (.pure _)) _
  case objectHistory =>
    exact htwo (fun _ _ ↦ (adds_pushNextEffect rfl _ _).after fun _ ↦ .ite (.fail _) (.pure _)) _
  case objectRevise =>
    refine ((harg 0 .capability).bind fun _ ↦ (harg 1 .objectId).bind fun _ ↦
      (adds_lowerRevisionPayload harg).before fun _ ↦ (adds_pushNextEffect rfl _ _).after fun _ ↦
        adds_projected _ _ _ _).congr fun _ ↦ ?_
    simp [Intrinsic.loweredArgs]
  case taskPropose =>
    refine .ite (.fail _) (((adds_lowerInOrder harg [.capability, .taskId, .u64] 0).before fun _ ↦
      adds_pushNextEffect rfl _ _).congr fun _ ↦ ?_)
    rfl
  all_goals exact adds_lowerGenericEffectfulIntrinsic harg hnone _ span

end Intrinsics

/-! ### Expressions and statements -/

theorem lowerArg_eq (path : Path) (type : PythType) (args : List Expression) (position index : ℕ) :
    lowerArg path position args (position + index) type = match args[index]? with
      | none => .fail .panicked
      | some arg => lowerExpression ((position + index) :: path) arg (some type) := by
  induction args generalizing position index with
  | nil => rw [lowerArg]; rfl
  | cons arg args ih =>
    rw [lowerArg]
    cases index with
    | zero => rw [if_pos (Nat.add_zero position)]; rfl
    | succ index =>
      have hnext : position + (index + 1) = position + 1 + index := by omega
      rw [if_neg (by omega), hnext, ih]
      rfl

/-- The names of the arguments that are lowered. -/
theorem mem_argsNamesIn {callee : String} {path : Path} {args : List Expression} {position : ℕ}
    {place : Path × Ident} : place ∈ argsNamesIn true callee path position args ↔
      ∃ index arg, args[index]? = some arg ∧ lowersArg callee (position + index) = true ∧
        place ∈ arg.namesIn true ((position + index) :: path) := by
  induction args generalizing position with
  | nil => simp [argsNamesIn]
  | cons arg args ih =>
    rw [argsNamesIn, List.mem_append, ih]
    constructor
    · rintro (hfirst | ⟨index, other, hother, hlowers, hplace⟩)
      · cases hlowers : lowersArg callee position with
        | true => exact ⟨0, arg, rfl, hlowers, by simpa [hlowers] using hfirst⟩
        | false => simp [hlowers] at hfirst
      · have hnext : position + (index + 1) = position + 1 + index := by omega
        exact ⟨index + 1, other, hother, hnext ▸ hlowers, hnext ▸ hplace⟩
    · rintro ⟨index, other, hother, hlowers, hplace⟩
      cases index with
      | zero =>
        obtain rfl := Option.some.inj hother
        exact .inl (by simpa [show lowersArg callee position = true from hlowers] using hplace)
      | succ index =>
        have hnext : position + (index + 1) = position + 1 + index := by omega
        exact .inr ⟨index, other, hother, hnext ▸ hlowers, hnext ▸ hplace⟩

mutual

theorem adds_lowerExpression (expr : Expression) (path : Path) (expected : Option PythType) :
    Adds (expr.namesIn true path) (lowerExpression path expr expected) := by
  match expr with
  | .literal value =>
    rw [lowerExpression, Expression.namesIn]
    exact adds_visited_inner (adds_lowerLiteral expected value) nofun
  | .name ident =>
    rw [lowerExpression, Expression.namesIn]
    refine adds_visited (adds_lookupLocal ident) fun place ↦ ?_
    obtain ⟨other, found⟩ := place
    simp [eq_comm]
  | .call callee args span =>
    rw [lowerExpression, Expression.namesIn]
    refine adds_visited_inner ?_ nofun
    cases hintrinsic : Intrinsic.fromName callee.text with
    | none => exact .fail _
    | some intrinsic =>
      let names (index : ℕ) := (args[index]?.map fun arg ↦ arg.namesIn true (index :: path)).getD []
      have harg : ∀ index type, Adds (names index) (lowerArg path 0 args index type) := by
        intro index type
        have heq := lowerArg_eq path type args 0 index
        rw [Nat.zero_add] at heq
        rw [heq]
        cases hindex : args[index]? with
        | none => exact .fail _
        | some arg =>
          have hnames : names index = arg.namesIn true (index :: path) := by simp [names, hindex]
          rw [hnames]
          exact adds_lowerArgs args arg (List.mem_of_getElem? hindex) _ _
      refine (adds_lowerIntrinsic harg intrinsic span expected ?_ ?_).congr fun place ↦ ?_
      · intro index literal hindex
        simp [names, hindex, Expression.namesIn]
      · intro index hlength
        simp [names, List.getElem?_eq_none hlength]
      · rw [mem_argsNamesIn]
        simp only [List.mem_flatMap, names, lowersArg, hintrinsic, Option.any_some, decide_eq_true_eq,
          Nat.zero_add]
        constructor
        · rintro ⟨index, hlowered, hplace⟩
          cases hindex : args[index]? with
          | none => simp [hindex] at hplace
          | some arg => exact ⟨index, arg, hindex, hlowered, by simpa [hindex] using hplace⟩
        · rintro ⟨index, arg, hindex, hlowered, hplace⟩
          exact ⟨index, hlowered, by simpa [hindex] using hplace⟩
  | .unary op inner span =>
    rw [lowerExpression, Expression.namesIn]
    exact adds_visited_inner ((adds_lowerExpression inner _ _).before fun _ ↦ adds_pushPure rfl) nofun
  | .binary op left right span =>
    rw [lowerExpression, Expression.namesIn]
    refine adds_visited_inner ?_ nofun
    exact (adds_lowerExpression left _ _).bind fun _ ↦ (adds_lowerExpression right _ _).before fun _ ↦
      adds_pushPure (by cases op <;> rfl)

theorem adds_lowerArgs (args : List Expression) (arg : Expression) (h : arg ∈ args) (path : Path)
    (expected : Option PythType) : Adds (arg.namesIn true path) (lowerExpression path arg expected) := by
  match args with
  | [] => cases h
  | first :: rest =>
    rcases List.mem_cons.mp h with heq | hrest
    · rw [heq]
      exact adds_lowerExpression first path expected
    · exact adds_lowerArgs rest arg hrest path expected

end

/-- A program lowers names from a block that can be continued, and terminates the current block or not. -/
def LowersTo (stops : Bool) (names : List (Path × Ident)) (program : Lower α) : Prop :=
  Lowers (fun before ↦ before.Ended false) program fun _ before after ↦
    Moves names before after ∧ after.Ended stops

theorem Adds.lowersTo {names : List (Path × Ident)} {program : Lower α} (h : Adds names program) :
    LowersTo false names program :=
  fun before ↦ (h before).next fun _ _ hafter ↦ ⟨hafter.1, fun hlength hopen ↦
    (hafter.2 hlength trivial).imp_right fun hkept ↦ hkept hopen⟩

namespace LowersTo

variable {stops : Bool} {names names' : List (Path × Ident)}

theorem bind {program : Lower β} {next : β → Lower α} (h : Adds names program)
    (hnext : ∀ value, LowersTo stops names' (next value)) :
    LowersTo stops (names ++ names') (program >>= next) :=
  Lowers.bind h.lowersTo hnext fun _ _ _ _ hmiddle ↦
    ⟨hmiddle.2, fun _ _ hafter ↦ ⟨hmiddle.1.trans hafter.1, hafter.2⟩⟩

theorem after {program : Lower β} {next : β → Lower α} (h : Adds [] program)
    (hnext : ∀ value, LowersTo stops names (next value)) : LowersTo stops names (program >>= next) :=
  .bind h hnext

theorem done {program : Lower β} (h : LowersTo stops names program) (value : α) :
    LowersTo stops names (program >>= fun _ ↦ Pure.pure value) :=
  fun before ↦ ensures_bind.mpr (h before)

end LowersTo

theorem lowersTo_pushPure {opcode : Opcode} (h : opcode.signature.terminator = true) (target : UInt32) :
    LowersTo true [] (pushPure opcode .unit [] target 0 0) :=
  fun before ↦ (lowers_pushPure before).next fun _ _ hafter ↦ ⟨hafter.1, fun hlength hopen ↦
    (hafter.2 hlength trivial).imp_right fun hends ↦ .inl (h ▸ hends hopen)⟩

theorem lowersTo_pushReturn : LowersTo true [] pushReturn :=
  (lowersTo_pushPure rfl 0).done ()

theorem lowersTo_pushLoop (budget : UInt64) : LowersTo true [] (pushLoop budget) := by
  have hread : LowersTo true [] (do
      let lowerer ← Stateful.read
      let _ ← pushPure .jump .unit [] (UInt32.ofNat lowerer.currentBlock) 0 0
      pure ()) :=
    fun before ↦ ensures_bind.mpr ((lowersTo_pushPure rfl _).done () before)
  exact .after (.modify fun _ ↦ ⟨rfl, rfl, rfl, rfl⟩) fun _ ↦ hread

section Branches

variable {stops stops' : Bool} {names names' : List (Path × Ident)}

theorem ensures_addBlock {post : ℕ → Lowerer → Prop} {fails : Fault Diagnostic → Lowerer → Prop}
    {lowerer : Lowerer} : Ensures addBlock post fails lowerer ↔
      post lowerer.blocks.length { lowerer with blocks := lowerer.blocks ++ [⟨none, 0⟩] } :=
  Iff.rfl

theorem moves_addBlock (lowerer : Lowerer) :
    Moves [] lowerer { lowerer with blocks := lowerer.blocks ++ [⟨none, 0⟩] } where
  blocks := by simp
  current := .inl rfl
  others block hblock _ := List.getElem?_append_left hblock
  named place := by simp [Named]

/-- A branch that is terminated is left as it is; another one jumps to the join, which is new if there was
none. -/
theorem lowers_leaveBranch (stops : Bool) (join : Option ℕ) :
    Lowers (fun before ↦ before.Ended stops) (leaveBranch join) fun result before after ↦
      Moves [] before after ∧ (stops = true → result.2 = join ∧ after = before) ∧
        (stops = false → ∃ target, result.2 = some target ∧ (join = some target ∨
          join = none ∧ before.blocks.length ≤ target ∧ after.Fresh target)) := by
  intro before
  rw [leaveBranch, ensures_bind, ensures_read, ensures_ite]
  constructor
  · refine fun hterminated ↦ ⟨le_rfl, fun hlength hended ↦ ?_⟩
    rw [hended.currentBlockIsTerminated hlength] at hterminated
    exact ⟨.refl before, fun _ ↦ ⟨rfl, rfl⟩, fun h ↦ absurd (hterminated.symm.trans h) (by decide)⟩
  · intro hopen
    cases join with
    | some target =>
      refine ensures_bind.mpr (ensures_pure.mpr (ensures_bind.mpr ?_))
      refine (lowers_pushPure before).next fun _ after hafter ↦ ⟨hafter.1, fun hlength hended ↦ ?_⟩
      refine ⟨(hafter.2 hlength trivial).1, fun hstops ↦ ?_, fun _ ↦ ⟨target, rfl, .inl rfl⟩⟩
      rw [hended.currentBlockIsTerminated (hafter.1.trans hlength)] at hopen
      exact absurd hstops hopen
    | none =>
      refine ensures_bind.mpr (ensures_addBlock.mpr (ensures_bind.mpr ?_))
      refine (lowers_pushPure _).next fun _ after hafter ↦ ⟨hafter.1, fun hlength hended ↦ ?_⟩
      have hmoves := (hafter.2 hlength trivial).1
      refine ⟨(moves_addBlock before).trans hmoves, fun hstops ↦ ?_, fun _ ↦
        ⟨before.blocks.length, rfl, .inr ⟨rfl, le_rfl, ?_⟩⟩⟩
      · rw [hended.currentBlockIsTerminated (hafter.1.trans hlength)] at hopen
        exact absurd hstops hopen
      · exact hmoves.fresh List.getElem?_concat_length hended.lt_length.ne'

theorem lowers_enterJoin (join : Option ℕ) (thenFlow elseFlow : Option Flow) :
    Lowers (fun _ ↦ True) (enterJoin join thenFlow elseFlow) fun _ before after ↦
      (join = none → after = before) ∧
        ∀ block, join = some block → ∃ flow, after = { before with currentBlock := block, flow } := by
  intro before
  cases join with
  | none => exact ⟨le_rfl, fun _ _ ↦ ⟨fun _ ↦ rfl, nofun⟩⟩
  | some block =>
    refine ⟨le_rfl, fun _ _ ↦ ⟨nofun, fun target htarget ↦ ?_⟩⟩
    cases htarget
    exact ⟨_, rfl⟩

/-- The second branch, with the join of the first one if that has one. -/
theorem lowers_elseBranch {program : Lower Unit} (h : LowersTo stops names program) (join : Option ℕ)
    (thenFlow : Option Flow) :
    Lowers (fun before ↦ before.Ended false ∧
        ∀ target, join = some target → before.Fresh target ∧ target ≠ before.currentBlock)
      (do
        program
        let (elseFlow, join) ← leaveBranch join
        enterJoin join thenFlow elseFlow)
      fun _ before after ↦ after.Ended (join.isNone && stops) ∧ ∀ base front, Moves front base before →
        (∀ target, join = some target → base.blocks.length ≤ target) →
          Moves (front ++ names) base after := by
  intro before
  refine ensures_bind.mpr ((h before).next fun _ middle hmiddle ↦ ?_)
  refine ensures_bind.mpr ((lowers_leaveBranch stops join middle).next fun right left hleft ↦ ?_)
  refine (lowers_enterJoin right.2 thenFlow right.1 left).next fun _ after hafter ↦
    ⟨hmiddle.1.trans (hleft.1.trans hafter.1), fun hlength hpre ↦ ?_⟩
  obtain ⟨hmoves, hended⟩ := hmiddle.2 (hleft.1.trans (hafter.1.trans hlength)) hpre.1
  obtain ⟨hleave, hstops, hopen⟩ := hleft.2 (hafter.1.trans hlength) hended
  obtain ⟨hnone, hsome⟩ := hafter.2 hlength trivial
  have hall : Moves names before left := (hmoves.trans hleave).congr (by simp)
  have henter (target : ℕ) (htarget : right.2 = some target) (hfresh : left.Fresh target) :
      after.Ended false ∧ ∀ base front, Moves front base left → base.blocks.length ≤ target →
        Moves front base after := by
    obtain ⟨flow, rfl⟩ := hsome target htarget
    exact ⟨.inr ⟨rfl, hfresh⟩, fun base front hbase hbound ↦ hbase.enter hbound flow⟩
  have hjoin (target : ℕ) (htarget : join = some target) : left.Fresh target :=
    hall.fresh (hpre.2 target htarget).1 (hpre.2 target htarget).2
  cases stops with
  | true =>
    obtain ⟨hright, rfl⟩ := hstops rfl
    cases join with
    | none =>
      rw [hnone hright]
      exact ⟨hended, fun base front hbase _ ↦ hbase.trans hmoves⟩
    | some target =>
      obtain ⟨hended', hmoves'⟩ := henter target hright (hjoin target rfl)
      exact ⟨hended', fun base front hbase hbound ↦ hmoves' base _ (hbase.trans hall) (hbound target rfl)⟩
  | false =>
    obtain ⟨target, hright, htarget⟩ := hopen rfl
    rw [Bool.and_false]
    obtain rfl | ⟨rfl, hnew, hfresh⟩ := htarget
    · obtain ⟨hended', hmoves'⟩ := henter target hright (hjoin target rfl)
      exact ⟨hended', fun base front hbase hbound ↦ hmoves' base _ (hbase.trans hall) (hbound target rfl)⟩
    · obtain ⟨hended', hmoves'⟩ := henter target hright hfresh
      exact ⟨hended', fun base front hbase _ ↦
        hmoves' base _ (hbase.trans hall) ((hbase.trans hmoves).blocks.trans hnew)⟩

/-- Both branches start in blocks of their own. -/
theorem lowersTo_branches {thenProgram elseProgram : Lower Unit} (hthen : LowersTo stops names thenProgram)
    (helse : LowersTo stops' names' elseProgram) (condition : UInt32) :
    LowersTo (stops && stops') (names ++ names') (do
      let incoming ← Stateful.read
      let thenBlock ← addBlock
      let elseBlock ← addBlock
      let _ ← pushNode .branch .unit [condition] (UInt32.ofNat thenBlock) (UInt32.ofNat elseBlock) 0
      enterBlock thenBlock incoming.flow
      thenProgram
      let (thenFlow, join) ← leaveBranch none
      enterBlock elseBlock incoming.flow
      elseProgram
      let (elseFlow, join) ← leaveBranch join
      enterJoin join thenFlow elseFlow) := by
  intro before
  refine ensures_bind.mpr (ensures_read.mpr ?_)
  refine ensures_bind.mpr (ensures_addBlock.mpr (ensures_bind.mpr (ensures_addBlock.mpr ?_)))
  refine ensures_bind.mpr ((lowers_pushNode _).next fun _ pushed hpushed ↦ ?_)
  refine ensures_bind.mpr (ensures_modify.mpr (ensures_bind.mpr ((hthen _).next fun _ middle hmiddle ↦ ?_)))
  refine ensures_bind.mpr ((lowers_leaveBranch stops none middle).next fun left other hother ↦ ?_)
  refine ensures_bind.mpr (ensures_modify.mpr ?_)
  refine (lowers_elseBranch helse left.2 left.1 _).next fun _ after hafter ↦
    ⟨hpushed.1.trans (hmiddle.1.trans (hother.1.trans hafter.1)), fun hlength hended ↦ ?_⟩
  have hmiddle' := hother.1.trans (hafter.1.trans hlength)
  obtain ⟨hpush, -⟩ := hpushed.2 (hmiddle.1.trans hmiddle') trivial
  have hopened : Moves [] before pushed := (moves_addBlock before).trans ((moves_addBlock _).trans hpush)
  -- the two new blocks stay empty until they are entered
  have hcurrent := hended.lt_length
  have hthenFresh : pushed.Fresh before.blocks.length := hpush.fresh (by simp [Fresh]) hcurrent.ne'
  have helseFresh : pushed.Fresh (before.blocks.length + 1) :=
    hpush.fresh (by simp [Fresh]) (Nat.lt_succ_of_lt hcurrent).ne'
  have hblocks := hpush.blocks
  obtain ⟨hmoves, hended'⟩ := hmiddle.2 hmiddle' (.inr ⟨rfl, hthenFresh⟩)
  have hthenBlocks := hmoves.blocks
  simp only [List.length_append, List.length_singleton] at hblocks hthenBlocks
  obtain ⟨hleave, hstops, hopen⟩ := hother.2 (hafter.1.trans hlength) hended'
  have hleft := hmoves.trans hleave
  have hall : Moves names before other :=
    ((hopened.enter le_rfl before.flow).trans hleft).congr (by simp)
  have hjoin : left.2.isNone = stops ∧ ∀ target, left.2 = some target →
      middle.blocks.length ≤ target ∧ other.Fresh target := by
    cases stops with
    | true => simp [(hstops rfl).1]
    | false =>
      obtain ⟨target, htarget, hnew⟩ := hopen rfl
      simpa [htarget] using hnew
  have helseOther : other.Fresh (before.blocks.length + 1) := hleft.fresh helseFresh (Nat.succ_ne_self _)
  obtain ⟨hdone, hfinal⟩ := hafter.2 hlength ⟨.inr ⟨rfl, by simpa [Fresh] using helseOther⟩, by
    intro target htarget
    obtain ⟨hnew, hfresh⟩ := hjoin.2 target htarget
    simp only [List.length_append, List.length_singleton]
    exact ⟨hfresh, by omega⟩⟩
  rw [hjoin.1] at hdone
  refine ⟨hfinal before names (hall.enter (by simp) _) fun target htarget ↦ ?_, hdone⟩
  exact (hopened.blocks.trans hthenBlocks).trans (hjoin.2 target htarget).1

end Branches

/-! ### Statements -/

theorem lowerStatements_terminated {lowerer : Lowerer} (h : lowerer.currentBlockIsTerminated = true)
    (statements : List Statement) (path : Path) (index : ℕ) :
    lowerStatements path index statements lowerer = (.ok (), lowerer) := by
  cases statements with
  | nil => rw [lowerStatements]; rfl
  | cons statement statements =>
    rw [lowerStatements]
    show (if lowerer.currentBlockIsTerminated then Pure.pure () else _ : Lower Unit) lowerer = _
    rw [if_pos h]
    rfl

mutual

theorem lowersTo_lowerStatement (statement : Statement) (path : Path) :
    LowersTo statement.terminates (statement.namesIn true path) (lowerStatement path statement) := by
  match statement with
  | .letLocal name typeName value span =>
    rw [lowerStatement, Statement.terminates, Statement.namesIn]
    exact ((adds_lowerExpression value _ _).before fun _ ↦ adds_defineLocal _ _ _).lowersTo
  | .expr expr =>
    rw [lowerStatement, Statement.terminates, Statement.namesIn]
    exact ((adds_lowerExpression expr _ _).before fun _ ↦ .pure ()).lowersTo
  | .ret span =>
    rw [lowerStatement, Statement.terminates, Statement.namesIn]
    exact lowersTo_pushReturn
  | .ifElse condition thenStatements elseStatements span =>
    rw [lowerStatement, Statement.terminates, Statement.namesIn, List.append_assoc]
    refine .bind (adds_lowerExpression condition _ _) fun node ↦ .after (Adds.setFlow _) fun _ ↦ ?_
    exact lowersTo_branches (lowersTo_lowerStatements thenStatements _ _)
      (lowersTo_lowerStatements elseStatements _ _) node
  | .whileLoop budget condition statements span =>
    rw [lowerStatement, Statement.terminates, Statement.namesIn, if_pos rfl]
    exact lowersTo_pushLoop budget

theorem lowersTo_lowerStatements (statements : List Statement) (path : Path) (index : ℕ) :
    LowersTo (blockTerminates statements) (blockNamesIn true path index statements)
      (lowerStatements path index statements) := by
  match statements with
  | [] =>
    rw [lowerStatements, blockTerminates, blockNamesIn]
    exact (Adds.pure ()).lowersTo
  | statement :: statements =>
    intro before
    rw [lowerStatements, blockTerminates, blockNamesIn, Bool.true_and]
    refine ensures_bind.mpr (ensures_read.mpr (ensures_ite.mpr ⟨fun hterminated ↦ ?_, fun _ ↦ ?_⟩))
    · refine ⟨le_rfl, fun hlength hended ↦ ?_⟩
      rw [hended.currentBlockIsTerminated hlength] at hterminated
      cases hterminated
    refine ensures_bind.mpr ((lowersTo_lowerStatement statement _ before).next fun _ middle hmiddle ↦ ?_)
    have hrest := lowersTo_lowerStatements statements path (index + 1) middle
    cases hstops : statement.terminates with
    | false =>
      refine hrest.next fun _ after hafter ↦ ⟨hmiddle.1.trans hafter.1, fun hlength hended ↦ ?_⟩
      obtain ⟨hmoves, hended'⟩ := hmiddle.2 (hafter.1.trans hlength) hended
      obtain ⟨hmoves', hdone⟩ := hafter.2 hlength (hstops ▸ hended')
      exact ⟨hmoves.trans hmoves', hdone⟩
    | true =>
      cases hterminated : middle.currentBlockIsTerminated with
      | true =>
        rw [Ensures, lowerStatements_terminated hterminated]
        refine ⟨hmiddle.1, fun hlength hended ↦ ?_⟩
        obtain ⟨hmoves, hended'⟩ := hmiddle.2 hlength hended
        rw [hstops] at hended'
        exact ⟨hmoves.trans (.refl middle), hended'⟩
      | false =>
        refine hrest.next fun _ after hafter ↦ ⟨hmiddle.1.trans hafter.1, fun hlength hended ↦ ?_⟩
        have hlength' := hafter.1.trans hlength
        obtain ⟨-, hended'⟩ := hmiddle.2 hlength' hended
        rw [hended'.currentBlockIsTerminated hlength', hstops] at hterminated
        cases hterminated

end

/-! ### Programs -/

end Pythos.Pythc
