import Pythos.Pythc.SourceText

/-!
# Printed programs parse back

`Yields` says what a parser makes of a list of token kinds. Its rules follow the parser: a token, a
sequence, a look at the next token. The expressions are the interesting part. An operand printed for a
place is parsed and handed to the loop over the operators behind it (`Parses`, by induction on the
expression), and the loop stops at what follows the place, because nothing that follows binds tighter
(`Stops`).

The fuel is counted in tokens: three calls for each of them are enough.
-/

namespace Pythos.Pythc

open Foundation

/-! ### What a parser makes of tokens -/

/-- The parser has tokens of these kinds before it. -/
def Parser.At (parser : Parser) (kinds : List TokenKind) : Prop :=
  (parser.tokens.drop parser.pos).map Token.kind = kinds

variable {parser : Parser} {kind : TokenKind} {kinds : List TokenKind} {level : ℕ} {op : BinaryOp}
  {fuel : ℕ} {rest : List TokenKind} {expr : Expression} {good : Expression → Prop} {span : Span}
  {statements : List Statement}

section

variable (h : parser.At (kind :: kinds))

include h

theorem Parser.At.peek : parser.peek.kind = kind := by
  unfold Parser.At at h
  cases htokens : parser.tokens.drop parser.pos with
  | nil => simp [htokens] at h
  | cons token tokens =>
    have hget : parser.tokens[parser.pos]? = some token := by
      rw [← Nat.add_zero parser.pos, ← List.getElem?_drop, htokens]
      rfl
    rw [htokens, List.map_cons] at h
    rw [Parser.peek, hget]
    exact (List.cons.inj h).1

theorem Parser.At.atKeyword (word : String) :
    parser.atKeyword word = decide (kind = .ident word) := by
  rw [Parser.atKeyword, h.peek]

theorem Parser.At.atSymbol (symbol : Symbol) :
    parser.atSymbol symbol = decide (kind = .symbol symbol) := by
  rw [Parser.atSymbol, h.peek]

theorem Parser.At.isEof : parser.isEof = decide (kind = .eof) := by
  rw [Parser.isEof, h.peek]

theorem Parser.At.next (hkind : kind ≠ .eof) : parser.next.At kinds := by
  rw [Parser.next, if_neg (h.peek ▸ hkind)]
  unfold Parser.At at h ⊢
  rw [← List.tail_drop, List.map_tail, h]
  rfl

end

/-- From the first kinds before it, the parser makes a good value, and stands before the rest. -/
def Yields {α : Type} (program : Parse α) (kinds rest : List TokenKind) (good : α → Prop) : Prop :=
  ∀ parser : Parser, parser.At (kinds ++ rest) →
    ∃ value after, program parser = (.ok value, after) ∧ after.At rest ∧ good value

section Rules

variable {α β : Type} {rest : List TokenKind} {good : α → Prop}

theorem Yields.pure {value : α} (h : good value) : Yields (Pure.pure value) [] rest good :=
  fun parser hat ↦ ⟨value, parser, rfl, hat, h⟩

variable {kinds : List TokenKind} {program : Parse β} {next : β → Parse α} {middle : β → Prop}
  {kind : TokenKind}

theorem Yields.mono {program : Parse α} {good' : α → Prop} (h : Yields program kinds rest good)
    (himp : ∀ value, good value → good' value) : Yields program kinds rest good' := by
  intro parser hat
  obtain ⟨value, after, hrun, hafter, hgood⟩ := h parser hat
  exact ⟨value, after, hrun, hafter, himp value hgood⟩

/-- One program after another. -/
theorem Yields.bind {kinds' : List TokenKind} (h : Yields program kinds (kinds' ++ rest) middle)
    (hnext : ∀ value, middle value → Yields (next value) kinds' rest good) :
    Yields (program >>= next) (kinds ++ kinds') rest good := by
  intro parser hat
  rw [List.append_assoc] at hat
  obtain ⟨value, between, hrun, hbetween, hmiddle⟩ := h parser hat
  obtain ⟨result, after, hresult, hafter, hgood⟩ := hnext value hmiddle between hbetween
  exact ⟨result, after, (Stateful.bind_of_ok hrun).trans hresult, hafter, hgood⟩

/-- A program that takes one token, and the next program. -/
theorem Yields.token (h : Yields program [kind] (kinds ++ rest) middle)
    (hnext : ∀ value, middle value → Yields (next value) kinds rest good) :
    Yields (program >>= next) (kind :: kinds) rest good :=
  h.bind hnext

/-- A program that takes no token, and the next program. -/
theorem Yields.stay (h : Yields program [] (kinds ++ rest) middle)
    (hnext : ∀ value, middle value → Yields (next value) kinds rest good) :
    Yields (program >>= next) kinds rest good :=
  h.bind hnext

/-- A program and another one that takes no token. -/
theorem Yields.last (h : Yields program kinds rest middle)
    (hnext : ∀ value, middle value → Yields (next value) [] rest good) :
    Yields (program >>= next) kinds rest good := by
  have hbind : Yields (program >>= next) (kinds ++ []) rest good := h.bind hnext
  rwa [List.append_nil] at hbind

/-- A look at the parser. -/
theorem Yields.look {next : Parser → Parse α}
    (h : ∀ parser : Parser, parser.At (kinds ++ rest) → Yields (next parser) kinds rest good) :
    Yields (Stateful.read >>= next) kinds rest good :=
  fun parser hat ↦ h parser hat parser hat

theorem yields_advance (hkind : kind ≠ .eof) : Yields Parser.advance [kind] rest (·.kind = kind) :=
  fun parser hat ↦ ⟨parser.peek, parser.next, rfl, hat.next hkind, hat.peek⟩

theorem yields_expectKind (hkind : kind ≠ .eof) :
    Yields (Parser.expectKind kind) [kind] rest fun _ ↦ True := by
  refine (yields_advance hkind).last fun token htoken ↦ ?_
  rw [if_pos htoken]
  exact .pure trivial

theorem Yields.symbol {symbol : Symbol} {next : Span → Parse α}
    (hnext : ∀ span, Yields (next span) kinds rest good) :
    Yields (Parser.expectSymbol symbol >>= next) (.symbol symbol :: kinds) rest good :=
  (yields_expectKind (by simp)).token fun span _ ↦ hnext span

theorem Yields.keyword {word : String} {next : Span → Parse α}
    (hnext : ∀ span, Yields (next span) kinds rest good) :
    Yields (Parser.expectKeyword word >>= next) (.ident word :: kinds) rest good :=
  (yields_expectKind (by simp)).token fun span _ ↦ hnext span

theorem yields_expectIdent (text : String) :
    Yields Parser.expectIdent [.ident text] rest (·.text = text) := by
  refine (yields_advance (by simp)).last fun token htoken ↦ ?_
  rw [htoken]
  exact .pure rfl

theorem Yields.ident {text : String} {next : Ident → Parse α}
    (hnext : ∀ ident, ident.text = text → Yields (next ident) kinds rest good) :
    Yields (Parser.expectIdent >>= next) (.ident text :: kinds) rest good :=
  (yields_expectIdent text).token hnext

theorem yields_matchKind (hkind : kind ≠ .eof) :
    Yields (Parser.matchKind kind) [kind] rest (· = true) := by
  refine .look fun parser hat ↦ ?_
  rw [if_pos hat.peek]
  exact (yields_advance hkind).last fun _ _ ↦ .pure rfl

theorem yields_matchKind_other {other : TokenKind} (hother : other ≠ kind) :
    Yields (Parser.matchKind kind) [] (other :: rest) (· = false) := by
  refine .look fun parser hat ↦ ?_
  rw [if_neg (hat.peek ▸ hother)]
  exact .pure rfl

end Rules

/-! ### Expressions -/

/-- What may follow an expression printed for a place: no operator that binds tighter than the place, and
no parenthesis, which would make a call of a name. -/
def Stops (level : ℕ) : List TokenKind → Prop
  | [] => False
  | kind :: _ => kind ≠ .symbol .lParen ∧
      ∀ op precedence, Parser.binaryOp kind = some (op, precedence) → precedence ≤ level

theorem Stops.mono {level' : ℕ} (hle : level ≤ level') (h : Stops level kinds) :
    Stops level' kinds := by
  cases kinds with
  | nil => exact h
  | cons kind kinds => exact ⟨h.1, fun op precedence hop ↦ (h.2 op precedence hop).trans hle⟩

theorem binaryOp_symbol (op : BinaryOp) :
    Parser.binaryOp (.symbol op.symbol) = some (op, op.precedence) := by
  cases op <;> rfl

theorem precedence_bounds {precedence : ℕ} (h : Parser.binaryOp kind = some (op, precedence)) :
    1 ≤ precedence ∧ precedence ≤ 5 := by
  unfold Parser.binaryOp at h
  split at h <;> simp_all <;> omega

theorem stops_symbol (op : BinaryOp) (kinds : List TokenKind) :
    Stops op.precedence (.symbol op.symbol :: kinds) := by
  refine ⟨by cases op <;> simp [BinaryOp.symbol], fun op' precedence h ↦ ?_⟩
  rw [binaryOp_symbol, Option.some.injEq, Prod.mk.injEq] at h
  exact h.2.symm.le

/-- A token that is no operator and no parenthesis stops every expression. -/
theorem stops_of_none (hparen : kind ≠ .symbol .lParen) (hop : Parser.binaryOp kind = none)
    (level : ℕ) (kinds : List TokenKind) : Stops level (kind :: kinds) :=
  ⟨hparen, fun op precedence h ↦ by simp [hop] at h⟩

/-- The loop stops at what may follow a place below its precedence. -/
theorem yields_climb_stop {minPrecedence : ℕ} (h : Stops level rest)
    (hlevel : level < minPrecedence ∨ level = 0) (left : Expression) :
    Yields (Parser.climb (fuel + 1) minPrecedence left) [] rest (· = left) := by
  rw [Parser.climb]
  refine .look fun parser hat ↦ ?_
  cases rest with
  | nil => exact h.elim
  | cons kind rest =>
    have hpeek : parser.peekBinaryOp = Parser.binaryOp kind := by
      rw [Parser.peekBinaryOp, hat.peek]
    rw [hpeek]
    cases hop : Parser.binaryOp kind with
    | none => exact .pure rfl
    | some found =>
      obtain ⟨op, precedence⟩ := found
      have hle := h.2 op precedence hop
      have hpos := (precedence_bounds hop).1
      have hlow : precedence < minPrecedence := by omega
      simp only [if_pos hlow]
      exact .pure rfl

/-- An expression that ends where the loop stops. -/
theorem yields_climb_end {minPrecedence : ℕ} (hstops : Stops level rest)
    (hlevel : level < minPrecedence ∨ level = 0) {parsed : Expression}
    (hparsed : parsed.erase = expr.erase) (hfuel : 1 ≤ fuel) :
    Yields (Parser.climb fuel minPrecedence parsed) [] rest (·.erase = expr.erase) := by
  obtain _ | more := fuel
  · omega
  refine (yields_climb_stop hstops hlevel parsed).mono ?_
  rintro value rfl
  exact hparsed

/-- An expression printed for a place is parsed: as the operand of `!`, and as an operand that the loop
over the operators goes on with. -/
structure Parses (expr : Expression) : Prop where
  unary : ∀ (fuel : ℕ) (rest : List TokenKind), Stops 6 rest →
    3 * (expr.kinds 6).length ≤ fuel →
      Yields (Parser.parseUnary fuel) (expr.kinds 6) rest (·.erase = expr.erase)
  operand : ∀ (level minPrecedence fuel : ℕ) (after rest : List TokenKind) (good : Expression → Prop),
    minPrecedence ≤ level → Stops level (after ++ rest) → 1 ≤ fuel →
      (∀ (fuel' : ℕ) (parsed : Expression), fuel ≤ fuel' → parsed.erase = expr.erase →
        Yields (Parser.climb fuel' minPrecedence parsed) after rest good) →
      Yields (Parser.parseExpression (fuel + 3 * (expr.kinds level).length) minPrecedence)
        (expr.kinds level ++ after) rest good

/-- A printed expression alone. -/
theorem Parses.alone (h : Parses expr) {place : ℕ} (hstops : Stops level rest)
    (hlevel : level < place ∨ level = 0) (hfuel : 3 * (expr.kinds place).length + 2 ≤ fuel) :
    Yields (Parser.parseExpression fuel place) (expr.kinds place) rest (·.erase = expr.erase) := by
  obtain ⟨more, rfl⟩ : ∃ more, fuel = more + 2 + 3 * (expr.kinds place).length :=
    ⟨fuel - 2 - 3 * (expr.kinds place).length, by omega⟩
  have hyields := h.operand place place (more + 2) [] rest (·.erase = expr.erase) le_rfl
    (hstops.mono (by omega)) (by omega) fun fuel' parsed hle hparsed ↦
      yields_climb_end hstops hlevel hparsed (by omega)
  rwa [List.append_nil] at hyields

/-- A whole printed expression. -/
theorem Parses.whole (h : Parses expr) (hstops : Stops 0 rest)
    (hfuel : 3 * (expr.kinds 0).length + 2 ≤ fuel) :
    Yields (Parser.parseExpression fuel 0) (expr.kinds 0) rest (·.erase = expr.erase) :=
  h.alone hstops (Or.inr rfl) hfuel

/-- What may follow any place may follow the operand of `!`. -/
theorem Stops.tightest (h : Stops level kinds) : Stops 6 kinds := by
  cases kinds with
  | nil => exact h
  | cons kind kinds =>
    refine ⟨h.1, fun op precedence hop ↦ ?_⟩
    have hle := (precedence_bounds hop).2
    omega

theorem kinds_ne_nil (expr : Expression) (level : ℕ) : 0 < (expr.kinds level).length := by
  cases expr with
  | literal value | name ident | call callee args span => simp [Expression.kinds]
  | unary op expr span => cases op; simp [Expression.kinds]
  | binary op left right span =>
    rw [Expression.kinds]
    split_ifs <;> simp [parenthesized]

/-- An expression that is printed alike for every place, from its parse as the operand of `!`. -/
theorem Parses.of_unary (hkinds : ∀ level, expr.kinds level = expr.kinds 6)
    (h : ∀ (fuel : ℕ) (rest : List TokenKind), Stops 6 rest → 3 * (expr.kinds 6).length ≤ fuel →
      Yields (Parser.parseUnary fuel) (expr.kinds 6) rest (·.erase = expr.erase)) :
    Parses expr where
  unary := h
  operand := by
    intro level minPrecedence fuel after rest good hle hstops hfuel hclimb
    obtain _ | more := fuel
    · omega
    have hpos := kinds_ne_nil expr 6
    rw [hkinds level, Nat.add_right_comm, Parser.parseExpression]
    exact (h _ _ hstops.tightest (by omega)).bind fun parsed hparsed ↦
      hclimb _ parsed (by omega) hparsed

/-- An expression that starts with a token other than `!` is a primary. -/
theorem yields_parseUnary_primary (hkind : kind ≠ .symbol .bang)
    (h : Yields (Parser.parsePrimary fuel) (kind :: kinds) rest good) :
    Yields (Parser.parseUnary (fuel + 1)) (kind :: kinds) rest good := by
  rw [Parser.parseUnary]
  refine .look fun parser hat ↦ ?_
  rw [Parser.At.atSymbol hat, if_neg (by simpa using hkind)]
  exact h

theorem parses_literal {value : Literal} : Parses (.literal value) := by
  refine .of_unary (fun _ ↦ rfl) fun fuel rest hstops hfuel ↦ ?_
  have hlength : ((Expression.literal value).kinds 6).length = 1 := rfl
  obtain ⟨more, rfl⟩ : ∃ more, fuel = more + 2 := ⟨fuel - 2, by omega⟩
  rw [Expression.kinds]
  refine yields_parseUnary_primary (by cases value <;> simp [Literal.kind]) ?_
  rw [Parser.parsePrimary]
  refine (yields_advance (by cases value <;> simp [Literal.kind])).last fun token htoken ↦ ?_
  rw [htoken]
  cases value with
  | bool value span => cases value <;> exact .pure rfl
  | integer text span | string text span => exact .pure rfl

/-- A name is parsed as an identifier, with a call if a parenthesis follows. -/
theorem yields_parsePrimary_ident {text : String} (hname : isName text = true)
    (h : ∀ ident : Ident, ident.text = text → Yields
      (Parser.matchSymbol .lParen >>= fun isCall ↦
        if isCall = true then Parser.parseArguments fuel >>= fun args ↦
          Parser.expectSymbol .rParen >>= fun stop ↦
            pure (.call ident args ⟨ident.span.start, stop.stop⟩)
        else pure (.name ident)) kinds rest good) :
    Yields (Parser.parsePrimary (fuel + 1)) (.ident text :: kinds) rest good := by
  have hkeyword : ¬ (text = "true" ∨ text = "false") := by
    have hnot := (Bool.and_eq_true_iff.mp hname).2
    rw [decide_eq_true_eq] at hnot
    rintro (rfl | rfl) <;> exact hnot (by decide)
  rw [Parser.parsePrimary]
  refine (yields_advance (by simp)).token fun token htoken ↦ ?_
  rw [htoken]
  simp only [if_neg hkeyword]
  exact h ⟨text, token.span⟩ rfl

theorem parses_name {ident : Ident} (h : isName ident.text = true) : Parses (.name ident) := by
  refine .of_unary (fun _ ↦ rfl) fun fuel rest hstops hfuel ↦ ?_
  have hlength : ((Expression.name ident).kinds 6).length = 1 := rfl
  obtain ⟨more, rfl⟩ : ∃ more, fuel = more + 2 := ⟨fuel - 2, by omega⟩
  rw [Expression.kinds]
  refine yields_parseUnary_primary (by simp) (yields_parsePrimary_ident h fun parsed hparsed ↦ ?_)
  cases rest with
  | nil => exact hstops.elim
  | cons kind rest =>
    refine (yields_matchKind_other hstops.1).last fun isCall hcall ↦ ?_
    rw [hcall]
    refine .pure ?_
    simp [Expression.erase, Ident.erase, hparsed]

theorem parses_not (h : Parses expr) : Parses (.unary .not expr span) := by
  refine .of_unary (fun _ ↦ rfl) fun fuel rest hstops hfuel ↦ ?_
  have hlength : ((Expression.unary .not expr span).kinds 6).length = (expr.kinds 6).length + 1 := rfl
  obtain _ | more := fuel
  · omega
  rw [Expression.kinds, Parser.parseUnary]
  refine .look fun parser hat ↦ ?_
  rw [Parser.At.atSymbol hat, if_pos (decide_eq_true rfl)]
  refine (yields_advance (by simp)).token fun token _ ↦ ?_
  refine (h.unary more rest hstops (by omega)).last fun parsed hparsed ↦ .pure ?_
  simp [Expression.erase, hparsed]

/-- The arguments of a call, if there are any. -/
theorem yields_parseMoreArguments (exprs : List Expression) : ∀ (expr : Expression) (fuel : ℕ)
    (rest : List TokenKind), (∀ argument ∈ expr :: exprs, Parses argument) →
      3 * (argumentKinds (expr :: exprs)).length + 3 ≤ fuel →
        Yields (Parser.parseMoreArguments fuel) (argumentKinds (expr :: exprs)) (.symbol .rParen :: rest)
          (eraseExpressions · = eraseExpressions (expr :: exprs)) := by
  induction exprs with
  | nil =>
    intro expr fuel rest hparses hfuel
    have hkinds : argumentKinds [expr] = expr.kinds 0 := by simp [argumentKinds, moreArgumentKinds]
    rw [hkinds] at hfuel ⊢
    obtain _ | more := fuel
    · omega
    rw [Parser.parseMoreArguments]
    refine ((hparses expr (List.mem_cons_self ..)).whole (stops_of_none (by simp) rfl _ _)
      (by omega)).last fun parsed hparsed ↦ ?_
    refine (yields_matchKind_other (by simp)).last fun isMore hmore ↦ ?_
    rw [hmore]
    exact .pure (by simp [eraseExpressions, hparsed])
  | cons second exprs ih =>
    intro expr fuel rest hparses hfuel
    have hkinds : argumentKinds (expr :: second :: exprs) =
        expr.kinds 0 ++ .symbol .comma :: argumentKinds (second :: exprs) := by
      simp [argumentKinds, moreArgumentKinds]
    rw [hkinds] at hfuel ⊢
    rw [List.length_append, List.length_cons] at hfuel
    obtain _ | more := fuel
    · omega
    have hpos := kinds_ne_nil expr 0
    rw [Parser.parseMoreArguments]
    refine ((hparses expr (List.mem_cons_self ..)).whole (stops_of_none (by simp) rfl _ _)
      (by omega)).bind fun parsed hparsed ↦ ?_
    refine (yields_matchKind (by simp)).token fun isMore hmore ↦ ?_
    rw [hmore]
    refine (ih second more rest (fun argument hargument ↦ hparses argument
      (List.mem_cons_of_mem _ hargument)) (by omega)).last fun args hargs ↦ .pure ?_
    rw [eraseExpressions, hparsed, hargs, eraseExpressions.eq_def (expr :: _)]

/-- A kind that an expression may start with. -/
def StartsExpression (kind : TokenKind) : Prop :=
  kind ≠ .symbol .rParen ∧ kind ≠ .symbol .rBrace ∧ kind ≠ .eof ∧
    ∀ word ∈ ["let", "if", "while", "return", "else"], kind ≠ .ident word

theorem startsExpression_name {text : String} (h : isName text = true) :
    StartsExpression (.ident text) := by
  refine ⟨by simp, by simp, by simp, fun word hword heq ↦ ?_⟩
  obtain rfl : text = word := by simpa using heq
  have hnot := (Bool.and_eq_true_iff.mp h).2
  have hsub : ∀ word ∈ ["let", "if", "while", "return", "else"], word ∈ keywords := by decide
  exact of_decide_eq_true hnot (hsub text hword)

theorem startsExpression_kinds (expr : Expression) (level : ℕ) (h : expr.isPrintable = true) :
    ∃ kind kinds, expr.kinds level = kind :: kinds ∧ StartsExpression kind := by
  cases expr with
  | literal value =>
    refine ⟨_, _, by rw [Expression.kinds], ?_⟩
    cases value with
    | bool value span => cases value <;> simp [Literal.kind, StartsExpression]
    | integer text span | string text span => simp [Literal.kind, StartsExpression]
  | name ident =>
    rw [Expression.isPrintable] at h
    exact ⟨_, _, by rw [Expression.kinds], startsExpression_name h⟩
  | call callee args span =>
    rw [Expression.isPrintable, Bool.and_eq_true] at h
    exact ⟨_, _, by rw [Expression.kinds], startsExpression_name h.1⟩
  | unary op expr span =>
    cases op
    exact ⟨_, _, by rw [Expression.kinds], by simp [StartsExpression]⟩
  | binary op left right span =>
    rw [Expression.isPrintable, Bool.and_eq_true] at h
    rw [Expression.kinds]
    split_ifs
    · exact ⟨_, _, rfl, by simp [StartsExpression]⟩
    · obtain ⟨kind, kinds, hkinds, hstarts⟩ := startsExpression_kinds left op.precedence h.1
      exact ⟨kind, _, by rw [hkinds, List.cons_append], hstarts⟩

theorem yields_parseArguments {args : List Expression} (hprintable : allPrintable args = true)
    (hargs : ∀ argument ∈ args, Parses argument)
    (hfuel : 3 * (argumentKinds args).length + 4 ≤ fuel) :
    Yields (Parser.parseArguments fuel) (argumentKinds args) (.symbol .rParen :: rest)
      (eraseExpressions · = eraseExpressions args) := by
  obtain _ | more := fuel
  · omega
  rw [Parser.parseArguments]
  refine .look fun parser hat ↦ ?_
  cases args with
  | nil =>
    rw [Parser.At.atSymbol hat, if_pos (decide_eq_true rfl)]
    exact .pure rfl
  | cons expr exprs =>
    rw [allPrintable, Bool.and_eq_true] at hprintable
    obtain ⟨kind, kinds, hkinds, hstarts⟩ := startsExpression_kinds expr 0 hprintable.1
    rw [argumentKinds, hkinds] at hat
    rw [Parser.At.atSymbol hat, if_neg (by simpa using hstarts.1)]
    exact yields_parseMoreArguments exprs expr more rest hargs (by omega)

theorem parses_call {callee : Ident} {args : List Expression} (hname : isName callee.text = true)
    (hprintable : allPrintable args = true) (hargs : ∀ argument ∈ args, Parses argument) :
    Parses (.call callee args span) := by
  refine .of_unary (fun _ ↦ rfl) fun fuel rest hstops hfuel ↦ ?_
  rw [Expression.kinds] at hfuel ⊢
  simp only [parenthesized, List.length_cons, List.length_append, List.length_nil] at hfuel
  obtain ⟨more, rfl⟩ : ∃ more, fuel = more + 2 := ⟨fuel - 2, by omega⟩
  refine yields_parseUnary_primary (by simp) (yields_parsePrimary_ident hname fun parsed hparsed ↦ ?_)
  refine (yields_matchKind (by simp)).token fun isCall hcall ↦ ?_
  rw [hcall]
  refine (yields_parseArguments hprintable hargs (by omega)).bind fun list hlist ↦ ?_
  refine .symbol fun stop ↦ .pure ?_
  simp [Expression.erase, Ident.erase, hparsed, hlist]

/-- The tokens of a binary expression without parentheses. -/
def binaryKinds (op : BinaryOp) (left right : Expression) : List TokenKind :=
  left.kinds op.precedence ++ .symbol op.symbol :: right.kinds (op.precedence + 1)

/-- A binary expression without parentheses: the left operand is parsed, the loop takes the operator,
whose right operand ends where the expression does, and goes on with the expression. -/
theorem yields_binary {left right : Expression} (span : Span) (hleft : Parses left)
    (hright : Parses right) {minPrecedence : ℕ} {after : List TokenKind}
    (hle : minPrecedence ≤ op.precedence) (hstops : Stops op.precedence (after ++ rest))
    (hfuel : 1 ≤ fuel) (hclimb : ∀ (fuel' : ℕ) (parsed : Expression), fuel ≤ fuel' →
      parsed.erase = (Expression.binary op left right span).erase →
        Yields (Parser.climb fuel' minPrecedence parsed) after rest good) :
    Yields (Parser.parseExpression (fuel + 3 * (binaryKinds op left right).length) minPrecedence)
      (binaryKinds op left right ++ after) rest good := by
  have hsplit : fuel + 3 * (binaryKinds op left right).length =
      fuel + 3 + 3 * (right.kinds (op.precedence + 1)).length +
        3 * (left.kinds op.precedence).length := by
    rw [binaryKinds, List.length_append, List.length_cons]
    omega
  rw [hsplit, binaryKinds, List.append_assoc, List.cons_append]
  refine hleft.operand op.precedence minPrecedence _ _ rest good hle (stops_symbol op _) (by omega) ?_
  intro fuel' parsedLeft hfuel' hparsedLeft
  obtain ⟨more, rfl⟩ : ∃ more, fuel' = more + 1 := ⟨fuel' - 1, by omega⟩
  rw [Parser.climb]
  refine .look fun parser hat ↦ ?_
  have hpeek : parser.peekBinaryOp = some (op, op.precedence) := by
    rw [Parser.peekBinaryOp, Parser.At.peek hat, binaryOp_symbol]
  rw [hpeek]
  simp only [if_neg (not_lt.mpr hle)]
  refine (yields_advance (by simp)).token fun token _ ↦ ?_
  refine (hright.alone hstops (Or.inl (Nat.lt_add_one _)) (by omega)).bind fun parsedRight hparsedRight ↦ ?_
  refine hclimb more _ (by omega) ?_
  rw [Expression.erase, hparsedLeft, hparsedRight, Expression.erase.eq_def (.binary ..)]

theorem parses_binary {left right : Expression} (hleft : Parses left) (hright : Parses right) :
    Parses (.binary op left right span) := by
  have hparen : ∀ (fuel : ℕ) (rest : List TokenKind),
      3 * (parenthesized (binaryKinds op left right)).length ≤ fuel →
        Yields (Parser.parseUnary fuel) (parenthesized (binaryKinds op left right)) rest
          (·.erase = (Expression.binary op left right span).erase) := by
    intro fuel rest hfuel
    simp only [parenthesized, List.length_cons, List.length_append, List.length_nil] at hfuel
    obtain ⟨more, rfl⟩ : ∃ more, fuel = more + 2 + 3 * (binaryKinds op left right).length + 2 :=
      ⟨fuel - 4 - 3 * (binaryKinds op left right).length, by omega⟩
    refine yields_parseUnary_primary (by simp) ?_
    rw [Parser.parsePrimary]
    refine (yields_advance (by simp)).token fun token htoken ↦ ?_
    rw [htoken]
    have hinner : Yields (Parser.parseExpression (more + 2 + 3 * (binaryKinds op left right).length) 0)
        (binaryKinds op left right ++ []) (.symbol .rParen :: rest)
        (·.erase = (Expression.binary op left right span).erase) := by
      refine yields_binary span hleft hright (Nat.zero_le _)
        (stops_of_none (by simp) rfl op.precedence rest) (by omega) fun fuel' parsed hfuel' hparsed ↦ ?_
      exact yields_climb_end (stops_of_none (by simp) rfl 0 rest) (Or.inr rfl) hparsed (by omega)
    rw [List.append_nil] at hinner
    refine hinner.bind fun parsed hparsed ↦ ?_
    exact .symbol fun _ ↦ .pure hparsed
  have hsix : (Expression.binary op left right span).kinds 6 =
      parenthesized (binaryKinds op left right) := by
    rw [Expression.kinds, if_pos (by cases op <;> decide)]
    rfl
  constructor
  · intro fuel rest hstops hfuel
    rw [hsix] at hfuel ⊢
    exact hparen fuel rest hfuel
  · intro level minPrecedence fuel after rest good hle hstops hfuel hclimb
    rw [Expression.kinds]
    split_ifs with hlow
    · change Yields (Parser.parseExpression
        (fuel + 3 * (parenthesized (binaryKinds op left right)).length) minPrecedence)
        (parenthesized (binaryKinds op left right) ++ after) rest good
      obtain _ | more := fuel
      · omega
      have hpos : 0 < (parenthesized (binaryKinds op left right)).length := by simp [parenthesized]
      rw [Nat.add_right_comm, Parser.parseExpression]
      exact (hparen _ _ (by omega)).bind fun parsed hparsed ↦ hclimb _ parsed (by omega) hparsed
    · have hlevel : level ≤ op.precedence := not_lt.mp hlow
      exact yields_binary span hleft hright (hle.trans hlevel) (hstops.mono hlevel) hfuel hclimb

mutual

theorem Expression.parses : ∀ expr : Expression, expr.isPrintable = true → Parses expr
  | .literal _, _ => parses_literal
  | .name _, h => by
    rw [Expression.isPrintable] at h
    exact parses_name h
  | .call _ args _, h => by
    rw [Expression.isPrintable, Bool.and_eq_true] at h
    exact parses_call h.1 h.2 (parses_arguments args h.2)
  | .unary .not expr _, h => by
    rw [Expression.isPrintable] at h
    exact parses_not (Expression.parses expr h)
  | .binary _ left right _, h => by
    rw [Expression.isPrintable, Bool.and_eq_true] at h
    exact parses_binary (Expression.parses left h.1) (Expression.parses right h.2)

theorem parses_arguments : ∀ args : List Expression, allPrintable args = true →
    ∀ argument ∈ args, Parses argument
  | [], _ => by simp
  | expr :: exprs, h => by
    rw [allPrintable, Bool.and_eq_true] at h
    rw [List.forall_mem_cons]
    exact ⟨Expression.parses expr h.1, parses_arguments exprs h.2⟩

end

/-! ### Statements -/

/-- What may follow a statement: a token, and not a second branch. -/
def Ends (rest : List TokenKind) : Prop := ∃ kind kinds, rest = kind :: kinds ∧ kind ≠ .ident "else"

/-- A printed statement is parsed. -/
structure StatementParses (statement : Statement) : Prop where
  starts : ∃ kind kinds, statement.kinds = kind :: kinds ∧ kind ≠ .symbol .rBrace ∧ kind ≠ .eof ∧
    kind ≠ .ident "else"
  parses : ∀ (fuel : ℕ) (rest : List TokenKind), Ends rest → 3 * statement.kinds.length ≤ fuel →
    Yields (Parser.parseStatement fuel) statement.kinds rest (·.erase = statement.erase)

theorem yields_parseType (type : TypeName) :
    Yields Parser.parseType [.ident type.spelling] rest (· = type) := by
  refine .ident fun ident hident ↦ ?_
  have hlookup : Parser.typeSpellings.lookup ident.text = some type := by
    rw [hident]
    cases type <;> decide
  rw [hlookup]
  exact .pure rfl

theorem statementParses_let {name : Ident} {type : TypeName} {value : Expression}
    (hvalue : Parses value) : StatementParses (.letLocal name type value span) := by
  refine ⟨⟨_, _, by rw [Statement.kinds], by simp⟩, fun fuel rest hends hfuel ↦ ?_⟩
  rw [Statement.kinds] at hfuel ⊢
  simp only [List.length_append, List.length_cons, List.length_nil] at hfuel
  obtain _ | more := fuel
  · omega
  rw [Parser.parseStatement]
  refine .look fun parser hat ↦ ?_
  rw [hat.atKeyword, if_pos (by simp)]
  refine .keyword fun start ↦ ?_
  refine .ident fun parsedName hname ↦ ?_
  refine .symbol fun _ ↦ ?_
  refine (yields_parseType type).token fun parsedType htype ↦ ?_
  refine .symbol fun _ ↦ ?_
  refine (hvalue.whole (stops_of_none (by simp) rfl _ _) (by omega)).bind fun parsed hparsed ↦ ?_
  refine .symbol fun stop ↦ .pure ?_
  simp [Statement.erase, Ident.erase, hname, htype, hparsed]

theorem statementParses_ret : StatementParses (.ret span) := by
  refine ⟨⟨_, _, by rw [Statement.kinds], by simp⟩, fun fuel rest hends hfuel ↦ ?_⟩
  rw [Statement.kinds] at hfuel ⊢
  simp only [List.length_cons, List.length_nil] at hfuel
  obtain _ | more := fuel
  · omega
  rw [Parser.parseStatement]
  refine .look fun parser hat ↦ ?_
  rw [hat.atKeyword, hat.atKeyword, hat.atKeyword, hat.atKeyword, if_neg (by simp), if_neg (by simp),
    if_neg (by simp), if_pos (by simp)]
  refine (yields_advance (by simp)).token fun token _ ↦ ?_
  exact .symbol fun stop ↦ .pure (by simp [Statement.erase])

theorem statementParses_expr (hprintable : expr.isPrintable = true) (hexpr : Parses expr) :
    StatementParses (.expr expr) := by
  obtain ⟨kind, kinds, hkinds, -, hbrace, heof, hwords⟩ := startsExpression_kinds expr 0 hprintable
  have hword : ∀ word ∈ ["let", "if", "while", "return", "else"], ¬ decide (kind = .ident word) = true :=
    fun word hmem ↦ by simpa using hwords word hmem
  refine ⟨⟨kind, _, by rw [Statement.kinds, hkinds, List.cons_append], hbrace, heof,
    hwords "else" (by simp)⟩, fun fuel rest hends hfuel ↦ ?_⟩
  rw [Statement.kinds] at hfuel ⊢
  simp only [List.length_append, List.length_cons, List.length_nil] at hfuel
  obtain _ | more := fuel
  · omega
  rw [Parser.parseStatement]
  refine .look fun parser hat ↦ ?_
  have hat' : parser.At (kind :: (kinds ++ [.symbol .semicolon] ++ rest)) := by
    rw [hkinds] at hat
    exact hat
  rw [hat'.atKeyword, hat'.atKeyword, hat'.atKeyword, hat'.atKeyword, if_neg (hword "let" (by simp)),
    if_neg (hword "if" (by simp)), if_neg (hword "while" (by simp)), if_neg (hword "return" (by simp))]
  refine (hexpr.whole (stops_of_none (by simp) rfl _ _) (by omega)).bind fun parsed hparsed ↦ ?_
  exact .symbol fun _ ↦ .pure (by simp [Statement.erase, hparsed])

/-- The statements of a block, up to its closing brace. -/
theorem yields_parseStatements (statements : List Statement) : ∀ (fuel : ℕ) (rest : List TokenKind),
    (∀ statement ∈ statements, StatementParses statement) →
      3 * (statementKinds statements).length + 1 ≤ fuel →
        Yields (Parser.parseStatements fuel) (statementKinds statements) (.symbol .rBrace :: rest)
          (eraseStatements · = eraseStatements statements) := by
  induction statements with
  | nil =>
    intro fuel rest _ hfuel
    obtain _ | more := fuel
    · omega
    rw [Parser.parseStatements]
    refine .look fun parser hat ↦ ?_
    rw [Parser.At.atSymbol hat, if_pos (by simp)]
    exact .pure rfl
  | cons statement statements ih =>
    intro fuel rest hparses hfuel
    obtain ⟨kind, kinds, hkinds, hbrace, heof, helse⟩ :=
      (hparses statement (List.mem_cons_self ..)).starts
    rw [statementKinds] at hfuel ⊢
    have hpos : 0 < statement.kinds.length := by simp [hkinds]
    rw [List.length_append] at hfuel
    obtain _ | more := fuel
    · omega
    rw [Parser.parseStatements]
    refine .look fun parser hat ↦ ?_
    have hat' : parser.At (kind :: (kinds ++ statementKinds statements ++ .symbol .rBrace :: rest)) := by
      rw [hkinds] at hat
      exact hat
    rw [hat'.atSymbol, hat'.isEof, if_neg (by simp [hbrace, heof])]
    have hends : Ends (statementKinds statements ++ .symbol .rBrace :: rest) := by
      cases statements with
      | nil => exact ⟨_, _, rfl, by simp⟩
      | cons next statements =>
        obtain ⟨nextKind, nextKinds, hnext, -, -, hnextElse⟩ :=
          (hparses next (List.mem_cons_of_mem _ (List.mem_cons_self ..))).starts
        exact ⟨nextKind, _, by rw [statementKinds, hnext]; rfl, hnextElse⟩
    refine ((hparses statement (List.mem_cons_self ..)).parses more _ hends (by omega)).bind
      fun parsed hparsed ↦ ?_
    refine (ih more rest (fun other hother ↦ hparses other (List.mem_cons_of_mem _ hother))
      (by omega)).last fun list hlist ↦ .pure ?_
    rw [eraseStatements, hparsed, hlist, eraseStatements.eq_def (statement :: _)]

theorem yields_parseBlock (hparses : ∀ statement ∈ statements, StatementParses statement)
    (hfuel : 3 * (blockKinds (statementKinds statements)).length ≤ fuel) :
    Yields (Parser.parseBlock fuel) (blockKinds (statementKinds statements)) rest
      (eraseStatements ·.1 = eraseStatements statements) := by
  simp only [blockKinds, List.length_cons, List.length_append, List.length_nil] at hfuel
  obtain _ | more := fuel
  · omega
  rw [Parser.parseBlock]
  refine .symbol fun _ ↦ ?_
  refine (yields_parseStatements statements more rest hparses (by omega)).bind fun list hlist ↦ ?_
  exact .symbol fun stop ↦ .pure hlist

theorem stops_blockKinds (kinds rest : List TokenKind) : Stops 0 (blockKinds kinds ++ rest) :=
  stops_of_none (by simp) rfl 0 _

/-- The else branch of a statement, with the statements of a branch that is not empty. -/
theorem statementParses_if {condition : Expression} {thenStatements elseStatements : List Statement}
    (hcondition : Parses condition)
    (hthen : ∀ statement ∈ thenStatements, StatementParses statement)
    (helse : ∀ statement ∈ elseStatements, StatementParses statement) :
    StatementParses (.ifElse condition thenStatements elseStatements span) := by
  cases elseStatements with
  | nil =>
    refine ⟨⟨_, _, by rw [Statement.kinds], by simp⟩, fun fuel rest hends hfuel ↦ ?_⟩
    rw [Statement.kinds] at hfuel ⊢
    simp only [List.length_cons, List.length_append] at hfuel
    obtain ⟨more, rfl⟩ : ∃ more, fuel = more + 2 := ⟨fuel - 2, by omega⟩
    have hblock : 2 ≤ (blockKinds (statementKinds thenStatements)).length := by simp [blockKinds]
    rw [Parser.parseStatement]
    refine .look fun parser hat ↦ ?_
    rw [hat.atKeyword, hat.atKeyword, if_neg (by simp), if_pos (by simp), Parser.parseIf]
    refine .keyword fun start ↦ ?_
    refine (hcondition.whole (stops_blockKinds _ _) (by omega)).bind fun parsed hparsed ↦ ?_
    refine (yields_parseBlock hthen (by omega)).last fun block hlist ↦ ?_
    obtain ⟨list, stop⟩ := block
    obtain ⟨kind, kinds, rfl, hkind⟩ := hends
    refine (yields_matchKind_other hkind).last fun isElse hisElse ↦ ?_
    rw [hisElse]
    refine .pure ?_
    rw [Statement.erase, hparsed, hlist, Statement.erase.eq_def (.ifElse ..)]
  | cons first others =>
    have hkinds : (Statement.ifElse condition thenStatements (first :: others) span).kinds =
        .ident "if" :: (condition.kinds 0 ++ (blockKinds (statementKinds thenStatements) ++
          .ident "else" :: blockKinds (statementKinds (first :: others)))) := by
      rw [Statement.kinds, statementKinds.eq_def (first :: others)]
    refine ⟨⟨_, _, hkinds, by simp⟩, fun fuel rest hends hfuel ↦ ?_⟩
    rw [hkinds] at hfuel ⊢
    simp only [List.length_cons, List.length_append] at hfuel
    obtain ⟨more, rfl⟩ : ∃ more, fuel = more + 2 := ⟨fuel - 2, by omega⟩
    rw [Parser.parseStatement]
    refine .look fun parser hat ↦ ?_
    rw [hat.atKeyword, hat.atKeyword, if_neg (by simp), if_pos (by simp), Parser.parseIf]
    refine .keyword fun start ↦ ?_
    refine (hcondition.whole (List.append_assoc .. ▸ stops_blockKinds _ _) (by omega)).bind
      fun parsed hparsed ↦ ?_
    refine (yields_parseBlock hthen (by omega)).bind fun block hlist ↦ ?_
    obtain ⟨list, stop⟩ := block
    refine (yields_matchKind (by simp)).token fun isElse hisElse ↦ ?_
    rw [hisElse]
    refine (yields_parseBlock helse (by omega)).last fun block hothers ↦ ?_
    obtain ⟨otherList, otherStop⟩ := block
    refine .pure ?_
    rw [Statement.erase, hparsed, hlist, hothers, Statement.erase.eq_def (.ifElse ..)]

theorem statementParses_while {budget : UInt64} {condition : Expression} (hbudget : budget ≠ 0)
    (hcondition : Parses condition) (hbody : ∀ statement ∈ statements, StatementParses statement) :
    StatementParses (.whileLoop budget condition statements span) := by
  refine ⟨⟨_, _, by rw [Statement.kinds], by simp⟩, fun fuel rest hends hfuel ↦ ?_⟩
  rw [Statement.kinds] at hfuel ⊢
  simp only [List.length_cons, List.length_append] at hfuel
  obtain ⟨more, rfl⟩ : ∃ more, fuel = more + 2 := ⟨fuel - 2, by omega⟩
  rw [Parser.parseStatement]
  refine .look fun parser hat ↦ ?_
  rw [hat.atKeyword, hat.atKeyword, hat.atKeyword, if_neg (by simp), if_neg (by simp), if_pos (by simp),
    Parser.parseWhile]
  refine .keyword fun start ↦ ?_
  refine (yields_matchKind (by simp)).token fun isBudget hisBudget ↦ ?_
  rw [hisBudget]
  refine (yields_advance (by simp)).token fun token htoken ↦ ?_
  have hread : Parser.loopBudget token = pure budget := by
    have hparse : parseU64 (decimalText budget) = some budget := by
      rw [parseU64, decimalText, String.toList_ofList]
      exact fromStrRadix_numeral (Or.inl rfl) budget
    rw [Parser.loopBudget, htoken]
    simp only [hparse, if_neg hbudget]
  rw [hread]
  have hpure : ∀ rest, Yields (pure budget : Parse UInt64) [] rest (· = budget) := fun _ ↦ .pure rfl
  refine (hpure _).stay fun parsedBudget hparsedBudget ↦ ?_
  refine (hcondition.whole (stops_blockKinds _ _) (by omega)).bind fun parsed hparsed ↦ ?_
  refine (yields_parseBlock hbody (by omega)).last fun block hlist ↦ ?_
  obtain ⟨list, stop⟩ := block
  refine .pure ?_
  rw [Statement.erase, hparsedBudget, hparsed, hlist, Statement.erase.eq_def (.whileLoop ..)]

mutual

theorem Statement.parses : ∀ statement : Statement, statement.isPrintable = true →
    StatementParses statement
  | .letLocal _ _ value _, h => by
    rw [Statement.isPrintable, Bool.and_eq_true] at h
    exact statementParses_let (Expression.parses value h.2)
  | .ifElse condition thenStatements elseStatements _, h => by
    rw [Statement.isPrintable, Bool.and_eq_true, Bool.and_eq_true] at h
    exact statementParses_if (Expression.parses condition h.1) (parses_statements thenStatements h.2.1)
      (parses_statements elseStatements h.2.2)
  | .whileLoop _ condition statements _, h => by
    rw [Statement.isPrintable, Bool.and_eq_true, Bool.and_eq_true] at h
    exact statementParses_while (of_decide_eq_true h.1) (Expression.parses condition h.2.1)
      (parses_statements statements h.2.2)
  | .expr expr, h => by
    rw [Statement.isPrintable] at h
    exact statementParses_expr h (Expression.parses expr h)
  | .ret _, _ => statementParses_ret

theorem parses_statements : ∀ statements : List Statement, allStatementsPrintable statements = true →
    ∀ statement ∈ statements, StatementParses statement
  | [], _ => by simp
  | statement :: statements, h => by
    rw [allStatementsPrintable, Bool.and_eq_true] at h
    rw [List.forall_mem_cons]
    exact ⟨Statement.parses statement h.1, parses_statements statements h.2⟩

end

/-! ### Programs -/

theorem trimStart_of_notMem {first second : Char} {text : List Char} (h : second ∉ text) :
    Parser.trimStart first second text = text := by
  unfold Parser.trimStart
  split
  · rename_i char char' rest
    rw [if_neg]
    rintro ⟨-, rfl⟩
    exact h (by simp)
  · rfl

theorem yields_parsePrincipal (principal : UInt64) :
    Yields Parser.parsePrincipal [.hex (hexText principal)] rest (· = principal) := by
  refine (yields_advance (by simp)).last fun token htoken ↦ ?_
  obtain ⟨hne, hdigits⟩ := numeral_chars (Or.inr rfl) Lexer.isHexDigit (by decide) principal.toNat
  have hnot : ∀ sign : Char, Lexer.isHexDigit sign = false → sign ∉ numeral 16 principal.toNat := by
    intro sign hsign hmem
    rw [hdigits sign hmem] at hsign
    cases hsign
  have htrim : Parser.trimStart '0' 'X' (Parser.trimStart '0' 'x' (hexText principal).toList) =
      numeral 16 principal.toNat := by
    rw [hexText, String.toList_ofList, Parser.trimStart, if_pos ⟨rfl, rfl⟩,
      trimStart_of_notMem (hnot 'x' (by decide)), trimStart_of_notMem (hnot 'X' (by decide))]
  rw [htoken]
  simp only [htrim, if_neg hne, fromStrRadix_numeral (Or.inr rfl)]
  exact .pure rfl

/-- The rights behind the first one, appended to it. -/
theorem yields_parseRights (rights : List (List Char)) : ∀ (fuel : ℕ) (before : String)
    (rest : List TokenKind), rights.length + 1 ≤ fuel →
      Yields (Parser.parseRights fuel before) (moreRightKinds rights) (.symbol .greater :: rest)
        (·.toList = before.toList ++ rights.flatMap ('|' :: ·)) := by
  induction rights with
  | nil =>
    intro fuel before rest hfuel
    obtain _ | more := fuel
    · omega
    rw [Parser.parseRights]
    refine (yields_matchKind_other (by simp)).last fun isMore hmore ↦ ?_
    rw [hmore]
    exact .pure (by simp)
  | cons right rights ih =>
    intro fuel before rest hfuel
    rw [List.length_cons] at hfuel
    obtain _ | more := fuel
    · omega
    rw [Parser.parseRights]
    refine (yields_matchKind (by simp)).token fun isMore hmore ↦ ?_
    rw [hmore]
    refine .ident fun ident hident ↦ ?_
    refine (ih more _ rest (by omega)).mono fun parsed hparsed ↦ ?_
    rw [hparsed, hident]
    simp

theorem intercalate_eq_append (first : List Char) (rights : List (List Char)) :
    ['|'].intercalate (first :: rights) = first ++ rights.flatMap ('|' :: ·) := by
  induction rights generalizing first with
  | nil => simp [List.intercalate]
  | cons right rights ih =>
    have hcons : ['|'].intercalate (first :: right :: rights) =
        first ++ '|' :: ['|'].intercalate (right :: rights) := by
      simp [List.intercalate, List.intersperse]
    rw [hcons, ih, List.flatMap_cons, List.cons_append]

theorem length_moreRightKinds (rights : List (List Char)) :
    (moreRightKinds rights).length = 2 * rights.length := by
  induction rights with
  | nil => rfl
  | cons right rights ih =>
    rw [moreRightKinds] at ih
    rw [moreRightKinds, List.flatMap_cons, List.length_append, ih]
    simp
    omega

theorem yields_parseImport {record : ImportDecl} {imports : List ImportDecl}
    (hfresh : ∀ other ∈ imports, other.name.text ≠ record.name.text)
    (hfuel : record.kinds.length ≤ fuel) :
    Yields (Parser.parseImport fuel imports) record.kinds rest (·.erase = record.erase) := by
  rw [ImportDecl.kinds] at hfuel ⊢
  cases hrights : rightsOf record.rights with
  | nil => exact absurd hrights (List.splitOn_ne_nil _ _)
  | cons right rights =>
    rw [hrights, rightKinds] at hfuel
    simp only [List.length_cons, List.length_append, length_moreRightKinds] at hfuel
    rw [rightKinds]
    have hvalue : record.rights.toList = right ++ rights.flatMap ('|' :: ·) := by
      rw [← intercalate_eq_append, ← hrights, rightsOf, List.intercalate_splitOn]
    refine .keyword fun start ↦ ?_
    refine .ident fun name hname ↦ ?_
    have hany : ¬ imports.any (fun other ↦ other.name.text = name.text) = true := by
      rw [List.any_eq_true]
      rintro ⟨other, hother, heq⟩
      exact hfresh other hother ((of_decide_eq_true heq).trans hname)
    rw [if_neg hany]
    refine .symbol fun _ ↦ ?_
    refine .keyword fun _ ↦ ?_
    refine .symbol fun _ ↦ ?_
    refine .ident fun resource hresource ↦ ?_
    refine .symbol fun _ ↦ ?_
    refine .ident fun first hfirst ↦ ?_
    refine (yields_parseRights rights fuel first.text _ (by omega)).bind fun parsed hparsed ↦ ?_
    refine .symbol fun _ ↦ ?_
    refine .symbol fun stop ↦ .pure ?_
    have heq : parsed = record.rights := by
      rw [← String.toList_inj, hparsed, hvalue, hfirst, String.toList_ofList]
    simp [ImportDecl.erase, Ident.erase, hname, hresource, heq]

theorem yields_parseImports (records : List ImportDecl) : ∀ (fuel : ℕ) (imports : List ImportDecl)
    (rest : List TokenKind),
      ((imports ++ records).map fun record ↦ record.name.text).Nodup →
        (records.flatMap ImportDecl.kinds).length + 1 ≤ fuel →
          Yields (Parser.parseImports fuel imports) (records.flatMap ImportDecl.kinds)
            (.ident "fn" :: rest)
            (·.map ImportDecl.erase = (imports ++ records).map ImportDecl.erase) := by
  induction records with
  | nil =>
    intro fuel imports rest hnodup hfuel
    obtain _ | more := fuel
    · omega
    rw [Parser.parseImports]
    refine .look fun parser hat ↦ ?_
    rw [Parser.At.atKeyword hat, if_neg (by simp)]
    exact .pure (by simp)
  | cons record records ih =>
    intro fuel imports rest hnodup hfuel
    rw [List.flatMap_cons] at hfuel ⊢
    rw [List.length_append] at hfuel
    have hpos : 0 < record.kinds.length := by simp [ImportDecl.kinds]
    obtain _ | more := fuel
    · omega
    rw [Parser.parseImports]
    refine .look fun parser hat ↦ ?_
    rw [ImportDecl.kinds] at hat
    rw [Parser.At.atKeyword hat, if_pos (by simp)]
    have hfresh : ∀ other ∈ imports, other.name.text ≠ record.name.text := by
      intro other hother heq
      rw [List.map_append, List.map_cons, List.nodup_append] at hnodup
      exact hnodup.2.2 _ (List.mem_map_of_mem hother) _ (List.mem_cons_self ..) heq
    refine (yields_parseImport hfresh (by omega)).bind fun parsed hparsed ↦ ?_
    have hname : parsed.name.text = record.name.text := by
      have h := congrArg (fun declared : ImportDecl ↦ declared.name.text) hparsed
      exact h
    refine (ih more (imports ++ [parsed]) rest ?_ (by omega)).mono fun list hlist ↦ ?_
    · simpa [hname] using hnodup
    · rw [hlist]
      simp [hparsed]

theorem yields_parseFunction (hparses : ∀ statement ∈ statements, StatementParses statement)
    (hfuel : 3 * (blockKinds (statementKinds statements)).length ≤ fuel) :
    Yields (Parser.parseFunctionAfterFn fuel false)
      (functionKinds (statementKinds statements)) rest
      (eraseStatements ·.statements = eraseStatements statements) := by
  refine .keyword fun start ↦ ?_
  refine .ident fun name hname ↦ ?_
  rw [if_neg (not_not.mpr hname), if_neg (by simp)]
  refine .symbol fun _ ↦ ?_
  refine .symbol fun _ ↦ ?_
  refine .symbol fun _ ↦ ?_
  refine .keyword fun _ ↦ ?_
  refine (yields_parseBlock hparses hfuel).last fun block hlist ↦ ?_
  obtain ⟨list, stop⟩ := block
  exact .pure hlist

/-- The main function is the only one. -/
theorem yields_parseFunctions (hparses : ∀ statement ∈ statements, StatementParses statement)
    (hfuel : 3 * (blockKinds (statementKinds statements)).length + 2 ≤ fuel) :
    Yields (Parser.parseFunctions fuel none)
      (functionKinds (statementKinds statements)) (.symbol .rBrace :: rest)
      (∃ main, · = some main ∧ eraseStatements main.statements = eraseStatements statements) := by
  obtain ⟨more, rfl⟩ : ∃ more, fuel = more + 2 := ⟨fuel - 2, by omega⟩
  rw [Parser.parseFunctions]
  refine .look fun parser hat ↦ ?_
  rw [Parser.At.atSymbol hat, Parser.At.isEof hat, Parser.At.atKeyword hat, if_neg (by simp),
    if_neg (by simp)]
  refine (yields_parseFunction hparses (by omega)).last fun main hmain ↦ ?_
  rw [if_neg (by simp), Parser.parseFunctions]
  refine .look fun parser hat ↦ ?_
  rw [Parser.At.atSymbol hat, if_pos (by simp)]
  exact .pure ⟨main, rfl, hmain⟩

theorem yields_expectEof : Yields Parser.expectEof [] [.eof] fun _ ↦ True := by
  refine .look fun parser hat ↦ ?_
  rw [Parser.At.isEof hat, if_pos (by simp)]
  exact .pure trivial

theorem yields_parseProgram {program : Program} (h : program.isPrintable = true)
    (hfuel : 3 * program.kinds.length ≤ fuel) :
    Yields (Parser.parseProgram fuel) program.kinds [.eof] (·.erase = program.erase) := by
  simp only [Program.isPrintable, Bool.and_eq_true, decide_eq_true_eq] at h
  obtain ⟨-, -, hmain, hnodup⟩ := h
  rw [Program.kinds] at hfuel ⊢
  simp only [functionKinds, List.length_cons, List.length_append, List.length_nil] at hfuel
  refine .keyword fun start ↦ ?_
  refine .ident fun name hname ↦ ?_
  refine .keyword fun _ ↦ ?_
  refine (yields_parsePrincipal program.principalId).token fun principal hprincipal ↦ ?_
  refine .symbol fun _ ↦ ?_
  have hrecords : Yields (Parser.parseImports fuel []) (program.imports.flatMap ImportDecl.kinds)
      ((functionKinds (statementKinds program.main.statements) ++ [.symbol .rBrace]) ++ [.eof]) _ :=
    yields_parseImports program.imports fuel [] _ hnodup (by omega)
  refine hrecords.bind fun imports himports ↦ ?_
  have hfunctions : Yields (Parser.parseFunctions fuel none)
      (functionKinds (statementKinds program.main.statements)) ([.symbol .rBrace] ++ [.eof]) _ :=
    yields_parseFunctions (parses_statements program.main.statements hmain) (by omega)
  refine hfunctions.bind fun main hparsed ↦ ?_
  obtain ⟨main, rfl, hstatements⟩ := hparsed
  refine .symbol fun stop ↦ ?_
  refine yields_expectEof.last fun _ _ ↦ .pure ?_
  rw [List.nil_append] at himports
  simp [Program.erase, Ident.erase, hname, hprincipal, himports, hstatements]

/-- Parser round trip: a program whose names are no keywords and whose literals can be written, with
distinct import names and positive loop budgets, is printed, lexed and parsed back, up to spans. -/
theorem parseSource_source {program : Program} (h : program.isPrintable = true) :
    ∃ parsed, parseSource program.source = .ok parsed ∧ parsed.erase = program.erase := by
  obtain ⟨tokens, hlex, hkinds⟩ := lex_layout program.kinds (Program.lexables h)
  have hlength : tokens.length = program.kinds.length + 1 := by
    have hmap := congrArg List.length hkinds
    simpa using hmap
  have hat : (⟨tokens, 0⟩ : Parser).At (program.kinds ++ [.eof]) := hkinds
  obtain ⟨parsed, after, hparse, -, hparsed⟩ :=
    yields_parseProgram h (show 3 * program.kinds.length ≤ 3 * tokens.length by omega) ⟨tokens, 0⟩ hat
  refine ⟨parsed, ?_, hparsed⟩
  rw [parseSource, Program.source, hlex]
  show (Parser.parseProgram (3 * tokens.length) ⟨tokens, 0⟩).1 = _
  rw [hparse]

/-- A program with every operator and every kind of statement. -/
def sampleProgram : Program :=
  let at0 : Span := ⟨0, 0⟩
  let name (text : String) : Expression := .name ⟨text, at0⟩
  let number (text : String) : Expression := .literal (.integer text at0)
  { name := ⟨"demo", at0⟩
    principalId := 0x50
    imports := [⟨⟨"log", at0⟩, "system.log", "read|append", at0⟩]
    main := ⟨[.letLocal ⟨"x", at0⟩ .u64 (.binary .subtract (number "7")
        (.binary .add (number "1") (number "2") at0) at0) at0,
      .ifElse (.unary .not (.binary .or (.binary .less (name "x") (number "9") at0)
          (.binary .and (.literal (.bool true at0)) (.binary .equal (name "x") (number "3") at0) at0)
            at0) at0)
        [.expr (.call ⟨"system.log", at0⟩ [name "log", .literal (.string "a\"b\n" at0)] at0)]
        [.whileLoop 3 (.literal (.bool false at0)) [.ret at0] at0] at0], at0⟩
    span := at0 }

theorem parseSource_sampleProgram : sampleProgram.isPrintable = true ∧
    ∃ parsed, parseSource sampleProgram.source = .ok parsed ∧ parsed.erase = sampleProgram.erase := by
  have hprintable : sampleProgram.isPrintable = true := by decide +kernel
  exact ⟨hprintable, parseSource_source hprintable⟩

/-- A program with the given imports and statements, all without spans. -/
def bareProgram (imports : List ImportDecl) (statements : List Statement) : Program where
  name := ⟨"p", ⟨0, 0⟩⟩
  principalId := 1
  imports := imports
  main := ⟨statements, ⟨0, 0⟩⟩
  span := ⟨0, 0⟩

/-- The diagnostic of a source that the parser refuses. -/
def rejection (source : String) : Option Diagnostic :=
  match parseSource source with
  | .error (.diagnostic diagnostic) => some diagnostic
  | _ => none

def logImport : ImportDecl := ⟨⟨"l", ⟨0, 0⟩⟩, "log", "read", ⟨0, 0⟩⟩

def idleLoop : Statement := .whileLoop 0 (.literal (.bool true ⟨0, 0⟩)) [] ⟨0, 0⟩

/-- The parser refuses two imports of one name and a loop with the budget zero, which the syntax has. -/
theorem rejection_of_syntax : logImport.isPrintable = true ∧
    rejection (bareProgram [logImport, logImport] []).source =
      some ⟨"P0010", "duplicate import name", ⟨72, 73⟩⟩ ∧
    rejection (bareProgram [] [idleLoop]).source =
      some ⟨"P0008", "zero loop budget", ⟨61, 62⟩⟩ := by
  decide +kernel

end Pythos.Pythc
