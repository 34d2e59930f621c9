import Mathlib.Data.Nat.Digits.Defs
import Pythos.Foundation.Stateful
import Pythos.Pythc.Lexer

/-!
# The parser of Pyth

Recursive descent over the tokens of the lexer, with precedence climbing for the binary operators. The
parser state is the token list and a position, as in the source; a token list always ends in `Eof`, which
`advance` does not pass. The recursion and the loops of the source run on fuel, and without fuel they fail
with an error of their own.
-/

namespace Pythos.Pythc

open Foundation Stateful

/-! ### Syntax -/

structure Ident where
  text : String
  span : Span
  deriving DecidableEq, Repr

structure ImportDecl where
  name : Ident
  resource : String
  rights : String
  span : Span
  deriving DecidableEq, Repr

inductive TypeName
  | bool
  | u64
  | i64
  | bytes
  | utf8
  | objectId
  | revisionId
  | taskId
  | proposalId
  | capability
  | errorCode
  | unit
  deriving DecidableEq, Repr

inductive Literal
  | bool (value : Bool) (span : Span)
  | integer (text : String) (span : Span)
  | string (value : String) (span : Span)
  deriving DecidableEq, Repr

def Literal.span : Literal → Span
  | .bool _ span => span
  | .integer _ span => span
  | .string _ span => span

inductive UnaryOp
  | not
  deriving DecidableEq, Repr

inductive BinaryOp
  | equal
  | less
  | add
  | subtract
  | and
  | or
  deriving DecidableEq, Repr

inductive Expression
  | literal (literal : Literal)
  | name (ident : Ident)
  | call (callee : Ident) (args : List Expression) (span : Span)
  | unary (op : UnaryOp) (expr : Expression) (span : Span)
  | binary (op : BinaryOp) (left right : Expression) (span : Span)
  deriving Repr

def Expression.span : Expression → Span
  | .literal value => value.span
  | .name ident => ident.span
  | .call _ _ span => span
  | .unary _ _ span => span
  | .binary _ _ _ span => span

inductive Statement
  | letLocal (name : Ident) (type : TypeName) (value : Expression) (span : Span)
  | ifElse (condition : Expression) (thenStatements elseStatements : List Statement) (span : Span)
  | whileLoop (budget : UInt64) (condition : Expression) (statements : List Statement) (span : Span)
  | expr (expr : Expression)
  | ret (span : Span)
  deriving Repr

structure Function where
  statements : List Statement
  span : Span
  deriving Repr

structure Program where
  name : Ident
  principalId : UInt64
  imports : List ImportDecl
  main : Function
  span : Span
  deriving Repr

/-! ### Numbers -/

/-- `char::to_digit`. -/
def digitValue (radix : ℕ) (char : Char) : Option ℕ :=
  let value :=
    if char.isDigit then char.toNat - '0'.toNat
    else if char.isLower then char.toNat - 'a'.toNat + 10
    else if char.isUpper then char.toNat - 'A'.toNat + 10
    else radix
  if value < radix then some value else none

/-- The text without a leading plus sign. -/
def stripPlus : List Char → List Char
  | '+' :: rest => rest
  | text => text

/-- `u64::from_str_radix`: an optional plus sign and at least one digit. The digits before an overflow
overflow with any digits behind them, so the value is compared once. -/
def fromStrRadix (radix : ℕ) (text : List Char) : Option UInt64 :=
  if stripPlus text = [] then none
  else ((stripPlus text).mapM (digitValue radix)).bind fun values ↦
    let value := Nat.ofDigits radix values.reverse
    if value < 2 ^ 64 then some (UInt64.ofNat value) else none

/-- `text.parse::<u64>()`. -/
def parseU64 (text : String) : Option UInt64 := fromStrRadix 10 text.toList

/-! ### Parser state -/

structure Parser where
  tokens : List Token
  pos : ℕ

inductive ParseError
  | diagnostic (diagnostic : Diagnostic)
  | outOfFuel
  deriving DecidableEq, Repr

abbrev Parse (α : Type) := Stateful ParseError Parser α

namespace Parser

def peek (parser : Parser) : Token :=
  (parser.tokens[parser.pos]?).getD (parser.tokens.getLastD ⟨.eof, ⟨0, 0⟩⟩)

def previousSpan (parser : Parser) : Span :=
  match parser.tokens[parser.pos - 1]? with
  | some token => token.span
  | none => parser.peek.span

def atKeyword (parser : Parser) (expected : String) : Bool := parser.peek.kind = .ident expected

def atSymbol (parser : Parser) (expected : Symbol) : Bool := parser.peek.kind = .symbol expected

def isEof (parser : Parser) : Bool := parser.peek.kind = .eof

/-- The parser behind its next token. -/
def next (parser : Parser) : Parser :=
  if parser.peek.kind = .eof then parser else { parser with pos := parser.pos + 1 }

def advance : Parse Token := fun parser ↦ (.ok parser.peek, parser.next)

def reject {α : Type} (code message : String) (span : Span) : Parse α :=
  fail (.diagnostic ⟨code, message, span⟩)

def unexpected {α : Type} (span : Span) : Parse α := reject "P0003" "unexpected token" span

def errorCurrent {α : Type} (code message : String) : Parse α := do
  let parser ← Stateful.read
  reject code message parser.peek.span

def errorPrevious {α : Type} (code message : String) : Parse α := do
  let parser ← Stateful.read
  reject code message parser.previousSpan

def expectIdent : Parse Ident := do
  let token ← advance
  match token.kind with
  | .ident text => pure ⟨text, token.span⟩
  | _ => unexpected token.span

/-- A token of one kind, as `expect_keyword` and `expect_symbol` ask for. -/
def expectKind (expected : TokenKind) : Parse Span := do
  let token ← advance
  if token.kind = expected then pure token.span else unexpected token.span

def expectKeyword (expected : String) : Parse Span := expectKind (.ident expected)

def expectSymbol (expected : Symbol) : Parse Span := expectKind (.symbol expected)

def expectEof : Parse Unit := do
  let parser ← Stateful.read
  if parser.isEof then pure () else errorCurrent "P0003" "unexpected token"

/-- Passes a token of one kind if it is the next, as `match_keyword` and `match_symbol` do. -/
def matchKind (expected : TokenKind) : Parse Bool := do
  let parser ← Stateful.read
  if parser.peek.kind = expected then do
    let _ ← advance
    pure true
  else pure false

def matchKeyword (expected : String) : Parse Bool := matchKind (.ident expected)

def matchSymbol (expected : Symbol) : Parse Bool := matchKind (.symbol expected)

/-! ### Expressions -/

/-- The operator of a symbol and its precedence. -/
def binaryOp : TokenKind → Option (BinaryOp × ℕ)
  | .symbol .orOr => some (.or, 1)
  | .symbol .andAnd => some (.and, 2)
  | .symbol .eqEq => some (.equal, 3)
  | .symbol .less => some (.less, 4)
  | .symbol .plus => some (.add, 5)
  | .symbol .minus => some (.subtract, 5)
  | _ => none

def peekBinaryOp (parser : Parser) : Option (BinaryOp × ℕ) := binaryOp parser.peek.kind

mutual

def parseExpression : ℕ → ℕ → Parse Expression
  | 0, _ => fail .outOfFuel
  | fuel + 1, minPrecedence => do
    let left ← parseUnary fuel
    climb fuel minPrecedence left

/-- The loop of `parse_expression` over the operators behind the operand `left`. -/
def climb : ℕ → ℕ → Expression → Parse Expression
  | 0, _, _ => fail .outOfFuel
  | fuel + 1, minPrecedence, left => do
    let parser ← Stateful.read
    match parser.peekBinaryOp with
    | none => pure left
    | some (op, precedence) =>
      if precedence < minPrecedence then pure left
      else do
        let _ ← advance
        let right ← parseExpression fuel (precedence + 1)
        climb fuel minPrecedence (.binary op left right ⟨left.span.start, right.span.stop⟩)

def parseUnary : ℕ → Parse Expression
  | 0 => fail .outOfFuel
  | fuel + 1 => do
    let parser ← Stateful.read
    if parser.atSymbol .bang then do
      let token ← advance
      let expr ← parseUnary fuel
      pure (.unary .not expr ⟨token.span.start, expr.span.stop⟩)
    else parsePrimary fuel

def parsePrimary : ℕ → Parse Expression
  | 0 => fail .outOfFuel
  | fuel + 1 => do
    let token ← advance
    match token.kind with
    | .ident text =>
      if text = "true" ∨ text = "false" then pure (.literal (.bool (text = "true") token.span))
      else do
        let ident : Ident := ⟨text, token.span⟩
        if ← matchSymbol .lParen then do
          let args ← parseArguments fuel
          let stop ← expectSymbol .rParen
          pure (.call ident args ⟨ident.span.start, stop.stop⟩)
        else pure (.name ident)
    | .integer text => pure (.literal (.integer text token.span))
    | .string value => pure (.literal (.string value token.span))
    | .symbol .lParen => do
      let expr ← parseExpression fuel 0
      let _ ← expectSymbol .rParen
      pure expr
    | _ => unexpected token.span

/-- The arguments of a call, up to the closing parenthesis. -/
def parseArguments : ℕ → Parse (List Expression)
  | 0 => fail .outOfFuel
  | fuel + 1 => do
    let parser ← Stateful.read
    if parser.atSymbol .rParen then pure [] else parseMoreArguments fuel

/-- The loop over the arguments of a call. -/
def parseMoreArguments : ℕ → Parse (List Expression)
  | 0 => fail .outOfFuel
  | fuel + 1 => do
    let argument ← parseExpression fuel 0
    if ← matchSymbol .comma then do
      let args ← parseMoreArguments fuel
      pure (argument :: args)
    else pure [argument]

end

/-! ### Statements -/

/-- The type names with their spellings. -/
def typeSpellings : List (String × TypeName) :=
  [("bool", .bool), ("u64", .u64), ("i64", .i64), ("bytes", .bytes), ("utf8", .utf8),
    ("object_id", .objectId), ("revision_id", .revisionId), ("task_id", .taskId),
    ("proposal_id", .proposalId), ("capability", .capability), ("error_code", .errorCode),
    ("unit", .unit)]

def parseType : Parse TypeName := do
  let ident ← expectIdent
  match typeSpellings.lookup ident.text with
  | some type => pure type
  | none => reject "P0009" "unknown type spelling" ident.span

def parseLet (fuel : ℕ) : Parse Statement := do
  let start ← expectKeyword "let"
  let name ← expectIdent
  let _ ← expectSymbol .colon
  let type ← parseType
  let _ ← expectSymbol .eq
  let value ← parseExpression fuel 0
  let stop ← expectSymbol .semicolon
  pure (.letLocal name type value ⟨start.start, stop.stop⟩)

def parseReturn : Parse Statement := do
  let token ← advance
  let stop ← expectSymbol .semicolon
  pure (.ret ⟨token.span.start, stop.stop⟩)

def parseExpr (fuel : ℕ) : Parse Statement := do
  let expr ← parseExpression fuel 0
  let _ ← expectSymbol .semicolon
  pure (.expr expr)

def loopBudget (token : Token) : Parse UInt64 :=
  match token.kind with
  | .integer text =>
    match parseU64 text with
    | some budget =>
      if budget = 0 then reject "P0008" "zero loop budget" token.span else pure budget
    | none => reject "P0007" "while requires literal budget" token.span
  | _ => reject "P0007" "while requires literal budget" token.span

mutual

def parseBlock : ℕ → Parse (List Statement × ℕ)
  | 0 => fail .outOfFuel
  | fuel + 1 => do
    let _ ← expectSymbol .lBrace
    let statements ← parseStatements fuel
    let stop ← expectSymbol .rBrace
    pure (statements, stop.stop)

/-- The loop of `parse_block`. -/
def parseStatements : ℕ → Parse (List Statement)
  | 0 => fail .outOfFuel
  | fuel + 1 => do
    let parser ← Stateful.read
    if parser.atSymbol .rBrace ∨ parser.isEof then pure []
    else do
      let statement ← parseStatement fuel
      let statements ← parseStatements fuel
      pure (statement :: statements)

def parseStatement : ℕ → Parse Statement
  | 0 => fail .outOfFuel
  | fuel + 1 => do
    let parser ← Stateful.read
    if parser.atKeyword "let" then parseLet fuel
    else if parser.atKeyword "if" then parseIf fuel
    else if parser.atKeyword "while" then parseWhile fuel
    else if parser.atKeyword "return" then parseReturn
    else parseExpr fuel

def parseIf : ℕ → Parse Statement
  | 0 => fail .outOfFuel
  | fuel + 1 => do
    let start ← expectKeyword "if"
    let condition ← parseExpression fuel 0
    let (thenStatements, stop) ← parseBlock fuel
    if ← matchKeyword "else" then do
      let (elseStatements, elseStop) ← parseBlock fuel
      pure (.ifElse condition thenStatements elseStatements ⟨start.start, elseStop⟩)
    else pure (.ifElse condition thenStatements [] ⟨start.start, stop⟩)

def parseWhile : ℕ → Parse Statement
  | 0 => fail .outOfFuel
  | fuel + 1 => do
    let start ← expectKeyword "while"
    if ← matchKeyword "budget" then do
      let token ← advance
      let budget ← loopBudget token
      let condition ← parseExpression fuel 0
      let (statements, stop) ← parseBlock fuel
      pure (.whileLoop budget condition statements ⟨start.start, stop⟩)
    else errorCurrent "P0007" "while requires literal budget"

end

/-! ### Programs -/

/-- `raw.trim_start_matches(prefix)` for a prefix of two characters. -/
def trimStart (first second : Char) : List Char → List Char
  | char :: char' :: rest =>
    if char = first ∧ char' = second then trimStart first second rest else char :: char' :: rest
  | rest => rest

def parsePrincipal : Parse UInt64 := do
  let token ← advance
  match token.kind with
  | .hex raw =>
    let digits := trimStart '0' 'X' (trimStart '0' 'x' raw.toList)
    if digits = [] then reject "P0006" "invalid principal hex" token.span
    else match fromStrRadix 16 digits with
      | some principal => pure principal
      | none => reject "P0006" "invalid principal hex" token.span
  | _ => reject "P0006" "invalid principal hex" token.span

/-- The loop over the rights of an import. -/
def parseRights : ℕ → String → Parse String
  | 0, _ => fail .outOfFuel
  | fuel + 1, rights => do
    if ← matchSymbol .pipe then do
      let ident ← expectIdent
      parseRights fuel ((rights.push '|') ++ ident.text)
    else pure rights

def parseImport (fuel : ℕ) (imports : List ImportDecl) : Parse ImportDecl := do
  let start ← expectKeyword "import"
  let name ← expectIdent
  if imports.any (·.name.text = name.text) then reject "P0010" "duplicate import name" name.span
  else do
    let _ ← expectSymbol .colon
    let _ ← expectKeyword "capability"
    let _ ← expectSymbol .less
    let resource ← expectIdent
    let _ ← expectSymbol .comma
    let right ← expectIdent
    let rights ← parseRights fuel right.text
    let _ ← expectSymbol .greater
    let stop ← expectSymbol .semicolon
    pure ⟨name, resource.text, rights, ⟨start.start, stop.stop⟩⟩

def parseImports : ℕ → List ImportDecl → Parse (List ImportDecl)
  | 0, _ => fail .outOfFuel
  | fuel + 1, imports => do
    let parser ← Stateful.read
    if parser.atKeyword "import" then do
      let record ← parseImport fuel imports
      parseImports fuel (imports ++ [record])
    else pure imports

def parseFunctionAfterFn (fuel : ℕ) (mainSeen : Bool) : Parse Function := do
  let start ← expectKeyword "fn"
  let name ← expectIdent
  if name.text ≠ "main" then reject "P0011" "additional functions unsupported" name.span
  else if mainSeen then reject "P0005" "duplicate main" name.span
  else do
    let _ ← expectSymbol .lParen
    let _ ← expectSymbol .rParen
    let _ ← expectSymbol .arrow
    let _ ← expectKeyword "unit"
    let (statements, stop) ← parseBlock fuel
    pure ⟨statements, ⟨start.start, stop⟩⟩

/-- The loop over the functions of a program. -/
def parseFunctions : ℕ → Option Function → Parse (Option Function)
  | 0, _ => fail .outOfFuel
  | fuel + 1, main => do
    let parser ← Stateful.read
    if parser.atSymbol .rBrace ∨ parser.isEof then pure main
    else if ¬ parser.atKeyword "fn" then errorCurrent "P0003" "unexpected token"
    else do
      let function ← parseFunctionAfterFn fuel main.isSome
      if main.isSome then errorPrevious "P0005" "duplicate main"
      else parseFunctions fuel (some function)

def parseProgram (fuel : ℕ) : Parse Program := do
  let start ← expectKeyword "program"
  let name ← expectIdent
  let _ ← expectKeyword "principal"
  let principalId ← parsePrincipal
  let _ ← expectSymbol .lBrace
  let imports ← parseImports fuel []
  let main ← parseFunctions fuel none
  match main with
  | none => errorCurrent "P0004" "missing main"
  | some main => do
    let stop ← expectSymbol .rBrace
    expectEof
    pure ⟨name, principalId, imports, main, ⟨start.start, stop.stop⟩⟩

end Parser

/-- `parse_program`: no parse of a token list nests deeper than three calls for each token. -/
def parseProgram (tokens : List Token) : Except ParseError Program :=
  (Parser.parseProgram (3 * tokens.length) ⟨tokens, 0⟩).1

def parseSource (source : String) : Except ParseError Program :=
  match lex source with
  | .ok tokens => parseProgram tokens
  | .error diagnostic => .error (.diagnostic diagnostic)

end Pythos.Pythc
