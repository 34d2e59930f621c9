import Mathlib
import Pythos.Pythc.Parser

/-!
# Programs as source text

A program is printed token by token, with the parentheses that the precedences make necessary and a
space behind each token. The lexer gives the tokens back one by one (`run_kind`), whatever the program, as
long as its names are identifiers and its literals can be written (`Program.lexables`). A string can be
written if it is what some literal denotes: the bytes of a text, each as a character.
-/

namespace Pythos.Pythc

open Foundation

/-! ### Syntax without spans -/

def Ident.erase (ident : Ident) : Ident := { ident with span := ⟨0, 0⟩ }

def Literal.erase : Literal → Literal
  | .bool value _ => .bool value ⟨0, 0⟩
  | .integer text _ => .integer text ⟨0, 0⟩
  | .string value _ => .string value ⟨0, 0⟩

mutual

def Expression.erase : Expression → Expression
  | .literal value => .literal value.erase
  | .name ident => .name ident.erase
  | .call callee args _ => .call callee.erase (eraseExpressions args) ⟨0, 0⟩
  | .unary op expr _ => .unary op expr.erase ⟨0, 0⟩
  | .binary op left right _ => .binary op left.erase right.erase ⟨0, 0⟩

def eraseExpressions : List Expression → List Expression
  | [] => []
  | expr :: exprs => expr.erase :: eraseExpressions exprs

end

mutual

def Statement.erase : Statement → Statement
  | .letLocal name type value _ => .letLocal name.erase type value.erase ⟨0, 0⟩
  | .ifElse condition thenStatements elseStatements _ =>
    .ifElse condition.erase (eraseStatements thenStatements) (eraseStatements elseStatements) ⟨0, 0⟩
  | .whileLoop budget condition statements _ =>
    .whileLoop budget condition.erase (eraseStatements statements) ⟨0, 0⟩
  | .expr expr => .expr expr.erase
  | .ret _ => .ret ⟨0, 0⟩

def eraseStatements : List Statement → List Statement
  | [] => []
  | statement :: statements => statement.erase :: eraseStatements statements

end

def ImportDecl.erase (record : ImportDecl) : ImportDecl :=
  { record with name := record.name.erase, span := ⟨0, 0⟩ }

def Program.erase (program : Program) : Program where
  name := program.name.erase
  principalId := program.principalId
  imports := program.imports.map ImportDecl.erase
  main := ⟨eraseStatements program.main.statements, ⟨0, 0⟩⟩
  span := ⟨0, 0⟩

/-! ### Printing -/

/-- The numeral of a number, without leading zeros. -/
def numeral (radix value : ℕ) : List Char :=
  if value = 0 then ['0'] else (Nat.digits radix value).reverse.map Nat.digitChar

def decimalText (value : UInt64) : String := String.ofList (numeral 10 value.toNat)

def hexText (value : UInt64) : String := String.ofList ('0' :: 'x' :: numeral 16 value.toNat)

def BinaryOp.precedence : BinaryOp → ℕ
  | .or => 1
  | .and => 2
  | .equal => 3
  | .less => 4
  | .add => 5
  | .subtract => 5

def BinaryOp.symbol : BinaryOp → Symbol
  | .or => .orOr
  | .and => .andAnd
  | .equal => .eqEq
  | .less => .less
  | .add => .plus
  | .subtract => .minus

def Literal.kind : Literal → TokenKind
  | .bool value _ => .ident (if value then "true" else "false")
  | .integer text _ => .integer text
  | .string value _ => .string value

def parenthesized (kinds : List TokenKind) : List TokenKind :=
  .symbol .lParen :: (kinds ++ [.symbol .rParen])

mutual

/-- The tokens of an expression at a place that takes operators of a precedence and above: an operator
that binds looser is parenthesized. All operators are left-associative, and `!` takes a primary. -/
def Expression.kinds : Expression → ℕ → List TokenKind
  | .literal value, _ => [value.kind]
  | .name ident, _ => [.ident ident.text]
  | .call callee args _, _ => .ident callee.text :: parenthesized (argumentKinds args)
  | .unary .not expr _, _ => .symbol .bang :: expr.kinds 6
  | .binary op left right _, level =>
    if op.precedence < level then
      parenthesized (left.kinds op.precedence ++ .symbol op.symbol :: right.kinds (op.precedence + 1))
    else left.kinds op.precedence ++ .symbol op.symbol :: right.kinds (op.precedence + 1)

def argumentKinds : List Expression → List TokenKind
  | [] => []
  | expr :: exprs => expr.kinds 0 ++ moreArgumentKinds exprs

def moreArgumentKinds : List Expression → List TokenKind
  | [] => []
  | expr :: exprs => .symbol .comma :: (expr.kinds 0 ++ moreArgumentKinds exprs)

end

def TypeName.spelling : TypeName → String
  | .bool => "bool"
  | .u64 => "u64"
  | .i64 => "i64"
  | .bytes => "bytes"
  | .utf8 => "utf8"
  | .objectId => "object_id"
  | .revisionId => "revision_id"
  | .taskId => "task_id"
  | .proposalId => "proposal_id"
  | .capability => "capability"
  | .errorCode => "error_code"
  | .unit => "unit"

def blockKinds (kinds : List TokenKind) : List TokenKind :=
  .symbol .lBrace :: (kinds ++ [.symbol .rBrace])

mutual

def Statement.kinds : Statement → List TokenKind
  | .letLocal name type value _ =>
    .ident "let" :: .ident name.text :: .symbol .colon :: .ident type.spelling :: .symbol .eq ::
      (value.kinds 0 ++ [.symbol .semicolon])
  | .ifElse condition thenStatements [] _ =>
    .ident "if" :: (condition.kinds 0 ++ blockKinds (statementKinds thenStatements))
  | .ifElse condition thenStatements (first :: rest) _ =>
    .ident "if" :: (condition.kinds 0 ++ (blockKinds (statementKinds thenStatements) ++
      .ident "else" :: blockKinds (first.kinds ++ statementKinds rest)))
  | .whileLoop budget condition statements _ =>
    .ident "while" :: .ident "budget" :: .integer (decimalText budget) ::
      (condition.kinds 0 ++ blockKinds (statementKinds statements))
  | .expr expr => expr.kinds 0 ++ [.symbol .semicolon]
  | .ret _ => [.ident "return", .symbol .semicolon]

def statementKinds : List Statement → List TokenKind
  | [] => []
  | statement :: statements => statement.kinds ++ statementKinds statements

end

/-- The rights of an import, one by one. -/
def rightsOf (rights : String) : List (List Char) := rights.toList.splitOn '|'

def moreRightKinds (rights : List (List Char)) : List TokenKind :=
  rights.flatMap fun right ↦ [.symbol .pipe, .ident (String.ofList right)]

def rightKinds : List (List Char) → List TokenKind
  | [] => []
  | right :: rights => .ident (String.ofList right) :: moreRightKinds rights

def ImportDecl.kinds (record : ImportDecl) : List TokenKind :=
  .ident "import" :: .ident record.name.text :: .symbol .colon :: .ident "capability" ::
    .symbol .less :: .ident record.resource :: .symbol .comma ::
      (rightKinds (rightsOf record.rights) ++ [.symbol .greater, .symbol .semicolon])

/-- The tokens of the main function. -/
def functionKinds (kinds : List TokenKind) : List TokenKind :=
  .ident "fn" :: .ident "main" :: .symbol .lParen :: .symbol .rParen :: .symbol .arrow ::
    .ident "unit" :: blockKinds kinds

def Program.kinds (program : Program) : List TokenKind :=
  .ident "program" :: .ident program.name.text :: .ident "principal" ::
    .hex (hexText program.principalId) :: .symbol .lBrace ::
      (program.imports.flatMap ImportDecl.kinds ++
        (functionKinds (statementKinds program.main.statements) ++ [.symbol .rBrace]))

/-- The text whose bytes, read one by one, are the value of a string literal, if there is one. -/
def literalText (value : String) : String :=
  (String.fromUTF8? (value.toList.map fun char ↦ UInt8.ofNat char.toNat).toByteArray).getD value

def Symbol.chars : Symbol → List Char
  | .lBrace => ['{']
  | .rBrace => ['}']
  | .lParen => ['(']
  | .rParen => [')']
  | .colon => [':']
  | .semicolon => [';']
  | .comma => [',']
  | .less => ['<']
  | .greater => ['>']
  | .eq => ['=']
  | .eqEq => ['=', '=']
  | .arrow => ['-', '>']
  | .plus => ['+']
  | .minus => ['-']
  | .andAnd => ['&', '&']
  | .pipe => ['|']
  | .orOr => ['|', '|']
  | .bang => ['!']

def TokenKind.chars : TokenKind → List Char
  | .ident text => text.toList
  | .hex text => text.toList
  | .integer text => text.toList
  | .string value => quotedChars (literalText value)
  | .symbol sign => sign.chars
  | .eof => []

/-- Tokens as text, each with a space behind it. -/
def layout (kinds : List TokenKind) : String :=
  String.ofList (kinds.flatMap fun kind ↦ kind.chars ++ [' '])

def Program.source (program : Program) : String := layout program.kinds

/-! ### Printable programs -/

/-- The words that the parser reads as keywords. -/
def keywords : List String :=
  ["program", "principal", "import", "capability", "fn", "unit", "let", "if", "else", "while", "budget",
    "return", "true", "false"]

/-- The text is one identifier token. -/
def isIdentifier : List Char → Bool
  | [] => false
  | first :: rest => (first.isAlpha || first = '_') && (first :: rest).all Lexer.isIdentPart

/-- A name that is not a keyword. -/
def isName (text : String) : Bool := isIdentifier text.toList && text ∉ keywords

/-- The string is the value of some string literal. -/
def isRepresentable (value : String) : Bool := denoted (literalText value) = value

def Literal.isPrintable : Literal → Bool
  | .bool _ _ => true
  | .integer text _ => text.toList ≠ [] && text.toList.all Char.isDigit
  | .string value _ => isRepresentable value

mutual

/-- The names of an expression are names, and its literals can be written. -/
def Expression.isPrintable : Expression → Bool
  | .literal value => value.isPrintable
  | .name ident => isName ident.text
  | .call callee args _ => isName callee.text && allPrintable args
  | .unary _ expr _ => expr.isPrintable
  | .binary _ left right _ => left.isPrintable && right.isPrintable

def allPrintable : List Expression → Bool
  | [] => true
  | expr :: exprs => expr.isPrintable && allPrintable exprs

end

mutual

/-- Moreover, no loop has the budget zero, which the parser refuses. -/
def Statement.isPrintable : Statement → Bool
  | .letLocal name _ value _ => isName name.text && value.isPrintable
  | .ifElse condition thenStatements elseStatements _ =>
    condition.isPrintable && (allStatementsPrintable thenStatements &&
      allStatementsPrintable elseStatements)
  | .whileLoop budget condition statements _ =>
    budget ≠ 0 && (condition.isPrintable && allStatementsPrintable statements)
  | .expr expr => expr.isPrintable
  | .ret _ => true

def allStatementsPrintable : List Statement → Bool
  | [] => true
  | statement :: statements => statement.isPrintable && allStatementsPrintable statements

end

def ImportDecl.isPrintable (record : ImportDecl) : Bool :=
  isName record.name.text && (isIdentifier record.resource.toList &&
    (rightsOf record.rights).all isIdentifier)

/-- The names of a program are names, its literals can be written, and, as the parser demands, its import
names are distinct and its loop budgets positive. -/
def Program.isPrintable (program : Program) : Bool :=
  isName program.name.text && (program.imports.all ImportDecl.isPrintable &&
    (allStatementsPrintable program.main.statements &&
      (program.imports.map fun record ↦ record.name.text).Nodup))

/-! ### Lexing -/

/-- The kind is lexed from its text when a space follows. -/
def TokenKind.Lexable : TokenKind → Prop
  | .ident text => isIdentifier text.toList = true
  | .hex text => ∃ digits, text.toList = '0' :: 'x' :: digits ∧ ∀ digit ∈ digits, Lexer.isHexDigit digit
  | .integer text => text.toList ≠ [] ∧ ∀ digit ∈ text.toList, digit.isDigit
  | .string value => isRepresentable value = true
  | .symbol _ => True
  | .eof => False

/-- The bytes of a token. -/
def TokenKind.bytes (kind : TokenKind) : List Char := kind.chars.flatMap charBytes

theorem flatMap_charBytes_of_ascii (chars : List Char) (h : ∀ char ∈ chars, char.toNat < 128) :
    chars.flatMap charBytes = chars := by
  have hdenoted := (denoted_eq_iff (String.ofList chars)).mpr (by rwa [String.toList_ofList])
  rwa [denoted, sourceBytes, String.toList_ofList, String.ofList_inj] at hdenoted

variable {char : Char} {text : String} {kind : TokenKind} {radix : ℕ} {kinds : List TokenKind}

theorem toNat_lt_of_isIdentPart (h : Lexer.isIdentPart char = true) : char.toNat < 128 := by
  simp [Lexer.isIdentPart, Char.isAlphanum, Char.isAlpha, Char.isUpper, Char.isLower, Char.isDigit,
    UInt32.le_iff_toNat_le] at h
  rcases h with (h | rfl) | rfl
  · omega
  · decide
  · decide

theorem isIdentPart_of_isDigit (h : char.isDigit = true) : Lexer.isIdentPart char = true := by
  simp [Lexer.isIdentPart, Char.isAlphanum, h]

theorem isIdentPart_of_isHexDigit (h : Lexer.isHexDigit char = true) :
    Lexer.isIdentPart char = true := by
  simp only [Lexer.isHexDigit, Bool.or_eq_true, Bool.and_eq_true, decide_eq_true_eq] at h
  simp only [Lexer.isIdentPart, Char.isAlphanum, Char.isAlpha, Char.isUpper, Char.isLower,
    Bool.or_eq_true, Bool.and_eq_true, decide_eq_true_eq, ge_iff_le]
  rcases h with (h | ⟨hlow, hhigh⟩) | ⟨hlow, hhigh⟩
  · exact Or.inl (Or.inl (Or.inr h))
  · have hle : char.val ≤ 'z'.val := UInt32.le_trans hhigh (by decide)
    exact Or.inl (Or.inl (Or.inl (Or.inr ⟨hlow, hle⟩)))
  · have hle : char.val ≤ 'Z'.val := UInt32.le_trans hhigh (by decide)
    exact Or.inl (Or.inl (Or.inl (Or.inl ⟨hlow, hle⟩)))

/-- A run of bytes of a class ends at a space. -/
theorem takeWhile_append_space {accepts : Char → Bool} {bytes : List Char} (hspace : accepts ' ' = false)
    (h : ∀ byte ∈ bytes, accepts byte = true) (rest : List Char) :
    (bytes ++ ' ' :: rest).takeWhile accepts = bytes := by
  rw [List.takeWhile_append_of_pos h, List.takeWhile_cons, hspace]
  simp

theorem isSpace_of_isIdentPart (h : Lexer.isIdentPart char = true) : Lexer.isSpace char = false := by
  by_contra hspace
  simp only [Lexer.isSpace, Bool.or_eq_true, decide_eq_true_eq, Bool.not_eq_false] at hspace
  rcases hspace with ((rfl | rfl) | rfl) | rfl <;> simp [Lexer.isIdentPart] at h

theorem not_startsIdent_of_isDigit (h : char.isDigit = true) : (char.isAlpha || char = '_') = false := by
  have hbounds : 48 ≤ char.val.toNat ∧ char.val.toNat ≤ 57 := by
    simpa [Char.isDigit, UInt32.le_iff_toNat_le] using h
  by_contra halpha
  simp only [Char.isAlpha, Char.isUpper, Char.isLower, Bool.or_eq_true, Bool.and_eq_true,
    decide_eq_true_eq, ge_iff_le, UInt32.le_iff_toNat_le, Bool.not_eq_false] at halpha
  rcases halpha with (⟨hlow, -⟩ | ⟨hlow, -⟩) | rfl
  · exact absurd (le_trans hlow hbounds.2) (by decide)
  · exact absurd (le_trans hlow hbounds.2) (by decide)
  · simp at h

/-- The text of a token other than white space starts a lexeme of its kind. -/
def StartsWith (kind : TokenKind) (text : List Char) : Prop :=
  ∀ pos rest, ∃ byte bytes, text = byte :: bytes ∧
    Lexer.lexeme pos byte (bytes ++ ' ' :: rest) = .ok (some kind, bytes.length + 1)

theorem startsWith_ident (h : isIdentifier text.toList = true) :
    StartsWith (.ident text) text.toList := by
  intro pos rest
  cases htext : text.toList with
  | nil => simp [htext, isIdentifier] at h
  | cons byte bytes =>
    rw [htext] at h
    simp only [isIdentifier, Bool.and_eq_true, List.all_eq_true] at h
    obtain ⟨hfirst, hall⟩ := h
    have hspace := isSpace_of_isIdentPart (hall byte List.mem_cons_self)
    refine ⟨byte, bytes, rfl, ?_⟩
    unfold Lexer.lexeme
    rw [if_neg (by simp [hspace]), if_pos hfirst, Lexer.lexIdent, Lexer.lexWhile, ← List.cons_append,
      takeWhile_append_space (by decide) hall, ← htext, String.ofList_toList, htext]
    rfl

theorem startsWith_integer (hne : text.toList ≠ [])
    (h : ∀ digit ∈ text.toList, digit.isDigit = true) : StartsWith (.integer text) text.toList := by
  intro pos rest
  cases htext : text.toList with
  | nil => exact absurd htext hne
  | cons byte bytes =>
    rw [htext] at h
    have hdigit := h byte (List.mem_cons_self ..)
    have hspace := isSpace_of_isIdentPart (isIdentPart_of_isDigit hdigit)
    have halpha := not_startsIdent_of_isDigit hdigit
    -- Neither sign of a hexadecimal number is a digit or a space.
    have hsign : ∀ sign : Char, sign.isDigit = false → sign ≠ ' ' →
        ¬ (byte = '0' ∧ (bytes ++ ' ' :: rest).head? = some sign) := by
      rintro sign hsign hspace ⟨-, hhead⟩
      cases bytes with
      | nil => exact hspace (Option.some.inj hhead).symm
      | cons second bytes =>
        obtain rfl : second = sign := Option.some.inj hhead
        have hsecond := h second (List.mem_cons_of_mem _ (List.mem_cons_self ..))
        rw [hsign] at hsecond
        cases hsecond
    refine ⟨byte, bytes, rfl, ?_⟩
    unfold Lexer.lexeme
    rw [if_neg (by simp [hspace]), if_neg (by simp [halpha]), if_neg (hsign 'x' (by decide) (by decide)),
      if_neg (hsign 'X' (by decide) (by decide)), if_pos hdigit, Lexer.lexInteger, Lexer.lexWhile,
      ← List.cons_append, takeWhile_append_space (by decide) h, ← htext, String.ofList_toList, htext]
    rfl

theorem startsWith_hex {digits : List Char} (htext : text.toList = '0' :: 'x' :: digits)
    (h : ∀ digit ∈ digits, Lexer.isHexDigit digit = true) : StartsWith (.hex text) text.toList := by
  intro pos rest
  refine ⟨'0', 'x' :: digits, htext, ?_⟩
  unfold Lexer.lexeme
  rw [if_neg (by decide), if_neg (by decide), if_pos ⟨rfl, rfl⟩, Lexer.lexHex, List.cons_append,
    List.tail_cons, takeWhile_append_space (by decide) h, ← htext, String.ofList_toList]
  rfl

theorem startsWith_symbol (symbol : Symbol) : StartsWith (.symbol symbol) symbol.chars := by
  intro pos rest
  cases symbol <;> exact ⟨_, _, rfl, rfl⟩

theorem denoted_toList (text : String) : (denoted text).toList = text.toList.flatMap charBytes :=
  String.toList_ofList

/-- The string is the value of a literal, as the printer finds it. -/
theorem literalText_denoted (text : String) : literalText (denoted text) = text := by
  have hbytes : (denoted text).toList.map (fun char ↦ UInt8.ofNat char.toNat) =
      text.toList.flatMap String.utf8EncodeChar := by
    rw [denoted_toList, List.map_flatMap]
    congr 1
    funext char
    rw [charBytes, List.map_map]
    conv_rhs => rw [← List.map_id (String.utf8EncodeChar char)]
    refine List.map_congr_left fun byte _ ↦ ?_
    show UInt8.ofNat (byteChar byte).toNat = byte
    rw [toNat_byteChar, UInt8.ofNat_toNat]
  have hvalid : text.toByteArray.IsValidUTF8 := text.isValidUTF8
  have hencode : (text.toList.flatMap String.utf8EncodeChar).toByteArray = text.toByteArray := by
    conv_rhs => rw [← String.ofList_toList (s := text), String.toByteArray_ofList]
    rfl
  rw [literalText, hbytes, hencode, String.fromUTF8?, dif_pos hvalid]
  rfl

/-- A string is representable exactly if it is what some literal denotes. -/
theorem isRepresentable_iff {value : String} :
    isRepresentable value = true ↔ ∃ text, denoted text = value := by
  rw [isRepresentable, decide_eq_true_eq]
  constructor
  · exact fun h ↦ ⟨_, h⟩
  · rintro ⟨text, rfl⟩
    rw [literalText_denoted]

theorem bytes_string (value : String) : (TokenKind.string value).bytes =
    '"' :: (literalBytes (literalText value).toList ++ ['"']) := by
  have hquoted := sourceBytes_quoted (literalText value)
  rwa [sourceBytes, quoted, String.toList_ofList] at hquoted

theorem startsWith_string {value : String} (h : isRepresentable value = true) :
    StartsWith (.string value) (TokenKind.string value).bytes := by
  intro pos rest
  refine ⟨'"', _, bytes_string value, ?_⟩
  rw [List.append_assoc, List.singleton_append, lexeme_literalBytes, List.length_append,
    List.length_singleton]
  rw [isRepresentable, decide_eq_true_eq, denoted, sourceBytes] at h
  rw [h]

theorem startsWith_bytes (h : kind.Lexable) : StartsWith kind kind.bytes := by
  cases kind with
  | ident text =>
    have hascii : (TokenKind.ident text).bytes = text.toList := by
      refine flatMap_charBytes_of_ascii text.toList fun char hchar ↦ ?_
      rw [TokenKind.Lexable] at h
      cases htext : text.toList with
      | nil => simp [htext] at hchar
      | cons first rest =>
        rw [htext, isIdentifier, Bool.and_eq_true, List.all_eq_true] at h
        exact toNat_lt_of_isIdentPart (h.2 char (htext ▸ hchar))
    rw [hascii]
    exact startsWith_ident h
  | hex text =>
    obtain ⟨digits, htext, hdigits⟩ := h
    have hascii : (TokenKind.hex text).bytes = text.toList := by
      refine flatMap_charBytes_of_ascii text.toList fun char hchar ↦ ?_
      rw [htext] at hchar
      rcases List.mem_cons.mp hchar with rfl | hchar
      · decide
      rcases List.mem_cons.mp hchar with rfl | hchar
      · decide
      · exact toNat_lt_of_isIdentPart (isIdentPart_of_isHexDigit (hdigits char hchar))
    rw [hascii]
    exact startsWith_hex htext hdigits
  | integer text =>
    have hascii : (TokenKind.integer text).bytes = text.toList :=
      flatMap_charBytes_of_ascii _ fun char hchar ↦
        toNat_lt_of_isIdentPart (isIdentPart_of_isDigit (h.2 char hchar))
    rw [hascii]
    exact startsWith_integer h.1 h.2
  | string value => exact startsWith_string h
  | symbol symbol =>
    have hascii : (TokenKind.symbol symbol).bytes = symbol.chars := by cases symbol <;> decide
    rw [hascii]
    exact startsWith_symbol symbol
  | eof => exact h.elim

/-- A token followed by a space. -/
theorem run_kind (h : kind.Lexable) (pos : ℕ) (rest : List Char) :
    ∃ span pos', Lexer.run 0 pos (kind.bytes ++ ' ' :: rest) =
      (Lexer.run 0 pos' rest).map (⟨kind, span⟩ :: ·) := by
  obtain ⟨byte, bytes, hbytes, hlexeme⟩ := startsWith_bytes h pos rest
  refine ⟨⟨pos, pos + (bytes.length + 1)⟩, pos + (bytes.length + 1) + 1, ?_⟩
  rw [hbytes, List.cons_append, Lexer.run_lexeme hlexeme, Lexer.run_space]

theorem run_kinds (kinds : List TokenKind) (h : ∀ kind ∈ kinds, kind.Lexable) : ∀ pos,
    ∃ tokens, Lexer.run 0 pos (kinds.flatMap fun kind ↦ kind.bytes ++ [' ']) = .ok tokens ∧
      tokens.map Token.kind = kinds ++ [.eof] := by
  induction kinds with
  | nil => exact fun pos ↦ ⟨[⟨.eof, ⟨pos, pos⟩⟩], rfl, rfl⟩
  | cons kind kinds ih =>
    intro pos
    obtain ⟨span, pos', hrun⟩ := run_kind (h kind (List.mem_cons_self ..)) pos
      (kinds.flatMap fun kind ↦ kind.bytes ++ [' '])
    obtain ⟨tokens, htokens, hkinds⟩ := ih (fun other hother ↦ h other (List.mem_cons_of_mem _ hother)) pos'
    refine ⟨⟨kind, span⟩ :: tokens, ?_, by rw [List.map_cons, hkinds, List.cons_append]⟩
    rw [List.flatMap_cons, List.append_assoc, List.singleton_append, hrun, htokens]
    rfl

/-- The text of a list of tokens is lexed to these tokens. -/
theorem lex_layout (kinds : List TokenKind) (h : ∀ kind ∈ kinds, kind.Lexable) :
    ∃ tokens, lex (layout kinds) = .ok tokens ∧ tokens.map Token.kind = kinds ++ [.eof] := by
  have hspace : charBytes ' ' = [' '] := by decide
  have hsource : sourceBytes (layout kinds) = kinds.flatMap fun kind ↦ kind.bytes ++ [' '] := by
    rw [sourceBytes, layout, String.toList_ofList, List.flatMap_assoc]
    congr 1
    funext kind
    rw [List.flatMap_append, List.flatMap_singleton, hspace]
    rfl
  rw [lex, hsource]
  exact run_kinds kinds h 0

/-! ### Numerals -/

theorem digitValue_digitChar {digit : ℕ} (hradix : radix = 10 ∨ radix = 16) (h : digit < radix) :
    digitValue radix (Nat.digitChar digit) = some digit := by
  have hten : ∀ digit < 10, digitValue 10 (Nat.digitChar digit) = some digit := by decide
  have hsixteen : ∀ digit < 16, digitValue 16 (Nat.digitChar digit) = some digit := by decide
  rcases hradix with rfl | rfl
  · exact hten digit h
  · exact hsixteen digit h

theorem numeral_digits (hradix : radix = 10 ∨ radix = 16) (value : ℕ) :
    ∃ digits : List ℕ, digits ≠ [] ∧ (∀ digit ∈ digits, digit < radix) ∧
      numeral radix value = digits.map Nat.digitChar ∧ Nat.ofDigits radix digits.reverse = value := by
  have hone : 1 < radix := by omega
  unfold numeral
  split_ifs with hzero
  · exact ⟨[0], by simp, by simpa using by omega, rfl, by simp [hzero]⟩
  · refine ⟨(Nat.digits radix value).reverse, ?_, ?_, rfl, ?_⟩
    · simpa [Nat.digits_ne_nil_iff_ne_zero] using hzero
    · exact fun digit hdigit ↦ Nat.digits_lt_base hone (List.mem_reverse.mp hdigit)
    · rw [List.reverse_reverse, Nat.ofDigits_digits]

/-- A numeral is read back. -/
theorem fromStrRadix_numeral (hradix : radix = 10 ∨ radix = 16) (value : UInt64) :
    fromStrRadix radix (numeral radix value.toNat) = some value := by
  obtain ⟨digits, hne, hlt, hnumeral, hvalue⟩ := numeral_digits hradix value.toNat
  have hplus : ∀ digit ∈ digits, Nat.digitChar digit ≠ '+' := by
    have hfinite : ∀ digit < 16, Nat.digitChar digit ≠ '+' := by decide
    intro digit hdigit
    have := hlt digit hdigit
    exact hfinite digit (by omega)
  have hmap : (digits.map Nat.digitChar).mapM (digitValue radix) = some digits := by
    clear hne hnumeral hvalue hplus
    induction digits with
    | nil => rfl
    | cons digit digits ih =>
      rw [List.map_cons, List.mapM_cons, digitValue_digitChar hradix (hlt digit (List.mem_cons_self ..)),
        ih fun other hother ↦ hlt other (List.mem_cons_of_mem _ hother)]
      rfl
  rw [hnumeral]
  cases digits with
  | nil => exact absurd rfl hne
  | cons digit digits =>
    have hfirst := hplus digit (List.mem_cons_self ..)
    have hstrip : stripPlus ((digit :: digits).map Nat.digitChar) =
        (digit :: digits).map Nat.digitChar := by
      rw [List.map_cons, stripPlus]
      rintro rest h
      exact absurd (List.cons.inj h).1 hfirst
    rw [fromStrRadix, hstrip, if_neg (by simp), hmap]
    simp only [Option.bind_some, hvalue, if_pos value.toNat_lt, UInt64.ofNat_toNat]

/-- A numeral is not empty, and its characters are those of digits. -/
theorem numeral_chars (hradix : radix = 10 ∨ radix = 16) (accepts : Char → Bool)
    (haccepts : ∀ digit < radix, accepts (Nat.digitChar digit) = true) (value : ℕ) :
    numeral radix value ≠ [] ∧ ∀ char ∈ numeral radix value, accepts char = true := by
  obtain ⟨digits, hne, hlt, hnumeral, -⟩ := numeral_digits hradix value
  rw [hnumeral]
  refine ⟨by simpa using hne, fun char hchar ↦ ?_⟩
  obtain ⟨digit, hdigit, rfl⟩ := List.mem_map.mp hchar
  exact haccepts digit (hlt digit hdigit)

/-! ### The tokens of a printable program -/

/-- All kinds of a list can be lexed. -/
def Lexables (kinds : List TokenKind) : Prop := ∀ kind ∈ kinds, kind.Lexable

@[simp] theorem lexables_nil : Lexables [] := by simp [Lexables]

@[simp] theorem lexables_cons :
    Lexables (kind :: kinds) ↔ kind.Lexable ∧ Lexables kinds := by simp [Lexables]

@[simp] theorem lexables_append {kinds' : List TokenKind} :
    Lexables (kinds ++ kinds') ↔ Lexables kinds ∧ Lexables kinds' := by
  simp only [Lexables, List.mem_append, or_imp, forall_and]

@[simp] theorem lexable_symbol (symbol : Symbol) : (TokenKind.symbol symbol).Lexable := trivial

@[simp] theorem lexables_parenthesized : Lexables (parenthesized kinds) ↔ Lexables kinds := by
  simp [parenthesized]

@[simp] theorem lexables_blockKinds : Lexables (blockKinds kinds) ↔ Lexables kinds := by
  simp [blockKinds]

theorem lexable_of_isName (h : isName text = true) : (TokenKind.ident text).Lexable :=
  (Bool.and_eq_true_iff.mp h).1

theorem Literal.lexable {value : Literal} (h : value.isPrintable = true) : value.kind.Lexable := by
  cases value with
  | bool value span => cases value <;> (show isIdentifier _ = true) <;> decide
  | integer text span =>
    simp only [Literal.isPrintable, Bool.and_eq_true, decide_eq_true_eq, List.all_eq_true] at h
    exact h
  | string value span => exact h

mutual

theorem Expression.lexables : ∀ (expr : Expression) (level : ℕ), expr.isPrintable = true →
    Lexables (expr.kinds level)
  | .literal value, _, h => by
    rw [Expression.isPrintable] at h
    simpa [Expression.kinds] using Literal.lexable h
  | .name ident, _, h => by
    rw [Expression.isPrintable] at h
    simpa [Expression.kinds] using lexable_of_isName h
  | .call callee args span, _, h => by
    rw [Expression.isPrintable, Bool.and_eq_true] at h
    simp only [Expression.kinds, lexables_cons, lexables_parenthesized]
    exact ⟨lexable_of_isName h.1, lexables_arguments args h.2⟩
  | .unary .not expr span, _, h => by
    rw [Expression.isPrintable] at h
    simpa [Expression.kinds] using Expression.lexables expr 6 h
  | .binary op left right span, level, h => by
    rw [Expression.isPrintable, Bool.and_eq_true] at h
    have hleft := Expression.lexables left op.precedence h.1
    have hright := Expression.lexables right (op.precedence + 1) h.2
    rw [Expression.kinds]
    split_ifs <;> simp [hleft, hright]

theorem lexables_arguments : ∀ args : List Expression, allPrintable args = true →
    Lexables (argumentKinds args)
  | [], _ => by simp [argumentKinds]
  | expr :: exprs, h => by
    rw [allPrintable, Bool.and_eq_true] at h
    simp [argumentKinds, Expression.lexables expr 0 h.1, lexables_moreArguments exprs h.2]

theorem lexables_moreArguments : ∀ args : List Expression, allPrintable args = true →
    Lexables (moreArgumentKinds args)
  | [], _ => by simp [moreArgumentKinds]
  | expr :: exprs, h => by
    rw [allPrintable, Bool.and_eq_true] at h
    simp [moreArgumentKinds, Expression.lexables expr 0 h.1, lexables_moreArguments exprs h.2]

end

/-- The words of a printed program are identifiers. -/
theorem lexable_words : (TokenKind.ident "program").Lexable ∧ (TokenKind.ident "principal").Lexable ∧
    (TokenKind.ident "import").Lexable ∧ (TokenKind.ident "capability").Lexable ∧
    (TokenKind.ident "fn").Lexable ∧ (TokenKind.ident "main").Lexable ∧
    (TokenKind.ident "unit").Lexable ∧ (TokenKind.ident "let").Lexable ∧
    (TokenKind.ident "if").Lexable ∧ (TokenKind.ident "else").Lexable ∧
    (TokenKind.ident "while").Lexable ∧ (TokenKind.ident "budget").Lexable ∧
    (TokenKind.ident "return").Lexable := by
  simp only [TokenKind.Lexable]
  decide

theorem lexable_spelling (type : TypeName) : (TokenKind.ident type.spelling).Lexable := by
  show isIdentifier type.spelling.toList = true
  cases type <;> decide

mutual

theorem Statement.lexables : ∀ statement : Statement, statement.isPrintable = true →
    Lexables statement.kinds
  | .letLocal name type value span, h => by
    rw [Statement.isPrintable, Bool.and_eq_true] at h
    simp [Statement.kinds, lexable_of_isName h.1, lexable_spelling, lexable_words,
      Expression.lexables value 0 h.2]
  | .ifElse condition thenStatements [] span, h => by
    rw [Statement.isPrintable, Bool.and_eq_true, Bool.and_eq_true] at h
    simp [Statement.kinds, lexable_words, Expression.lexables condition 0 h.1,
      lexables_statements thenStatements h.2.1]
  | .ifElse condition thenStatements (first :: rest) span, h => by
    rw [Statement.isPrintable, Bool.and_eq_true, Bool.and_eq_true, allStatementsPrintable.eq_def
      (first :: rest)] at h
    simp only [Bool.and_eq_true] at h
    simp [Statement.kinds, lexable_words, Expression.lexables condition 0 h.1,
      lexables_statements thenStatements h.2.1, Statement.lexables first h.2.2.1,
      lexables_statements rest h.2.2.2]
  | .whileLoop budget condition statements span, h => by
    rw [Statement.isPrintable, Bool.and_eq_true, Bool.and_eq_true] at h
    have hbudget : (TokenKind.integer (decimalText budget)).Lexable := by
      rw [TokenKind.Lexable, decimalText, String.toList_ofList]
      exact numeral_chars (Or.inl rfl) _ (by decide) _
    simp [Statement.kinds, lexable_words, hbudget, Expression.lexables condition 0 h.2.1,
      lexables_statements statements h.2.2]
  | .expr expr, h => by
    rw [Statement.isPrintable] at h
    simp [Statement.kinds, Expression.lexables expr 0 h]
  | .ret span, _ => by simp [Statement.kinds, lexable_words]

theorem lexables_statements : ∀ statements : List Statement,
    allStatementsPrintable statements = true → Lexables (statementKinds statements)
  | [], _ => by simp [statementKinds]
  | statement :: statements, h => by
    rw [allStatementsPrintable, Bool.and_eq_true] at h
    simp [statementKinds, Statement.lexables statement h.1, lexables_statements statements h.2]

end

theorem lexable_right {right : List Char} (h : isIdentifier right = true) :
    (TokenKind.ident (String.ofList right)).Lexable := by
  rwa [TokenKind.Lexable, String.toList_ofList]

theorem lexables_rights (rights : List (List Char)) (h : ∀ right ∈ rights, isIdentifier right = true) :
    Lexables (rightKinds rights) := by
  cases rights with
  | nil => simp [rightKinds]
  | cons right rights =>
    obtain ⟨hright, hrest⟩ := List.forall_mem_cons.mp h
    refine lexables_cons.mpr ⟨lexable_right hright, fun kind hkind ↦ ?_⟩
    obtain ⟨other, hother, hkind⟩ := List.mem_flatMap.mp hkind
    rcases List.mem_pair.mp hkind with rfl | rfl
    · trivial
    · exact lexable_right (hrest other hother)

theorem ImportDecl.lexables {record : ImportDecl} (h : record.isPrintable = true) :
    Lexables record.kinds := by
  simp only [ImportDecl.isPrintable, Bool.and_eq_true, List.all_eq_true] at h
  obtain ⟨hname, hresource, hrights⟩ := h
  have hresource' : (TokenKind.ident record.resource).Lexable := hresource
  simp [ImportDecl.kinds, lexable_words, lexable_of_isName hname,
    lexables_rights _ hrights, hresource']

theorem Program.lexables {program : Program} (h : program.isPrintable = true) :
    Lexables program.kinds := by
  simp only [Program.isPrintable, Bool.and_eq_true, List.all_eq_true] at h
  obtain ⟨hname, himports, hmain, -⟩ := h
  have hprincipal : (TokenKind.hex (hexText program.principalId)).Lexable :=
    ⟨_, String.toList_ofList, (numeral_chars (Or.inr rfl) _ (by decide) _).2⟩
  have hdeclared : Lexables (program.imports.flatMap ImportDecl.kinds) := by
    intro kind hkind
    obtain ⟨record, hrecord, hkind⟩ := List.mem_flatMap.mp hkind
    exact ImportDecl.lexables (himports record hrecord) kind hkind
  simp [Program.kinds, functionKinds, lexable_words, lexable_of_isName hname, hprincipal, hdeclared,
    lexables_statements _ hmain]

end Pythos.Pythc
