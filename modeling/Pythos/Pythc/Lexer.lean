import Pythos.Pythc.Encode

/-!
# The lexer of Pyth

The lexer walks the UTF-8 bytes of its source. A byte is written here as the character `byte as char`,
which is also what `lex_string` pushes for it. The loop of the source advances its position by the bytes
of a lexeme; `run` visits every byte and skips those of the current lexeme, so it needs no fuel.

A string literal denotes its bytes read one by one (`lex_quoted`), which is the text between the quotes
exactly for ASCII text (`lex_quoted_iff`).
-/

namespace Pythos.Pythc

/-! ### Tokens -/

inductive Symbol
  | lBrace
  | rBrace
  | lParen
  | rParen
  | colon
  | semicolon
  | comma
  | less
  | greater
  | eq
  | eqEq
  | arrow
  | plus
  | minus
  | andAnd
  | pipe
  | orOr
  | bang
  deriving DecidableEq, Repr

inductive TokenKind
  | ident (text : String)
  | hex (text : String)
  | integer (text : String)
  | string (value : String)
  | symbol (symbol : Symbol)
  | eof
  deriving DecidableEq, Repr

structure Token where
  kind : TokenKind
  span : Span
  deriving DecidableEq, Repr

/-! ### Bytes -/

/-- `byte as char`. -/
def byteChar (byte : UInt8) : Char := Char.ofNat byte.toNat

/-- The UTF-8 bytes of a character. -/
def charBytes (char : Char) : List Char := (String.utf8EncodeChar char).map byteChar

/-- `source.as_bytes()`. -/
def sourceBytes (source : String) : List Char := source.toList.flatMap charBytes

/-! ### Lexemes -/

namespace Lexer

def isIdentPart (byte : Char) : Bool := byte.isAlphanum || byte = '_' || byte = '.'

def isHexDigit (byte : Char) : Bool :=
  byte.isDigit || ('a' ≤ byte && byte ≤ 'f') || ('A' ≤ byte && byte ≤ 'F')

/-- The longest run of bytes of a class, as the text of a token and its length. -/
def lexWhile (accepts : Char → Bool) (kind : String → TokenKind) (bytes : List Char) :
    Option TokenKind × ℕ :=
  (some (kind (String.ofList (bytes.takeWhile accepts))), (bytes.takeWhile accepts).length)

def lexIdent : List Char → Option TokenKind × ℕ := lexWhile isIdentPart .ident

def lexInteger : List Char → Option TokenKind × ℕ := lexWhile Char.isDigit .integer

/-- The two bytes of the sign of a hexadecimal number belong to the token. -/
def lexHex (zero sign : Char) (rest : List Char) : Option TokenKind × ℕ :=
  (some (.hex (String.ofList (zero :: sign :: rest.takeWhile isHexDigit))),
    (rest.takeWhile isHexDigit).length + 2)

def unescape : Char → Char
  | 'n' => '\n'
  | 'r' => '\r'
  | 't' => '\t'
  | escaped => escaped

/-- `lex_string` behind the opening quote: the value and the number of bytes up to the closing quote, or
nothing if the string is not terminated. -/
def lexString : List Char → Option (List Char × ℕ)
  | [] => none
  | '"' :: _ => some ([], 1)
  | ['\\'] => none
  | '\\' :: escaped :: rest =>
    (lexString rest).map fun lexed ↦ (unescape escaped :: lexed.1, lexed.2 + 2)
  | byte :: rest => (lexString rest).map fun lexed ↦ (byte :: lexed.1, lexed.2 + 1)

/-- The symbol that starts with a byte, given the next byte, and its length. -/
def symbolAt : Char → Option Char → Option (Symbol × ℕ)
  | '{', _ => some (.lBrace, 1)
  | '}', _ => some (.rBrace, 1)
  | '(', _ => some (.lParen, 1)
  | ')', _ => some (.rParen, 1)
  | ':', _ => some (.colon, 1)
  | ';', _ => some (.semicolon, 1)
  | ',', _ => some (.comma, 1)
  | '<', _ => some (.less, 1)
  | '>', _ => some (.greater, 1)
  | '+', _ => some (.plus, 1)
  | '!', _ => some (.bang, 1)
  | '=', some '=' => some (.eqEq, 2)
  | '=', _ => some (.eq, 1)
  | '-', some '>' => some (.arrow, 2)
  | '-', _ => some (.minus, 1)
  | '&', some '&' => some (.andAnd, 2)
  | '|', some '|' => some (.orOr, 2)
  | '|', _ => some (.pipe, 1)
  | _, _ => none

def isSpace (byte : Char) : Bool := byte = ' ' || byte = '\r' || byte = '\n' || byte = '\t'

/-- One turn of the loop of `run`: the token at a position, if it is not white space, and the number of
its bytes. -/
def lexeme (pos : ℕ) (byte : Char) (rest : List Char) :
    Except Diagnostic (Option TokenKind × ℕ) :=
  if isSpace byte then .ok (none, 1)
  else if byte.isAlpha || byte = '_' then .ok (lexIdent (byte :: rest))
  else if byte = '0' ∧ rest.head? = some 'x' then .ok (lexHex byte 'x' rest.tail)
  else if byte = '0' ∧ rest.head? = some 'X' then .ok (lexHex byte 'X' rest.tail)
  else if byte.isDigit then .ok (lexInteger (byte :: rest))
  else if byte = '"' then
    match lexString rest with
    | some (value, len) => .ok (some (.string (String.ofList value)), len + 1)
    | none => .error ⟨"P0002", "unterminated string", ⟨pos, pos + 1 + rest.length⟩⟩
  else
    match symbolAt byte rest.head? with
    | some (symbol, len) => .ok (some (.symbol symbol), len)
    | none => .error ⟨"P0001", "unexpected character", ⟨pos, pos + 1⟩⟩

/-- `Lexer::run` from a position, with the bytes of the current lexeme that are still to be skipped. -/
def run : ℕ → ℕ → List Char → Except Diagnostic (List Token)
  | _, pos, [] => .ok [⟨.eof, ⟨pos, pos⟩⟩]
  | skip + 1, pos, _ :: rest => run skip (pos + 1) rest
  | 0, pos, byte :: rest => do
    let (kind, len) ← lexeme pos byte rest
    let tokens ← run (len - 1) (pos + 1) rest
    match kind with
    | some kind => .ok (⟨kind, ⟨pos, pos + len⟩⟩ :: tokens)
    | none => .ok tokens

end Lexer

def lex (source : String) : Except Diagnostic (List Token) :=
  Lexer.run 0 0 (sourceBytes source)

namespace Lexer

theorem run_skip (skip : ℕ) : ∀ (pos : ℕ) (bytes : List Char), skip ≤ bytes.length →
    run skip pos bytes = run 0 (pos + skip) (bytes.drop skip) := by
  induction skip with
  | zero => exact fun _ _ _ ↦ rfl
  | succ skip ih =>
    intro pos bytes hle
    cases bytes with
    | nil => simp at hle
    | cons byte rest =>
      rw [run, List.drop_succ_cons, ih (pos + 1) rest (by simpa using hle)]
      congr 1
      omega

/-- A lexeme followed by the rest of the source. -/
theorem run_lexeme {pos : ℕ} {byte : Char} {bytes rest : List Char} {kind : TokenKind}
    (h : lexeme pos byte (bytes ++ rest) = .ok (some kind, bytes.length + 1)) :
    run 0 pos (byte :: (bytes ++ rest)) = (run 0 (pos + (bytes.length + 1)) rest).map
      (⟨kind, ⟨pos, pos + (bytes.length + 1)⟩⟩ :: ·) := by
  have hskip := run_skip bytes.length (pos + 1) (bytes ++ rest) (by simp)
  rw [List.drop_left, Nat.add_right_comm pos 1, Nat.add_assoc pos] at hskip
  rw [run, h]
  show (run (bytes.length + 1 - 1) (pos + 1) (bytes ++ rest)).bind _ = _
  rw [Nat.add_sub_cancel, hskip]
  cases run 0 (pos + (bytes.length + 1)) rest <;> rfl

theorem run_space (pos : ℕ) (rest : List Char) : run 0 pos (' ' :: rest) = run 0 (pos + 1) rest := by
  rw [run]
  show (run 0 (pos + 1) rest).bind _ = _
  cases run 0 (pos + 1) rest <;> rfl

end Lexer

/-! ### String literals -/

/-- The characters that stand for a character in a string literal. -/
def escapeChar : Char → List Char
  | '"' => ['\\', '"']
  | '\\' => ['\\', '\\']
  | '\n' => ['\\', 'n']
  | '\r' => ['\\', 'r']
  | '\t' => ['\\', 't']
  | char => [char]

/-- A text as a string literal. -/
def quotedChars (text : String) : List Char := '"' :: (text.toList.flatMap escapeChar ++ ['"'])

def quoted (text : String) : String := String.ofList (quotedChars text)

/-- The text that a string literal denotes: its bytes, each as a character. -/
def denoted (text : String) : String := String.ofList (sourceBytes text)

theorem charBytes_of_ascii {char : Char} (h : char.toNat < 128) : charBytes char = [char] := by
  have hencode : String.utf8EncodeChar char = [UInt8.ofNat char.toNat] := by
    change char.val.toNat < 128 at h
    rw [String.utf8EncodeChar, if_pos (Nat.le_of_lt_succ h)]
    rfl
  have hbyte : (UInt8.ofNat char.toNat).toNat = char.toNat := by
    rw [UInt8.toNat_ofNat']
    exact Nat.mod_eq_of_lt (by omega)
  rw [charBytes, hencode, List.map_singleton, byteChar, hbyte, Char.ofNat_toNat]

theorem toNat_byteChar (byte : UInt8) : (byteChar byte).toNat = byte.toNat := by
  have hlt := byte.toNat_lt
  have hvalid : byte.toNat.isValidChar := Or.inl (by omega)
  rw [byteChar, Char.ofNat, dif_pos hvalid]
  rfl

/-- The bytes of a character outside ASCII are outside ASCII. -/
theorem le_of_mem_charBytes {char byte : Char} (h : 128 ≤ char.toNat) (hmem : byte ∈ charBytes char) :
    128 ≤ byte.toNat := by
  obtain ⟨raw, hraw, rfl⟩ := List.mem_map.mp hmem
  rw [toNat_byteChar]
  have hsize : char.val.toNat < 0x110000 := by
    have := char.valid
    unfold UInt32.isValidChar Nat.isValidChar at this
    omega
  change 128 ≤ char.val.toNat at h
  unfold String.utf8EncodeChar at hraw
  simp only at hraw
  split_ifs at hraw <;> simp only [List.mem_cons, List.not_mem_nil, or_false] at hraw
  · omega
  all_goals
    rcases hraw with rfl | rfl | rfl | rfl
    all_goals
      rw [UInt8.toNat_ofNat']
      omega

theorem length_charBytes (char : Char) : (charBytes char).length = char.utf8Size := by
  rw [charBytes, List.length_map, String.length_utf8EncodeChar]

/-- A byte that is neither a quote nor a backslash stands for itself. -/
theorem lexString_plain {byte : Char} (hquote : byte ≠ '"') (hescape : byte ≠ '\\')
    (rest : List Char) :
    Lexer.lexString (byte :: rest) =
      (Lexer.lexString rest).map fun lexed ↦ (byte :: lexed.1, lexed.2 + 1) := by
  rw [Lexer.lexString]
  · exact hquote
  · rintro h rfl
    exact hescape h
  · rintro escaped tail h
    exact absurd h hescape

theorem lexString_plains (bytes rest : List Char) (h : ∀ byte ∈ bytes, byte ≠ '"' ∧ byte ≠ '\\') :
    Lexer.lexString (bytes ++ rest) = (Lexer.lexString rest).map fun lexed ↦
      (bytes ++ lexed.1, lexed.2 + bytes.length) := by
  induction bytes with
  | nil => simp
  | cons byte bytes ih =>
    obtain ⟨hquote, hescape⟩ := h byte (List.mem_cons_self ..)
    rw [List.cons_append, lexString_plain hquote hescape,
      ih fun other hother ↦ h other (List.mem_cons_of_mem _ hother), Option.map_map]
    rfl

/-- The literal of a character denotes its bytes. -/
theorem lexString_escapeChar (char : Char) (rest : List Char) :
    Lexer.lexString ((escapeChar char).flatMap charBytes ++ rest) =
      (Lexer.lexString rest).map fun lexed ↦
        (charBytes char ++ lexed.1, lexed.2 + ((escapeChar char).flatMap charBytes).length) := by
  have hescaped : ∀ escaped : Char, charBytes '\\' ++ charBytes escaped = ['\\', escaped] →
      charBytes char = [Lexer.unescape escaped] → escapeChar char = ['\\', escaped] →
        Lexer.lexString ((escapeChar char).flatMap charBytes ++ rest) =
          (Lexer.lexString rest).map fun lexed ↦
            (charBytes char ++ lexed.1, lexed.2 + ((escapeChar char).flatMap charBytes).length) := by
    intro escaped hbytes hchar hescape
    have hflat : (escapeChar char).flatMap charBytes = ['\\', escaped] := by
      rw [hescape, List.flatMap_cons, List.flatMap_singleton, hbytes]
    rw [hflat, hchar]
    rfl
  by_cases hspecial : char = '"' ∨ char = '\\' ∨ char = '\n' ∨ char = '\r' ∨ char = '\t'
  · rcases hspecial with rfl | rfl | rfl | rfl | rfl
    · exact hescaped '"' (by decide) (by decide) rfl
    · exact hescaped '\\' (by decide) (by decide) rfl
    · exact hescaped 'n' (by decide) (by decide) rfl
    · exact hescaped 'r' (by decide) (by decide) rfl
    · exact hescaped 't' (by decide) (by decide) rfl
  · push Not at hspecial
    obtain ⟨hquote, hbackslash, hnewline, hreturn, htab⟩ := hspecial
    have hplain : escapeChar char = [char] := by
      unfold escapeChar
      split <;> first | rfl | contradiction
    rw [hplain, List.flatMap_singleton]
    refine lexString_plains _ _ fun byte hbyte ↦ ?_
    by_cases hascii : char.toNat < 128
    · rw [charBytes_of_ascii hascii, List.mem_singleton] at hbyte
      subst hbyte
      exact ⟨hquote, hbackslash⟩
    · have hlarge := le_of_mem_charBytes (not_lt.mp hascii) hbyte
      refine ⟨?_, ?_⟩ <;> rintro rfl <;> exact absurd hlarge (by decide)

/-- The bytes between the quotes of a literal. -/
def literalBytes (text : List Char) : List Char := text.flatMap fun char ↦ (escapeChar char).flatMap charBytes

theorem lexString_literalBytes (text rest : List Char) :
    Lexer.lexString (literalBytes text ++ '"' :: rest) =
      some (text.flatMap charBytes, (literalBytes text).length + 1) := by
  induction text with
  | nil => rfl
  | cons char text ih =>
    rw [literalBytes, List.flatMap_cons, List.append_assoc, lexString_escapeChar]
    change (Lexer.lexString (literalBytes text ++ _)).map _ = _
    rw [ih, Option.map_some, List.flatMap_cons]
    simp only [literalBytes, List.length_append, Option.some.injEq, Prod.mk.injEq, true_and]
    omega

theorem sourceBytes_quoted (text : String) :
    sourceBytes (quoted text) = '"' :: (literalBytes text.toList ++ ['"']) := by
  have hquote : charBytes '"' = ['"'] := by decide
  rw [sourceBytes, quoted, String.toList_ofList, quotedChars, List.flatMap_cons, List.flatMap_append,
    List.flatMap_singleton, hquote, literalBytes, List.flatMap_assoc]
  rfl

theorem lexeme_literalBytes (pos : ℕ) (text rest : List Char) :
    Lexer.lexeme pos '"' (literalBytes text ++ '"' :: rest) =
      .ok (some (.string (String.ofList (text.flatMap charBytes))), (literalBytes text).length + 2) := by
  unfold Lexer.lexeme
  rw [lexString_literalBytes]
  rfl

/-- A string literal is lexed to one token, whose value is the bytes of the text. -/
theorem lex_quoted (text : String) : ∃ len, lex (quoted text) =
    .ok [⟨.string (denoted text), ⟨0, len⟩⟩, ⟨.eof, ⟨len, len⟩⟩] := by
  refine ⟨(literalBytes text.toList ++ ['"']).length + 1, ?_⟩
  have hlexeme : Lexer.lexeme 0 '"' (literalBytes text.toList ++ ['"'] ++ []) =
      .ok (some (.string (denoted text)), (literalBytes text.toList ++ ['"']).length + 1) := by
    rw [List.append_nil, List.length_append]
    exact lexeme_literalBytes 0 text.toList []
  have hrun := Lexer.run_lexeme hlexeme
  rw [List.append_nil] at hrun
  rw [lex, sourceBytes_quoted, hrun]
  simp [Lexer.run, Except.map]

theorem denoted_eq_iff (text : String) :
    denoted text = text ↔ ∀ char ∈ text.toList, char.toNat < 128 := by
  have hsource : denoted text = text ↔ text.toList.flatMap charBytes = text.toList := by
    rw [denoted, ← String.toList_inj, String.toList_ofList, sourceBytes]
  rw [hsource]
  generalize text.toList = chars
  constructor
  · -- A character outside ASCII has two bytes at least, so the text grows.
    intro heq char hchar
    by_contra hlarge
    have hone : ∀ chars : List Char, chars.length ≤ (chars.flatMap charBytes).length := by
      intro chars
      induction chars with
      | nil => simp
      | cons char chars ih =>
        have hsize := char.utf8Size_pos
        rw [List.flatMap_cons, List.length_append, length_charBytes, List.length_cons]
        omega
    obtain ⟨before, after, rfl⟩ := List.append_of_mem hchar
    have hlength := congrArg List.length heq
    have hsize : char.utf8Size ≠ 1 := by
      intro hone
      exact hlarge (Nat.lt_succ_of_le (Char.utf8Size_eq_one_iff.mp hone))
    have hpos := char.utf8Size_pos
    have hbefore := hone before
    have hafter := hone after
    simp only [List.flatMap_append, List.flatMap_cons, List.length_append, length_charBytes,
      List.length_cons] at hlength
    omega
  · intro hascii
    induction chars with
    | nil => rfl
    | cons char chars ih =>
      rw [List.flatMap_cons, charBytes_of_ascii (hascii char (List.mem_cons_self ..)),
        ih fun other hother ↦ hascii other (List.mem_cons_of_mem _ hother)]
      rfl

/-- String literals denote their text exactly if it is ASCII: the literal of a text is lexed to one token
with the text as its value if and only if every character of the text is below 128. -/
theorem lex_quoted_iff (text : String) :
    (∃ span stop, lex (quoted text) = .ok [⟨.string text, span⟩, ⟨.eof, stop⟩]) ↔
      ∀ char ∈ text.toList, char.toNat < 128 := by
  rw [← denoted_eq_iff]
  obtain ⟨len, hlex⟩ := lex_quoted text
  constructor
  · rintro ⟨span, stop, h⟩
    rw [hlex] at h
    exact TokenKind.string.inj (congrArg Token.kind (List.cons.inj (Except.ok.inj h)).1)
  · intro h
    rw [h] at hlex
    exact ⟨_, _, hlex⟩

/-- The literal of `é` denotes two characters. -/
theorem lex_quoted_eAcute :
    lex (quoted "é") = .ok [⟨.string "Ã©", ⟨0, 4⟩⟩, ⟨.eof, ⟨4, 4⟩⟩] ∧ "Ã©" ≠ "é" := by
  decide +kernel

end Pythos.Pythc
