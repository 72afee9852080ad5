import TeenyC.Token.Lexeme

/-!
# The lexer

A cursor on a source text that hands out one token at a time.  The text ends in a
line end of its own, so that the last statement is always closed, and the end of
the input is handed out as often as it is asked for.

The cursor counts in bytes of UTF-8.  Reading tokens only ever leaves it between
two characters, but `advance` moves it by a single byte and may leave it inside
one; there no token can be read.
-/

namespace TeenyC

/-- A cursor on a source text. -/
structure Lexer where
  /-- The text from the character under the cursor on. -/
  rest : List Char
  /-- The number of bytes before the cursor. -/
  position : Nat
  /-- The number of bytes of the first character of `rest` before the cursor. -/
  inside : Nat
  /-- The number of bytes of the whole text. -/
  size : Nat
  deriving DecidableEq

/-- Why and where no token could be read. -/
structure LexicalError where
  position : Nat
  cause : LexicalCause
  deriving DecidableEq

namespace Lexer

/-- The cursor at the start of a source text. -/
def ofString (source : String) : Lexer where
  rest := source.toList ++ ['\n']
  position := 0
  inside := 0
  size := source.utf8ByteSize + 1

/-- The number of bytes from the cursor to the end of the text. -/
def unread (lexer : Lexer) : Nat :=
  lexer.size - lexer.position

/-! ## Moving the cursor -/

/-- Move by one byte. -/
def advance (lexer : Lexer) : Lexer :=
  match lexer.rest with
  | [] => { lexer with position := lexer.position + 1 }
  | c :: rest =>
    if lexer.inside + 1 < c.utf8Size then
      { lexer with position := lexer.position + 1, inside := lexer.inside + 1 }
    else
      { lexer with rest, position := lexer.position + 1, inside := 0 }

/-- Pass a number of whole characters.  Past the end of the text each counts for
one byte. -/
def pass : Nat → Lexer → Lexer
  | 0, lexer => lexer
  | n + 1, lexer =>
    match lexer.rest with
    | [] => pass n { lexer with position := lexer.position + 1 }
    | c :: rest => pass n { lexer with rest, position := lexer.position + c.utf8Size }

/-- Space, tab and vertical tab. -/
def isBlank (c : Char) : Bool :=
  c == ' ' || c == '\t' || c == '\x0b'

/-- Pass the blanks at the cursor. -/
def skipBlanks (lexer : Lexer) : Lexer :=
  if lexer.inside = 0 then
    lexer.pass (lexer.rest.takeWhile isBlank).length
  else
    lexer

/-- Pass a comment at the cursor, up to the end of its line. -/
def skipComment (lexer : Lexer) : Lexer :=
  match lexer.inside, lexer.rest with
  | 0, '#' :: rest => lexer.pass (1 + (rest.takeWhile (· != '\n')).length)
  | _, _ => lexer

/-! ## Looking at the text -/

/-- The bytes from the cursor on, as far as the next character reaches. -/
def upcoming (lexer : Lexer) : List UInt8 :=
  ((lexer.rest.take 2).flatMap String.utf8EncodeChar).drop lexer.inside

/-- The byte after the one under the cursor, zero past the end. -/
def peek (lexer : Lexer) : UInt8 :=
  (lexer.upcoming.drop 1).headD 0

/-! ## Tokens -/

/-- Read the next token, after passing blanks and a comment.  A fault leaves the
cursor at the place that the error reports. -/
def next : EStateM LexicalError Lexer Token := fun lexer =>
  let start := lexer.skipBlanks.skipComment
  if start.inside = 0 then
    let reading := Lexeme.read start.rest
    let after := start.pass reading.passed
    match reading.result with
    | .ok token => .ok token after
    | .error cause => .error ⟨after.position, cause⟩ after
  else
    .error ⟨start.position, .insideCharacter⟩ start

/-- The next tokens up to the end of the input, at most `n` of them. -/
def tokens : Nat → Lexer → Except LexicalError (List Token)
  | 0, _ => .ok []
  | n + 1, lexer =>
    match lexer.next with
    | .error error _ => .error error
    | .ok token after =>
      if token.kind = .endOfInput then
        .ok [token]
      else
        (tokens n after).map (token :: ·)

end Lexer

/-- The tokens of a source text, the end of the input being the last.  Every other
token takes a byte at least, which bounds their number. -/
def tokenize (source : String) : Except LexicalError (List Token) :=
  let lexer := Lexer.ofString source
  lexer.tokens (lexer.unread + 1)

end TeenyC
