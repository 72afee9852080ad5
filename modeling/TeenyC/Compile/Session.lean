import TeenyC.CUnit.Basic
import TeenyC.Compile.Variables
import TeenyC.Error

/-!
# Compile sessions

A program is compiled in one pass: every grammar rule writes its C text as soon as
it is recognised and checks names against the tables as they stand then.  A
session is what such a pass carries along, and a rule is a step of the pass that
may end in an error.  The session is kept on an error, with all that was written
until then.
-/

namespace TeenyC

/-- The state of a pass over a program. -/
structure Session where
  /-- Where the tokens after `lookahead` come from. -/
  lexer : Lexer
  /-- The token that the next rule starts at. -/
  current : Token
  /-- The token after `current`. -/
  lookahead : Token
  /-- The C text so far. -/
  unit : CUnit
  /-- The function whose body is being compiled. -/
  function : String
  /-- The variables declared so far. -/
  table : Variables
  /-- The functions declared so far. -/
  functions : NameSet
  /-- The labels declared so far. -/
  labels : NameSet
  /-- The labels jumped to so far. -/
  targets : NameSet

/-- The function that holds the statements outside all declared functions. -/
def mainFunction : String := "main"

namespace Session

/-- Start a pass: read the first two tokens.  The tables are empty but for the
main function. -/
def start (lexer : Lexer) (unit : CUnit) : Except Error Session :=
  match lexer.next with
  | .error error _ => .error (.lexical error)
  | .ok current afterFirst =>
    match afterFirst.next with
    | .error error _ => .error (.lexical error)
    | .ok lookahead afterSecond =>
      .ok {
        lexer := afterSecond
        current
        lookahead
        unit
        function := mainFunction
        table := .ofFunction mainFunction
        functions := .empty
        labels := .empty
        targets := .empty }

/-- A bound on the tokens that come before the end of the input: the two that are
already read, and one for every unread byte. -/
def remaining (session : Session) : Nat :=
  session.lexer.unread + 2

/-- Whether the current token is of a given kind. -/
def isAt (session : Session) (kind : Kind) : Bool :=
  session.current.is kind

end Session

/-- A step of the pass. -/
abbrev Rule := EStateM Error Session

namespace Rule

/-! ## Tokens -/

/-- Go on to the next token. -/
def shift : Rule Unit := fun session =>
  match session.lexer.next with
  | .ok token lexer =>
    .ok () { session with lexer, current := session.lookahead, lookahead := token }
  | .error error lexer => .error (.lexical error) { session with lexer }

/-- Go past a token of a given kind. -/
def expect (kind : Kind) : Rule Unit := do
  let found := (← get).current.kind
  if found = kind then
    shift
  else
    throw (.syntactic (.wrongKind kind found))

/-- Go past an identifier and give its name. -/
def identifier : Rule String := do
  let name := (← get).current.text
  expect .identifier
  return name

/-! ## Output -/

/-- Write C text into the active section. -/
def write (text : String) : Rule Unit :=
  modify fun session => { session with unit := session.unit.write text }

/-- Write a line of C text into the active section. -/
def writeLine (text : String) : Rule Unit :=
  modify fun session => { session with unit := session.unit.writeLine text }

/-- Make a section of the C text the active one. -/
def select (part : Section) : Rule Unit :=
  modify fun session => { session with unit := session.unit.select part }

/-! ## Repetition -/

/-- Repeat a rule as long as a condition holds, at most `n` times. -/
def repeatAtMost (condition : Session → Bool) (rule : Rule Unit) : Nat → Rule Unit
  | 0 => pure ()
  | n + 1 => do
    if condition (← get) then
      rule
      repeatAtMost condition rule n

/-- Repeat a rule as long as a condition holds.  The rule goes past a token every
time and the condition fails at the end of the input, so the remaining tokens
bound the number of times. -/
def repeatWhile (condition : Session → Bool) (rule : Rule Unit) : Rule Unit := do
  repeatAtMost condition rule (← get).remaining

/-! ## Line ends -/

/-- Go past all line ends at the current token. -/
def skipNewlines : Rule Unit :=
  repeatWhile (·.isAt .newline) shift

/-- Go past one line end or more. -/
def lineEnd : Rule Unit := do
  expect .newline
  skipNewlines

end Rule

end TeenyC
