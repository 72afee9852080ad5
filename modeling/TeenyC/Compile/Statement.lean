import TeenyC.Compile.Expression

/-!
# Statements

```text
statement   := ( action | block | label-stmt | assignment ) nl
action      := "print" ( STRING | expression ) | IDENT
block       := "fn" IDENT nl { statement } "end"
             | ("if" | "while") "(" comparison ")" nl { statement } "end"
label-stmt  := "label" IDENT | "goto" IDENT
assignment  := "let" IDENT "=" expression | "input" IDENT
nl          := NEWLINE+
```

Blocks hold statements.  Their rules take the rule for the statements inside as an
argument, and `statementWithin` closes the circle by a bound on the depth.
-/

namespace TeenyC.Rule

/-! ## Actions -/

/-- The text of a C string literal for a Teeny string.  Teeny strings have no
escapes, so a backslash stands for itself. -/
def literalText (text : String) : String :=
  String.ofList (text.toList.flatMap fun c => if c = '\\' then ['\\', '\\'] else [c])

/-- `print` with a string or an expression. -/
def printStatement : Rule Unit := do
  shift
  let token := (← get).current
  if token.is .string then
    writeLine ("printf(\"%s\\n\", \"" ++ literalText token.text ++ "\");")
    shift
  else
    write "printf(\"%.2f\\n\", (float) ("
    expression
    writeLine "));"

/-- A call to a function that is declared earlier in the source. -/
def callStatement : Rule Unit := do
  let session ← get
  let name := session.current.text
  if !session.functions.contains name then
    throw (.semantic (.unknownFunction name (session.lookahead.is .assign)))
  writeLine (name ++ "();")
  shift

/-! ## Labels -/

/-- `label` declares a label.  The empty statement after it keeps it legal before
a closing brace. -/
def labelStatement : Rule Unit := do
  shift
  let name ← identifier
  if (← get).labels.contains name then
    throw (.semantic (.duplicateLabel name))
  modify fun session => { session with labels := session.labels.insert name }
  writeLine (name ++ ":;")

/-- `goto` jumps to a label, which may be declared anywhere in the program. -/
def gotoStatement : Rule Unit := do
  shift
  let name ← identifier
  writeLine ("goto " ++ name ++ ";")
  modify fun session => { session with targets := session.targets.insert name }

/-! ## Assignments -/

/-- Declare a variable in the current function, in C too if it is new. -/
def declareVariable (name : String) : Rule Unit := do
  let session ← get
  if !session.table.declares session.function name then
    set { session with table := session.table.declare session.function name }
    writeLine ("float " ++ name ++ ";")

/-- `let` assigns the value of an expression to a variable. -/
def letStatement : Rule Unit := do
  shift
  let name ← identifier
  declareVariable name
  write (name ++ " = ")
  expect .assign
  expression
  writeLine ";"

/-- `input` reads a value into a variable.  Input that is no number leaves zero
there and is passed over up to the next blank. -/
def inputStatement : Rule Unit := do
  shift
  let name ← identifier
  declareVariable name
  writeLine ("if (0 == scanf(\"%f\", &" ++ name ++ ")) \x7b")
  writeLine (name ++ " = 0;")
  writeLine "scanf(\"%*s\");"
  writeLine "\x7d"

/-! ## Blocks -/

/-- The statements of a block, up to its `end`. -/
def blockBody (statement : Rule Unit) : Rule Unit := do
  lineEnd
  repeatWhile (fun session => !session.isAt .endKeyword && !session.isAt .endOfInput) statement
  expect .endKeyword

/-- `fn` declares a function.  Its C text goes to a section of its own. -/
def functionDeclaration (statement : Rule Unit) : Rule Unit := do
  if (← get).unit.active = .functions then
    throw (.semantic .nestedFunction)
  shift
  let name ← identifier
  if name = mainFunction || (← get).functions.contains name then
    throw (.semantic (.duplicateFunction name))
  modify fun session =>
    { session with
      functions := session.functions.insert name
      table := session.table.openFunction name }
  select .functions
  writeLine ("void " ++ name ++ "() \x7b")
  modify fun session => { session with function := name }
  blockBody statement
  writeLine "\x7d"
  select .main
  modify fun session => { session with function := mainFunction }

/-- `if` or `while`, with a condition and a block. -/
def conditionalBlock (word : String) (statement : Rule Unit) : Rule Unit := do
  shift
  expect .leftParen
  write (word ++ " (")
  comparison
  expect .rightParen
  writeLine ") \x7b"
  blockBody statement
  writeLine "\x7d"

/-! ## All statements -/

/-- One statement with its line end, given the rule for statements inside it. -/
def statementOver (inner : Rule Unit) : Rule Unit := do
  let token := (← get).current
  match token.kind with
  | .printKeyword => printStatement
  | .identifier => callStatement
  | .fnKeyword => functionDeclaration inner
  | .ifKeyword => conditionalBlock "if" inner
  | .whileKeyword => conditionalBlock "while" inner
  | .labelKeyword => labelStatement
  | .gotoKeyword => gotoStatement
  | .letKeyword => letStatement
  | .inputKeyword => inputStatement
  | _ => throw (.syntactic (.notAStatement token))
  lineEnd

/-- One statement with its line end, whose blocks are nested less than `depth`
deep. -/
def statementWithin : Nat → Rule Unit
  | 0 => pure ()
  | depth + 1 => statementOver (statementWithin depth)

/-- One statement with its line end.  Every block starts with a token of its own,
so the remaining tokens bound the depth. -/
def statement : Rule Unit := do
  statementWithin (← get).remaining

end TeenyC.Rule
