import TeenyC.Compile.Session

/-!
# Expressions and comparisons

```text
comparison  := expression ( cmp-op expression )+
expression  := term { ("+" | "-") term }
term        := unary { ("*" | "/") unary }
unary       := [ "+" | "-" ] primary
primary     := NUMBER | IDENT
```

The C text of an expression is its tokens.  A binary operator has a space on both
sides, so that a sign after it cannot run together with it into `--` or `++`.
-/

namespace TeenyC.Rule

/-- Write the current operator between spaces and go past it. -/
def binaryOperator : Rule Unit := do
  write (" " ++ (← get).current.text ++ " ")
  shift

/-- A number, or a variable that the current function has declared. -/
def primary : Rule Unit := do
  let session ← get
  let token := session.current
  match token.kind with
  | .number => pure ()
  | .identifier =>
    if !session.table.declares session.function token.text then
      throw (.semantic (.unknownVariable token.text))
  | _ => throw (.syntactic (.notAnOperand token))
  write token.text
  shift

/-- A primary with at most one sign. -/
def unary : Rule Unit := do
  let session ← get
  if session.isAt .plus || session.isAt .minus then
    write session.current.text
    shift
  primary

/-- A product of unaries. -/
def term : Rule Unit := do
  unary
  repeatWhile (fun session => session.isAt .times || session.isAt .divide) do
    binaryOperator
    unary

/-- A sum of terms. -/
def expression : Rule Unit := do
  term
  repeatWhile (fun session => session.isAt .plus || session.isAt .minus) do
    binaryOperator
    term

/-- Two expressions or more with comparisons between them. -/
def comparison : Rule Unit := do
  expression
  let token := (← get).current
  if !token.kind.isComparison then
    throw (.syntactic (.notAComparison token))
  repeatWhile (fun session => session.current.kind.isComparison) do
    binaryOperator
    expression

end TeenyC.Rule
