import TeenyC.Compile.Statement

/-!
# Programs

A Teeny program is a sequence of statements, and compiles to one C unit.  `run`
compiles the text behind a lexer into a unit that may hold text already; `compile`
compiles a source text into a unit of its own.
-/

namespace TeenyC

/-- The names that a program declares, each list in increasing order. -/
structure Summary where
  functions : List String
  labels : List String
  deriving DecidableEq

/-- The whole program.  Jumps are checked last, as a label may be declared after
the jumps to it; of several unknown labels the least is reported. -/
def Rule.program : Rule Summary := do
  select .header
  writeLine "#include <stdio.h>"
  select .main
  writeLine "int main() \x7b"
  skipNewlines
  repeatWhile (fun session => !session.isAt .endOfInput) statement
  writeLine "return 0;"
  writeLine "\x7d"
  let session ← get
  match session.targets.firstNotIn? session.labels with
  | some name => throw (.semantic (.unknownLabel name))
  | none => return ⟨session.functions.names, session.labels.names⟩

/-- Compile the text behind a lexer into a unit.  On an error the unit holds what
was written until then. -/
def run (lexer : Lexer) (unit : CUnit) : Except Error Summary × CUnit :=
  match Session.start lexer unit with
  | .error error => (.error error, unit)
  | .ok session =>
    match Rule.program session with
    | .ok summary after => (.ok summary, after.unit)
    | .error error after => (.error error, after.unit)

/-- A compiled program. -/
structure Artifact where
  /-- The complete C text. -/
  text : String
  summary : Summary
  deriving DecidableEq

/-- Compile a source text. -/
def compile (source : String) : Except Error Artifact :=
  match run (.ofString source) .empty with
  | (.ok summary, unit) => .ok ⟨unit.flatten, summary⟩
  | (.error error, _) => .error error

end TeenyC
