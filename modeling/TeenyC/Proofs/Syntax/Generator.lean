import TeenyC.Compile.Statement
import TeenyC.Proofs.Syntax.Block

/-!
# The C text of a program, from its tree

A generator in two passes.  The first takes the functions out of the tree, wherever
they are declared, and leaves the rest without them.  The second writes each
function and the rest line by line.  A line that declares a variable stands before
the first `let` or `input` for it in its function, and nowhere else.
-/

namespace TeenyC.Syntax

/-! ## Lines of C -/

/-- A line of C text. -/
inductive Line where
  | preamble
  | openMain
  | openFunction (name : String)
  | finish
  | close
  | declare (name : String)
  | assign (name : String) (value : Expression)
  | printText (content : String)
  | printValue (value : Expression)
  | call (name : String)
  | label (name : String)
  | jump (name : String)
  | openGuard (guard : Guard) (condition : Comparison)
  | openScan (name : String)
  | discard
  deriving DecidableEq

/-- The text of a line, without its line end. -/
def Line.text : Line → String
  | preamble => "#include <stdio.h>"
  | openMain => "int main() \x7b"
  | openFunction name => "void " ++ name ++ "() \x7b"
  | finish => "return 0;"
  | close => "\x7d"
  | declare name => "float " ++ name ++ ";"
  | assign name value => name ++ " = " ++ Phrase.text value ++ ";"
  | printText content => "printf(\"%s\\n\", \"" ++ Rule.literalText content ++ "\");"
  | printValue value => "printf(\"%.2f\\n\", (float) (" ++ Phrase.text value ++ "));"
  | call name => name ++ "();"
  | label name => name ++ ":;"
  | jump name => "goto " ++ name ++ ";"
  | openGuard guard condition =>
    guard.kind.spelling ++ " (" ++ Phrase.text condition ++ ") \x7b"
  | openScan name => "if (0 == scanf(\"%f\", &" ++ name ++ ")) \x7b"
  | discard => "scanf(\"%*s\");"

/-- The text of lines, each with its line end. -/
def render : List Line → String
  | [] => ""
  | line :: rest => line.text ++ "\n" ++ render rest

theorem render_append (first second : List Line) :
    render (first ++ second) = render first ++ render second := by
  induction first with
  | nil => simp [render]
  | cons line rest inductionHypothesis =>
      simp [render, inductionHypothesis, String.append_assoc]

/-! ## Taking the functions out -/

/-- The functions that statements declare, in order, each with its body. -/
def Block.functions : Block → List (String × Block)
  | nil => []
  | action _ _ rest => rest.functions
  | function name _ body _ rest => (name, body) :: (body.functions ++ rest.functions)
  | guarded _ _ _ body _ rest => body.functions ++ rest.functions

/-- The statements without the functions that they declare. -/
def Block.erase : Block → Block
  | nil => nil
  | action statement gap rest => action statement gap rest.erase
  | function _ _ _ _ rest => rest.erase
  | guarded guard condition gap body endGap rest =>
    guarded guard condition gap body.erase endGap rest.erase

/-! ## Lines of statements -/

/-- The targets of `let` and `input` in an action. -/
def Action.targets : Action → List String
  | assign name _ => [name]
  | input name => [name]
  | _ => []

/-- The targets of `let` and `input` in statements, those in declared functions left
out. -/
def Block.targets : Block → List String
  | nil => []
  | action statement _ rest => statement.targets ++ rest.targets
  | function _ _ _ _ rest => rest.targets
  | guarded _ _ _ body _ rest => body.targets ++ rest.targets

/-- The declaration of a variable, unless it was a target earlier. -/
def declaration (earlier : List String) (name : String) : List Line :=
  if name ∈ earlier then [] else [.declare name]

/-- The lines of an action, given the earlier targets in its function. -/
def Action.lines (earlier : List String) : Action → List Line
  | printText content => [.printText content]
  | printValue value => [.printValue value]
  | call name => [.call name]
  | label name => [.label name]
  | jump name => [.jump name]
  | assign name value => declaration earlier name ++ [.assign name value]
  | input name =>
    declaration earlier name ++
      [.openScan name, .assign name (.ofNumber "0"), .discard, .close]

/-- The lines of statements, given the earlier targets in their function.  Functions
that the statements declare have no lines here. -/
def Block.lines (earlier : List String) : Block → List Line
  | nil => []
  | action statement _ rest => statement.lines earlier ++ rest.lines (earlier ++ statement.targets)
  | function _ _ _ _ rest => rest.lines earlier
  | guarded guard condition _ body _ rest =>
    .openGuard guard condition :: body.lines earlier ++
      .close :: rest.lines (earlier ++ body.targets)

/-- The C text of the statements of a function, from its first on. -/
def Block.code (block : Block) : String :=
  render (block.lines [])

/-- The lines of a function. -/
def functionLines (function : String × Block) : List Line :=
  .openFunction function.1 :: function.2.lines [] ++ [.close]

/-! ## Programs -/

/-- The lines of the functions that a program declares. -/
def Program.functionLines (program : Program) : List Line :=
  program.body.functions.flatMap Syntax.functionLines

/-- The lines of the statements of a program outside all functions. -/
def Program.mainLines (program : Program) : List Line :=
  program.body.erase.lines []

/-- All lines of the C text of a program. -/
def Program.lines (program : Program) : List Line :=
  .preamble :: program.functionLines ++ .openMain :: program.mainLines ++ [.finish, .close]

/-! ## The rest without the functions -/

theorem Block.targets_erase (block : Block) : block.erase.targets = block.targets := by
  induction block with
  | nil => rfl
  | action statement gap rest inductionHypothesis =>
      simp [erase, targets, inductionHypothesis]
  | function name gap body endGap rest _ inductionHypothesis =>
      simp [erase, targets, inductionHypothesis]
  | guarded guard condition gap body endGap rest bodyHypothesis restHypothesis =>
      simp [erase, targets, bodyHypothesis, restHypothesis]

/-- Taking the functions out does not change the lines of the rest. -/
theorem Block.lines_erase (earlier : List String) (block : Block) :
    block.erase.lines earlier = block.lines earlier := by
  induction block generalizing earlier with
  | nil => rfl
  | action statement gap rest inductionHypothesis =>
      simp [erase, lines, inductionHypothesis]
  | function name gap body endGap rest _ inductionHypothesis =>
      simp [erase, lines, inductionHypothesis]
  | guarded guard condition gap body endGap rest bodyHypothesis restHypothesis =>
      simp [erase, lines, bodyHypothesis, restHypothesis, targets_erase]

theorem Program.mainLines_eq_lines (program : Program) :
    program.mainLines = program.body.lines [] :=
  Block.lines_erase [] program.body

/-! ## Sequences -/

theorem Block.functions_append (first second : Block) :
    (first.append second).functions = first.functions ++ second.functions := by
  induction first with
  | nil => rfl
  | action statement gap rest inductionHypothesis =>
      simp [append, functions, inductionHypothesis]
  | function name gap body endGap rest _ inductionHypothesis =>
      simp [append, functions, inductionHypothesis]
  | guarded guard condition gap body endGap rest _ inductionHypothesis =>
      simp [append, functions, inductionHypothesis]

theorem Block.lines_append (earlier : List String) (first second : Block) :
    (first.append second).lines earlier =
      first.lines earlier ++ second.lines (earlier ++ first.targets) := by
  induction first generalizing earlier with
  | nil => simp [append, lines, targets]
  | action statement gap rest inductionHypothesis =>
      simp [append, lines, targets, inductionHypothesis]
  | function name gap body endGap rest _ inductionHypothesis =>
      simp [append, lines, targets, inductionHypothesis]
  | guarded guard condition gap body endGap rest _ inductionHypothesis =>
      simp [append, lines, targets, inductionHypothesis]

end TeenyC.Syntax
