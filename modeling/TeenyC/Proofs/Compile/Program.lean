import TeenyC.Compile.Program
import TeenyC.Proofs.Compile.Statement
import TeenyC.Proofs.Syntax.Unambiguous

/-!
# What `compile` accepts and what it gives

A source text compiles exactly when its tokens are those of a program that keeps the
rules for names.  The result is the artifact of that program: the lines that the
generator makes of its tree, and the names that it declares.
-/

namespace TeenyC

open Syntax

/-! ## The start of a pass -/

namespace Session

/-- The session at the start of a pass. -/
def initial (cursor : Cursor) (unit : CUnit) : Session where
  lexer := cursor.lexer
  current := cursor.current
  lookahead := cursor.lookahead
  unit := unit
  function := mainFunction
  table := .ofFunction mainFunction
  functions := .empty
  labels := .empty
  targets := .empty

theorem start_eq_ok_iff {lexer : Lexer} {unit : CUnit} {session : Session} :
    start lexer unit = .ok session ↔
      ∃ cursor, Cursor.Heads lexer cursor ∧ session = initial cursor unit := by
  rw [start]
  constructor
  · intro run
    split at run
    · contradiction
    · next current afterFirst first =>
        split at run
        · contradiction
        · next lookahead afterSecond second =>
            cases run
            exact ⟨⟨afterSecond, current, lookahead⟩, ⟨afterFirst, first, second⟩, rfl⟩
  · rintro ⟨cursor, ⟨middle, first, second⟩, rfl⟩
    simp only [first, second]
    rfl

/-- The unit before the first statement. -/
def openUnit : CUnit :=
  ⟨.main, Line.preamble.text ++ "\n", "", Line.openMain.text ++ "\n"⟩

theorem ready_initial {cursor : Cursor} (valid : cursor.Valid) :
    (initial cursor openUnit).Ready [] [] where
  valid := valid
  knows := Names.knows_initial
  aligned := .inl ⟨rfl, rfl⟩

end Session

/-! ## The rule for programs -/

theorem NameSet.firstNotIn?_eq_none_iff {set other : NameSet} :
    set.firstNotIn? other = none ↔ ∀ name ∈ set, name ∈ other := by
  simp [firstNotIn?, NameSet.mem_iff, NameSet.contains]

namespace Syntax

/-- The tables after a program. -/
def Program.names (program : Program) : Names :=
  Names.initial.recordAll program.occurrences

/-- What a program compiles to. -/
def Program.artifact (program : Program) : Artifact where
  text := render program.lines
  summary := ⟨program.names.functions.names, program.names.labels.names⟩

theorem Program.owned (program : Program) : Names.Owned [] program.occurrences :=
  Names.owned_block program.body (.inl rfl)

end Syntax

namespace Rule

variable {cursor : Cursor} {after : Session} {summary : Summary} {value : Unit}

/-- The kinds of the tokens that stop the statements of a program. -/
def stopsProgram : Kind → Bool
  | .endOfInput => true
  | _ => false

theorem stopsStatements_stopsProgram : StopsStatements stopsProgram where
  atEnd := rfl
  apart kind starts := by cases kind <;> first | rfl | contradiction

theorem isAt_stopsProgram :
    (fun session : Session => !session.isAt .endOfInput) =
      fun session => !stopsProgram session.current.kind := by
  funext session
  simp only [Session.isAt, Token.is]
  cases session.current.kind <;> rfl

theorem stopsProgram_eq_true_iff {kind : Kind} :
    stopsProgram kind = true ↔ kind = .endOfInput := by
  cases kind <;> simp [stopsProgram]

/-- The line ends before the first statement and all statements after them. -/
theorem statements_eq_ok_iff (valid : cursor.Valid) :
    (∃ skipped start, skipNewlines (.initial cursor Session.openUnit) = .ok skipped start ∧
        repeatWhile (fun session => !session.isAt .endOfInput) statement start =
          .ok value after) ↔
      ∃ (program : Program) (place : Cursor),
        cursor.Passes (List.replicate program.leading .newline ++ program.body.tokens) place ∧
        place.current.kind = .endOfInput ∧ Names.initial.Admits program.occurrences ∧
        after = (Session.initial cursor Session.openUnit).past [] program.body place := by
  have ready := Session.ready_initial valid
  rw [isAt_stopsProgram]
  constructor
  · rintro ⟨_, _, first, others⟩
    rcases (skipNewlines_eq_ok_iff ready.valid).mp first with
      ⟨leading, start, toStart, notNewline, rfl⟩
    obtain ⟨body, place, toPlace, _, stopped, admits, rfl⟩ :=
      ((statement_translates _).repeatWhile_eq_ok_iff stopsStatements_stopsProgram
        (ready.moveTo toStart) (Nat.le_refl _) notNewline).mp others
    exact ⟨⟨leading, body⟩, place, toStart.trans toPlace, stopsProgram_eq_true_iff.mp stopped,
      admits, rfl⟩
  · rintro ⟨⟨leading, body⟩, place, passes, atEnd, admits, rfl⟩
    rcases Cursor.passes_append_iff.mp passes with ⟨start, toStart, toPlace⟩
    have notAfter : place.current.kind ≠ .newline := by
      rw [atEnd]
      decide
    have notNewline := Block.not_newline_before toPlace notAfter
    refine ⟨(), _, (skipNewlines_eq_ok_iff ready.valid).mpr
      ⟨leading, start, toStart, notNewline, rfl⟩, ?_⟩
    exact ((statement_translates _).repeatWhile_eq_ok_iff stopsStatements_stopsProgram
      (ready.moveTo toStart) (Nat.le_refl _) notNewline).mpr
        ⟨body, place, toPlace, notAfter, stopsProgram_eq_true_iff.mpr atEnd, admits, rfl⟩

/-- The lines before the first statement. -/
theorem write_preamble (cursor : Cursor) :
    ((((Session.initial cursor .empty).select .header).write
      ("#include <stdio.h>" ++ "\n")).select .main).write ("int main() \x7b" ++ "\n") =
        .initial cursor Session.openUnit := by
  simp [Session.initial, Session.select, Session.write, CUnit.empty, CUnit.select, CUnit.write,
    Session.openUnit, Line.text.eq_def]

/-- The session after a program. -/
def finished (cursor place : Cursor) (program : Program) : Session :=
  ((Session.initial cursor Session.openUnit).past [] program.body place).advance place []
    [.finish, .close] []

/-- The lines after the last statement. -/
theorem write_finish (cursor place : Cursor) (program : Program) :
    (((Session.initial cursor Session.openUnit).past [] program.body place).write
      ("return 0;" ++ "\n")).write ("\x7d" ++ "\n") = finished cursor place program := by
  have written := Session.write_moveTo_eq_advance
    ((Session.initial cursor Session.openUnit).past [] program.body place) place
    [.finish, .close]
  refine Eq.trans ?_ written
  simp only [Session.write_write, render, Line.text.eq_def, String.append_empty]
  rfl

theorem flatten_finished (cursor place : Cursor) (program : Program) :
    (finished cursor place program).unit.flatten = program.artifact.text := by
  have main : program.mainLines = program.body.lines [] := Block.lines_erase [] program.body
  simp [finished, Session.past, Session.advance, Session.initial, Session.openUnit, CUnit.extend,
    CUnit.write, CUnit.flatten, Program.artifact, Program.lines, Program.functionLines, main,
    render, render_append, String.append_assoc]

/-- The check at the end: the rules for names hold of a program whose names have been
admitted if there is no jump to an unknown label. -/
theorem lawful_iff_of_admits {program : Program}
    (admits : Names.initial.Admits program.occurrences) :
    Lawful program.occurrences ↔
      program.names.targets.firstNotIn? program.names.labels = none := by
  have reflects : program.names.Reflects program.occurrences :=
    Names.reflects_initial.recordAll admits program.owned
  rw [lawful_iff_admits program.owned, NameSet.firstNotIn?_eq_none_iff]
  simp only [admits, true_and, reflects.targets, reflects.labels]

theorem program_eq_ok_iff (valid : cursor.Valid) :
    program (.initial cursor .empty) = .ok summary after ↔
      ∃ (program : Program) (place : Cursor),
        cursor.Passes (List.replicate program.leading .newline ++ program.body.tokens) place ∧
        place.current.kind = .endOfInput ∧ Lawful program.occurrences ∧
        summary = program.artifact.summary ∧ after = finished cursor place program := by
  simp only [Rule.program, select_bind, writeLine_bind, bind_eq_ok_iff, get_bind, write_preamble]
  constructor
  · rintro ⟨_, _, skipped, _, _, repeated, rest⟩
    rcases (statements_eq_ok_iff valid).mp ⟨_, _, skipped, repeated⟩ with
      ⟨program, place, passes, atEnd, admits, rfl⟩
    rw [write_finish] at rest
    have tables : (finished cursor place program).targets.firstNotIn?
        (finished cursor place program).labels =
          program.names.targets.firstNotIn? program.names.labels := rfl
    rw [tables] at rest
    cases checked : program.names.targets.firstNotIn? program.names.labels with
    | some name =>
        rw [checked] at rest
        simp at rest
    | none =>
        rw [checked] at rest
        cases rest
        exact ⟨program, place, passes, atEnd, (lawful_iff_of_admits admits).mpr checked, rfl, rfl⟩
  · rintro ⟨program, place, passes, atEnd, lawful, rfl, rfl⟩
    have admits := ((lawful_iff_admits program.owned).mp lawful).1
    obtain ⟨_, _, skipped, repeated⟩ :=
      (statements_eq_ok_iff valid).mpr ⟨program, place, passes, atEnd, admits, rfl⟩
    refine ⟨_, _, skipped, (), _, repeated, ?_⟩
    rw [write_finish]
    have checked : (finished cursor place program).targets.firstNotIn?
        (finished cursor place program).labels = none := (lawful_iff_of_admits admits).mp lawful
    rw [checked]
    rfl

end Rule

/-! ## Source texts -/

theorem compile_eq_ok_iff_program {source : String} {artifact : Artifact} :
    compile source = .ok artifact ↔
      ∃ session summary after, Session.start (.ofString source) .empty = .ok session ∧
        Rule.program session = .ok summary after ∧
        artifact = ⟨after.unit.flatten, summary⟩ := by
  simp only [compile, run]
  cases Session.start (.ofString source) .empty with
  | error error => simp
  | ok session =>
      cases run : Rule.program session with
      | error error after => simp [run]
      | ok summary after => simp [run, eq_comm]

/-- The tokens of a program are supplied up to the end of the input. -/
theorem tokenize_eq_ok_tokens_iff {source : String} {program : Program} :
    tokenize source = .ok program.tokens ↔
      ∃ cursor place, Cursor.Heads (.ofString source) cursor ∧
        cursor.Passes (List.replicate program.leading .newline ++ program.body.tokens) place ∧
        place.current.kind = .endOfInput := by
  rw [tokenize_eq_ok_iff, Program.tokens]
  constructor
  · intro supplies
    obtain ⟨cursor, place, heads, passes, here, isEnd⟩ :=
      Cursor.exists_passes_of_supplies (Lexer.valid_ofString source) supplies
    exact ⟨cursor, place, heads, passes, by rw [here, isEnd]⟩
  · rintro ⟨cursor, place, heads, passes, atEnd⟩
    have valid := passes.valid (heads.valid (Lexer.valid_ofString source))
    have isEnd : place.current = .endOfInput := valid.current.eq_endOfInput atEnd
    rw [← isEnd]
    refine passes.supplies heads ?_ atEnd
    exact List.forall_mem_append.mpr
      ⟨newlines_inside program.leading, program.body.tokens_inside⟩

/-- A source text compiles exactly when its tokens are those of a program that keeps
the rules for names, and then to the artifact of that program. -/
theorem compile_eq_ok_iff {source : String} {artifact : Artifact} :
    compile source = .ok artifact ↔
      ∃ program : Program, tokenize source = .ok program.tokens ∧
        Lawful program.occurrences ∧ artifact = program.artifact := by
  simp only [compile_eq_ok_iff_program, Session.start_eq_ok_iff, tokenize_eq_ok_tokens_iff]
  constructor
  · rintro ⟨_, summary, after, ⟨cursor, heads, rfl⟩, run, rfl⟩
    have valid := heads.valid (Lexer.valid_ofString source)
    rcases (Rule.program_eq_ok_iff valid).mp run with
      ⟨program, place, passes, atEnd, lawful, rfl, rfl⟩
    refine ⟨program, ⟨cursor, place, heads, passes, atEnd⟩, lawful, ?_⟩
    rw [Rule.flatten_finished]
  · rintro ⟨program, ⟨cursor, place, heads, passes, atEnd⟩, lawful, rfl⟩
    have valid := heads.valid (Lexer.valid_ofString source)
    refine ⟨_, _, _, ⟨cursor, heads, rfl⟩, (Rule.program_eq_ok_iff valid).mpr
      ⟨program, place, passes, atEnd, lawful, rfl, rfl⟩, ?_⟩
    rw [Rule.flatten_finished]

/-- Acceptance is the grammar and the rules for names, and nothing else: a source text
compiles exactly when it has tokens, these are the tokens of a program, and the program
keeps the rules. -/
theorem compile_succeeds_iff (source : String) :
    (∃ artifact, compile source = .ok artifact) ↔
      ∃ program : Program, tokenize source = .ok program.tokens ∧
        Lawful program.occurrences := by
  constructor
  · rintro ⟨artifact, compiles⟩
    rcases compile_eq_ok_iff.mp compiles with ⟨program, tokens, lawful, _⟩
    exact ⟨program, tokens, lawful⟩
  · rintro ⟨program, tokens, lawful⟩
    exact ⟨program.artifact, compile_eq_ok_iff.mpr ⟨program, tokens, lawful, rfl⟩⟩

/-! ## The text from the tree -/

/-- A source text is the text of one program at most. -/
theorem program_unique {source : String} {first second : Program}
    (firstTokens : tokenize source = .ok first.tokens)
    (secondTokens : tokenize source = .ok second.tokens) : first = second := by
  rw [firstTokens] at secondTokens
  exact Program.tokens_injective (Except.ok.inj secondTokens)

theorem render_functions (functions : List (String × Block)) :
    render (functions.flatMap functionLines) =
      String.join (functions.map fun function =>
        "void " ++ function.1 ++ "() \x7b\n" ++ function.2.code ++ "\x7d\n") := by
  induction functions with
  | nil => simp [render]
  | cons function rest inductionHypothesis =>
      simp [render_append, functionLines, render, Line.text.eq_def, inductionHypothesis,
        Block.code, String.append_assoc]

/-- The C text is that of a generator in two passes: the functions of the tree in the
order of the source, wherever they are declared, and then the statements without them. -/
theorem compile_generates {source : String} {artifact : Artifact}
    (compiles : compile source = .ok artifact) :
    ∃ program : Program, tokenize source = .ok program.tokens ∧
      (∀ other : Program, tokenize source = .ok other.tokens → other = program) ∧
      artifact.text =
        "#include <stdio.h>\n" ++
          String.join (program.body.functions.map fun function =>
            "void " ++ function.1 ++ "() \x7b\n" ++ function.2.code ++ "\x7d\n") ++
          "int main() \x7b\n" ++ program.body.erase.code ++ "return 0;\n\x7d\n" := by
  rcases compile_eq_ok_iff.mp compiles with ⟨program, tokens, _, rfl⟩
  refine ⟨program, tokens, fun other otherTokens => program_unique otherTokens tokens, ?_⟩
  rw [← render_functions]
  simp [Program.artifact, Program.lines, render, render_append, Line.text.eq_def,
    Program.functionLines, Program.mainLines, Block.code, String.append_assoc]

/-- A function that is declared inside a block is taken out of it. -/
theorem compile_generates_nested_function :
    ∃ program : Program,
      tokenize "if (1 < 2)\nfn f\nprint 1\nend\nlet x = 2\nend\nf\n" = .ok program.tokens ∧
      (∀ other : Program,
        tokenize "if (1 < 2)\nfn f\nprint 1\nend\nlet x = 2\nend\nf\n" = .ok other.tokens →
          other = program) ∧
      "#include <stdio.h>\nvoid f() \x7b\nprintf(\"%.2f\\n\", (float) (1));\n\x7d\n" ++
          "int main() \x7b\nif (1 < 2) \x7b\nfloat x;\nx = 2;\n\x7d\nf();\nreturn 0;\n\x7d\n" =
        "#include <stdio.h>\n" ++
          String.join (program.body.functions.map fun function =>
            "void " ++ function.1 ++ "() \x7b\n" ++ function.2.code ++ "\x7d\n") ++
          "int main() \x7b\n" ++ program.body.erase.code ++ "return 0;\n\x7d\n" := by
  have compiles :
      compile "if (1 < 2)\nfn f\nprint 1\nend\nlet x = 2\nend\nf\n" =
        .ok ⟨"#include <stdio.h>\nvoid f() \x7b\nprintf(\"%.2f\\n\", (float) (1));\n\x7d\n" ++
          "int main() \x7b\nif (1 < 2) \x7b\nfloat x;\nx = 2;\n\x7d\nf();\nreturn 0;\n\x7d\n",
          ⟨["f"], []⟩⟩ := by
    decide +kernel
  exact compile_generates compiles

end TeenyC
