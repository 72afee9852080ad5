import TeenyC.Proofs.Compile.Program
import TeenyC.Proofs.Syntax.Reading

/-!
# What the C text tells of its source

Two sources with the same C text have the same functions and the same statements
outside them.  All that can differ is blank lines, what stands between tokens, and where
among the statements the functions are declared.
-/

namespace TeenyC

open Syntax

/-- The program without its functions. -/
def Syntax.Program.erase (program : Program) : Program :=
  ⟨program.leading, program.body.erase⟩

/-- The tokens of a program without blank lines. -/
theorem Syntax.Program.collapse_tokens (program : Program) :
    collapse true program.tokens = program.body.compact.tokens ++ [.endOfInput] := by
  rw [tokens, List.append_assoc, collapse_newlines, Block.collapse_tokens_append]
  rfl

/-- The names, numbers and strings of a program are those of its source. -/
theorem wellSpelled_of_tokenize {source : String} {program : Program}
    (tokens : tokenize source = .ok program.tokens) : WellSpelled program.body.tokens := by
  rcases tokenize_eq_ok_tokens_iff.mp tokens with ⟨cursor, place, heads, passes, _⟩
  have wellFormed := passes.wellFormed (heads.valid (Lexer.valid_ofString source))
  exact (wellSpelled_append.mp wellFormed).2

theorem Syntax.Lawful.flat {program : Program} (lawful : Lawful program.occurrences) :
    program.Flat :=
  ((lawful_iff_admits program.owned).mp lawful).1.functions_flat

/-- The C text loses nothing but blank lines and the places of functions: sources with the
same C text have, without blank lines, the same tokens outside their functions and the
same functions in the same order. -/
theorem compile_loses_only_layout {source other : String} {artifact otherArtifact : Artifact}
    (compiles : compile source = .ok artifact) (otherCompiles : compile other = .ok otherArtifact)
    (same : artifact.text = otherArtifact.text) :
    ∃ program otherProgram : Program,
      tokenize source = .ok program.tokens ∧ tokenize other = .ok otherProgram.tokens ∧
      collapse true program.erase.tokens = collapse true otherProgram.erase.tokens ∧
      (program.body.functions.map fun function =>
          (function.1, collapse true function.2.tokens)) =
        otherProgram.body.functions.map fun function =>
          (function.1, collapse true function.2.tokens) := by
  rcases compile_eq_ok_iff.mp compiles with ⟨program, tokens, lawful, rfl⟩
  rcases compile_eq_ok_iff.mp otherCompiles with ⟨otherProgram, otherTokens, otherLawful, rfl⟩
  have sameLines : program.lines = otherProgram.lines :=
    render_injective (Program.lines_wellFormed (wellSpelled_of_tokenize tokens))
      (Program.lines_wellFormed (wellSpelled_of_tokenize otherTokens)) same
  obtain ⟨sameMain, sameFunctions⟩ := Program.eq_of_lines lawful.flat otherLawful.flat sameLines
  refine ⟨program, otherProgram, tokens, otherTokens, ?_, ?_⟩
  · simp only [Program.collapse_tokens, Program.erase, sameMain]
  · have compacted := congrArg (List.map fun function => (function.1, function.2.tokens))
      sameFunctions
    simpa only [List.map_map, Function.comp_def, compactFunction, Block.collapse_tokens]
      using compacted

/-- Two sources that differ in blank lines and in the place of a function. -/
theorem compile_loses_only_layout_moved_function :
    ∃ program otherProgram : Program,
      tokenize "let x = 1\n\n\nfn f\nprint 1\nend\nf" = .ok program.tokens ∧
      tokenize "\nfn f\n\nprint 1\nend\nlet x = 1\nf" = .ok otherProgram.tokens ∧
      collapse true program.erase.tokens = collapse true otherProgram.erase.tokens ∧
      (program.body.functions.map fun function =>
          (function.1, collapse true function.2.tokens)) =
        otherProgram.body.functions.map fun function =>
          (function.1, collapse true function.2.tokens) := by
  have compiles :
      compile "let x = 1\n\n\nfn f\nprint 1\nend\nf" =
        .ok ⟨"#include <stdio.h>\nvoid f() \x7b\nprintf(\"%.2f\\n\", (float) (1));\n\x7d\n" ++
          "int main() \x7b\nfloat x;\nx = 1;\nf();\nreturn 0;\n\x7d\n", ⟨["f"], []⟩⟩ := by
    decide +kernel
  have otherCompiles :
      compile "\nfn f\n\nprint 1\nend\nlet x = 1\nf" =
        .ok ⟨"#include <stdio.h>\nvoid f() \x7b\nprintf(\"%.2f\\n\", (float) (1));\n\x7d\n" ++
          "int main() \x7b\nfloat x;\nx = 1;\nf();\nreturn 0;\n\x7d\n", ⟨["f"], []⟩⟩ := by
    decide +kernel
  exact compile_loses_only_layout compiles otherCompiles rfl

end TeenyC
