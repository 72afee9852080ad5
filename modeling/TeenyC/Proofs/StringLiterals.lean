import TeenyC.Proofs.Compile.Calculus
import TeenyC.Proofs.CText.Lines
import TeenyC.Proofs.Lossless
import TeenyC.Proofs.Syntax.Following

/-!
# Strings in the C text

A string is written into the C text as a literal that C reads as the same characters.  A string of
Teeny holds no quote and no line end, which are what could end a literal too early, and of the
other characters only the backslash means something else in C.  So the strings that the C text
prints are the strings that the program prints.
-/

namespace TeenyC

/-! ## Literals of C -/

/-- What the character behind a backslash stands for.  Escapes by number are left out. -/
def simpleEscapes : List (Char × Char) :=
  [('\x27', '\x27'), ('"', '"'), ('?', '?'), ('\\', '\\'), ('a', '\x07'), ('b', '\x08'),
    ('f', '\x0c'), ('n', '\n'), ('r', '\r'), ('t', '\t'), ('v', '\x0b')]

/-- Read a literal behind its opening quote: the characters that it stands for, and what comes
behind its closing quote.  A literal does not go on behind the end of its line, and trigraphs are
not looked for. -/
def readLiteral : List Char → Option (List Char × List Char)
  | [] => none
  | '"' :: rest => some ([], rest)
  | '\n' :: _ => none
  | '\\' :: rest =>
    match rest with
    | [] => none
    | escaped :: rest => do
      let c ← simpleEscapes.lookup escaped
      let (content, after) ← readLiteral rest
      return (c :: content, after)
  | c :: rest => do
    let (content, after) ← readLiteral rest
    return (c :: content, after)

/-- The start of a line that prints a string. -/
def printStart : List Char :=
  "printf(\"%s\\n\", \"".toList

/-- The string that a line of C prints, if it is a call of `printf` with one literal to print as
a string. -/
def printedText? (line : String) : Option String :=
  if printStart.isPrefixOf line.toList then
    match readLiteral (line.toList.drop printStart.length) with
    | some (content, [')', ';']) => some (String.ofList content)
    | _ => none
  else
    none

namespace Syntax

theorem toList_literalText (content : String) :
    (Rule.literalText content).toList = content.toList.flatMap Line.literalCharacters := by
  rw [Rule.literalText, String.toList_ofList]
  rfl

/-- A character of a string is read as itself, whatever comes behind it. -/
theorem readLiteral_literalCharacters {c : Char}
    (isCharacter : Lexeme.isStringCharacter c = true) (rest : List Char) :
    readLiteral (Line.literalCharacters c ++ rest) =
      (readLiteral rest).map fun (content, after) => (c :: content, after) := by
  rw [Lexeme.isStringCharacter, Bool.and_eq_true, bne_iff_ne, bne_iff_ne] at isCharacter
  by_cases isBackslash : c = '\\'
  · subst isBackslash
    rw [Line.literalCharacters, if_pos rfl, List.cons_append, List.cons_append, List.nil_append,
      readLiteral]
    cases readLiteral rest <;> rfl
  · rw [Line.literalCharacters, if_neg isBackslash, List.singleton_append, readLiteral]
    · cases readLiteral rest <;> rfl
    · exact isCharacter.1
    · exact isCharacter.2
    · exact isBackslash

/-- A literal is read as the characters that were written, up to its closing quote. -/
theorem readLiteral_flatMap {content : List Char}
    (isContent : ∀ c ∈ content, Lexeme.isStringCharacter c = true) (rest : List Char) :
    readLiteral (content.flatMap Line.literalCharacters ++ '"' :: rest) = some (content, rest) := by
  induction content with
  | nil => rfl
  | cons c content inductionHypothesis =>
      rcases List.forall_mem_cons.mp isContent with ⟨here, others⟩
      rw [List.flatMap_cons, List.append_assoc, readLiteral_literalCharacters here,
        inductionHypothesis others]
      rfl

/-! ## Lines that print a string -/

/-- The string that a line prints. -/
def Line.content? : Line → Option String
  | printText content => some content
  | _ => none

/-- A line that prints a string: its start, the literal, and what closes the call. -/
theorem Line.toList_printText (content : String) :
    (Line.printText content).text.toList =
      printStart ++ (content.toList.flatMap literalCharacters ++ '"' :: [')', ';']) := by
  have start : printStart = "printf".toList ++ "(\"%s\\n\", \"".toList := rfl
  have ending : '"' :: [')', ';'] = "\");".toList := rfl
  rw [toList_text, start, ending, ← toList_literalText, List.append_assoc, ← List.append_assoc _ _
    "\");".toList]
  rfl

/-- Only a line that prints a string starts like one. -/
theorem Line.eq_printText_of_text {line : Line} (wellFormed : line.WellFormed)
    {more : List Char} (starts : line.text.toList = printStart ++ more) :
    ∃ content, line = .printText content := by
  have startWord : printStart ++ more = "printf".toList ++ ("(\"%s\\n\", \"".toList ++ more) := rfl
  have isWord : ∀ c ∈ "printf".toList, Lexeme.isWordCharacter c = true :=
    List.all_eq_true.mp (by decide)
  have ends : ∀ c ∈ ("(\"%s\\n\", \"".toList ++ more).head?,
      ¬ Lexeme.isWordCharacter c = true := by
    intro c isHead
    cases isHead
    decide
  rw [startWord, toList_text] at starts
  obtain ⟨_, sameRemainder⟩ := run_decodes (Lexeme.isWordCharacter · = true)
    (word_isWordCharacter wellFormed) isWord line.remainder_endsWord ends starts
  cases line with
  | printText content => exact ⟨content, rfl⟩
  | _ => simp [remainder.eq_def] at sameRemainder

theorem printedText?_printText {content : String} (isContent : IsContent content) :
    printedText? (Line.printText content).text = some content := by
  have starts : printStart.isPrefixOf (Line.printText content).text.toList = true := by
    rw [Line.toList_printText]
    exact List.isPrefixOf_iff_prefix.mpr (List.prefix_append _ _)
  rw [printedText?, if_pos starts, Line.toList_printText, List.drop_left,
    readLiteral_flatMap isContent]
  exact congrArg some String.ofList_toList

theorem printedText?_eq_none {line : Line} (wellFormed : line.WellFormed)
    (notText : ∀ content, line ≠ .printText content) : printedText? line.text = none := by
  have otherStart : ¬ printStart.isPrefixOf line.text.toList = true := by
    intro starts
    obtain ⟨more, isText⟩ := List.isPrefixOf_iff_prefix.mp starts
    obtain ⟨content, isPrint⟩ := Line.eq_printText_of_text wellFormed isText.symm
    exact notText content isPrint
  rw [printedText?, if_neg otherStart]

/-- What a line prints is found in its text. -/
theorem printedText?_text {line : Line} (wellFormed : line.WellFormed) :
    printedText? line.text = line.content? := by
  cases line with
  | printText content => exact printedText?_printText wellFormed
  | _ => exact printedText?_eq_none wellFormed nofun

/-! ## Strings of statements -/

theorem Action.content_lines (statement : Action) (earlier : List String) :
    (statement.lines earlier).filterMap Line.content? =
      following .printKeyword .string statement.tokens := by
  have declared : ∀ name, (declaration earlier name).filterMap Line.content? = [] := by
    intro name
    rw [declaration]
    split <;> rfl
  cases statement with
  | printText | call | label | jump => rfl
  | printValue value =>
      obtain ⟨token, rest, isValue, notString⟩ := expression_head value
      rw [tokens, isValue, following_cons_cons, if_neg (fun found => notString found.2), ← isValue,
        following_expression rfl]
      rfl
  | assign name value =>
      rw [lines, List.filterMap_append, declared, following_assign rfl]
      rfl
  | input name =>
      rw [lines, List.filterMap_append, declared]
      rfl

/-- The strings behind `print` in statements are those that the lines of the statements print and
those that the lines of the functions declared among them print. -/
theorem Block.content_perm (block : Block) (earlier : List String) :
    (following .printKeyword .string block.tokens).Perm
      ((block.lines earlier).filterMap Line.content? ++
        block.functions.flatMap fun function => (function.2.lines []).filterMap Line.content?) := by
  induction block generalizing earlier with
  | nil => exact .nil
  | action statement gap rest inductionHypothesis =>
      rw [tokens, following_lineEnd rfl rfl, lines, List.filterMap_append,
        Action.content_lines, List.append_assoc]
      exact (inductionHypothesis _).append_left _
  | function name gap body endGap rest bodyHypothesis restHypothesis =>
      have apart := (bodyHypothesis []).append (restHypothesis earlier)
      have head : following .printKeyword .string (functionHead name) = [] := rfl
      rw [tokens, following_block rfl rfl, head, lines, functions, List.flatMap_cons,
        List.flatMap_append, List.nil_append]
      -- In the source the body comes before the rest, in the C text it is with the functions.
      refine apart.trans ((List.perm_append_comm_assoc _ _ _).trans (.append_left _ ?_))
      rw [List.append_assoc]
  | guarded guard condition gap body endGap rest bodyHypothesis restHypothesis =>
      have apart := (bodyHypothesis earlier).append (restHypothesis (earlier ++ body.targets))
      have inLines : (lines earlier (guarded guard condition gap body endGap rest)).filterMap
          Line.content? = (body.lines earlier).filterMap Line.content? ++
            (rest.lines (earlier ++ body.targets)).filterMap Line.content? := by
        simp [lines, List.filterMap_cons, Line.content?]
      rw [tokens, following_block rfl rfl, following_guardHead rfl, inLines, functions,
        List.flatMap_append, List.nil_append]
      rw [List.append_assoc] at apart ⊢
      exact apart.trans (.append_left _ (List.perm_append_comm_assoc _ _ _))

/-- The strings that the lines of a program print are those behind `print` in its tokens. -/
theorem Program.content_perm (program : Program) :
    (program.lines.filterMap Line.content?).Perm
      (following .printKeyword .string program.tokens) := by
  have inLines : program.lines.filterMap Line.content? =
      (program.body.functions.flatMap fun function =>
          (function.2.lines []).filterMap Line.content?) ++
        (program.body.lines []).filterMap Line.content? := by
    simp [Program.lines, Program.functionLines, mainLines_eq_lines, Syntax.functionLines,
      List.filterMap_flatMap, List.filterMap_cons, Line.content?]
  rw [inLines, following_tokens rfl rfl]
  exact List.perm_append_comm.trans (program.body.content_perm []).symm

/-- The C text prints the strings of its program. -/
theorem Program.printed_perm {program : Program} (wellSpelled : WellSpelled program.body.tokens) :
    ((textLines (render program.lines)).filterMap printedText?).Perm
      (following .printKeyword .string program.tokens) := by
  have linesGood := Program.lines_wellFormed wellSpelled
  have printed : (program.lines.map Line.text).filterMap printedText? =
      program.lines.filterMap Line.content? := by
    rw [List.filterMap_map]
    exact List.filterMap_congr fun line isIn => printedText?_text (linesGood line isIn)
  rw [textLines_render linesGood, printed]
  exact program.content_perm

theorem Program.printText_mem_lines {program : Program} {content : String}
    (isString : content ∈ following .printKeyword .string program.tokens) :
    .printText content ∈ program.lines := by
  rw [← program.content_perm.mem_iff, List.mem_filterMap] at isString
  obtain ⟨line, isIn, isContent⟩ := isString
  cases line with
  | printText other =>
      cases isContent
      exact isIn
  | _ => contradiction

end Syntax

/-! ## Strings of programs -/

open Syntax

theorem Rule.unit_of_printStatement {session after : Session} {value : Unit} {content : String}
    (ahead : session.lookahead = ⟨.string, content⟩)
    (runs : Rule.printStatement session = .ok value after) :
    after.unit = session.unit.writeLine (Line.printText content).text := by
  simp only [printStatement, bind_eq_ok_iff, get_bind] at runs
  obtain ⟨_, _, first, rest⟩ := runs
  obtain ⟨place, passes, rfl⟩ := shift_eq_ok_iff.mp first
  have here : place.current = ⟨.string, content⟩ := by
    cases passes with
    | one read others =>
        cases others
        exact ahead
  have isString : place.current.is .string = true := by rw [here]; rfl
  rw [Session.current_moveTo, if_pos isString, here, writeLine_bind, shift_eq_ok_iff] at rest
  obtain ⟨next, _, rfl⟩ := rest
  rfl

/-- A line prints a string: `print` writes the line for that string, and C reads the literal in it
as the string, up to the quote that closes it. -/
structure Prints (line literal content : String) : Prop where
  form : line = "printf(\"%s\\n\", \"" ++ literal ++ "\");"
  written : ∀ ⦃session after : Session⦄ ⦃value : Unit⦄, session.lookahead = ⟨.string, content⟩ →
    Rule.printStatement session = .ok value after → after.unit = session.unit.writeLine line
  reads : ∀ rest, readLiteral (literal.toList ++ '"' :: rest) = some (content.toList, rest)
  unbroken : '\n' ∉ line.toList

theorem prints_literalText {content : String} (isContent : IsContent content) :
    Prints (Line.printText content).text (Rule.literalText content) content where
  form := rfl
  written _ _ _ := Rule.unit_of_printStatement
  reads rest := by
    rw [toList_literalText]
    exact readLiteral_flatMap isContent rest
  unbroken isIn := Line.unbroken_text (show (Line.printText content).WellFormed from isContent)
    '\n' isIn rfl

/-- The strings that a program prints arrive in C as they are: the lines of the C text that print
a string print the strings behind `print` in the source, and for each of these there is a line
whose literal C reads as that string, character for character. -/
theorem compile_transports_strings {source : String} {artifact : Artifact}
    (compiles : compile source = .ok artifact) :
    ∃ tokens, tokenize source = .ok tokens ∧
      ((textLines artifact.text).filterMap printedText?).Perm
        (following .printKeyword .string tokens) ∧
      ∀ content ∈ following .printKeyword .string tokens,
        ∃ line literal, line ∈ textLines artifact.text ∧ Prints line literal content := by
  rcases compile_eq_ok_iff.mp compiles with ⟨program, tokens, _, rfl⟩
  have wellSpelled := wellSpelled_of_tokenize tokens
  have linesGood := Program.lines_wellFormed wellSpelled
  refine ⟨program.tokens, tokens, Program.printed_perm wellSpelled, ?_⟩
  intro content isString
  have isLine := Program.printText_mem_lines isString
  have isContent : IsContent content := linesGood _ isLine
  refine ⟨(Line.printText content).text, Rule.literalText content, ?_,
    prints_literalText isContent⟩
  change (Line.printText content).text ∈ textLines (render program.lines)
  rw [textLines_render linesGood]
  exact List.mem_map_of_mem isLine

/-- Strings with a percent sign, with backslashes in front of a letter and at the end, and with a
character of two bytes. -/
theorem compile_transports_strings_backslashes :
    compile "print \"100%s \\n\\\"\nfn f\nprint \"é\\\\\"\nend" =
        .ok ⟨"#include <stdio.h>\nvoid f() \x7b\nprintf(\"%s\\n\", \"é\\\\\\\\\");\n\x7d\n" ++
          "int main() \x7b\nprintf(\"%s\\n\", \"100%s \\\\n\\\\\");\nreturn 0;\n\x7d\n",
          ⟨["f"], []⟩⟩ ∧
      ∃ tokens, tokenize "print \"100%s \\n\\\"\nfn f\nprint \"é\\\\\"\nend" = .ok tokens ∧
        ∀ content ∈ following .printKeyword .string tokens,
          ∃ line literal,
            line ∈ textLines
              ("#include <stdio.h>\nvoid f() \x7b\nprintf(\"%s\\n\", \"é\\\\\\\\\");\n\x7d\n" ++
                "int main() \x7b\nprintf(\"%s\\n\", \"100%s \\\\n\\\\\");\nreturn 0;\n\x7d\n") ∧
            Prints line literal content := by
  have compiles :
      compile "print \"100%s \\n\\\"\nfn f\nprint \"é\\\\\"\nend" =
        .ok ⟨"#include <stdio.h>\nvoid f() \x7b\nprintf(\"%s\\n\", \"é\\\\\\\\\");\n\x7d\n" ++
          "int main() \x7b\nprintf(\"%s\\n\", \"100%s \\\\n\\\\\");\nreturn 0;\n\x7d\n",
          ⟨["f"], []⟩⟩ := by
    decide +kernel
  obtain ⟨tokens, tokenizes, _, prints⟩ := compile_transports_strings compiles
  exact ⟨compiles, tokens, tokenizes, prints⟩

end TeenyC
