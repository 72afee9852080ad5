import TeenyC.Proofs.Syntax.Layout
import TeenyC.Proofs.Syntax.LineText

/-!
# Statements can be read back from their lines

The lines of an action are declarations, one line that tells the action, and lines that
follow from it.  A block goes on to the line that closes it.  So the lines of a program
tell its functions and the statements outside them, up to blank lines.
-/

namespace TeenyC.Syntax

/-! ## Actions -/

/-- The line is the declaration of a variable. -/
def Line.IsDeclaration (line : Line) : Prop :=
  ∃ name, line = .declare name

/-- The line that tells an action. -/
def Action.line : Action → Line
  | printText content => .printText content
  | printValue value => .printValue value
  | call name => .call name
  | label name => .label name
  | jump name => .jump name
  | assign name value => .assign name value
  | input name => .openScan name

/-- The lines of an action after the line that tells it. -/
def Action.after : Action → List Line
  | input name => [.assign name (.ofNumber "0"), .discard, .close]
  | _ => []

theorem Action.line_injective {first second : Action} (same : first.line = second.line) :
    first = second := by
  cases first <;> cases second <;> simp_all [line]

theorem Action.line_not_declaration (statement : Action) :
    ¬ statement.line.IsDeclaration := by
  rintro ⟨name, isDeclaration⟩
  cases statement <;> contradiction

theorem declaration_isDeclaration (earlier : List String) (name : String) :
    ∀ line ∈ declaration earlier name, line.IsDeclaration := by
  intro line isIn
  rw [declaration] at isIn
  split at isIn
  · contradiction
  · exact ⟨name, List.mem_singleton.mp isIn⟩

/-- The lines of an action, with declarations before the line that tells it. -/
theorem Action.lines_eq (earlier : List String) (statement : Action) :
    ∃ declarations : List Line, (∀ line ∈ declarations, line.IsDeclaration) ∧
      statement.lines earlier = declarations ++ statement.line :: statement.after := by
  cases statement with
  | assign name value => exact ⟨_, declaration_isDeclaration earlier name, rfl⟩
  | input name => exact ⟨_, declaration_isDeclaration earlier name, rfl⟩
  | _ => exact ⟨[], nofun, rfl⟩

theorem Action.lines_decode (earlier : List String) :
    Decodes (fun _ : Action => True) (Action.lines earlier) (fun _ => True) := by
  intro first second rest other _ _ _ _ same
  obtain ⟨declarations, areDeclarations, lines⟩ := first.lines_eq earlier
  obtain ⟨declarations', areDeclarations', lines'⟩ := second.lines_eq earlier
  have atLine : ∀ (statement : Action) (lines : List Line),
      ∀ line ∈ (statement.line :: lines).head?, ¬ line.IsDeclaration := by
    rintro statement lines line ⟨⟩
    exact statement.line_not_declaration
  have sameParts := same
  rw [lines, lines', List.append_assoc, List.append_assoc] at sameParts
  obtain ⟨_, afterDeclarations⟩ := run_decodes Line.IsDeclaration areDeclarations areDeclarations'
    (atLine first _) (atLine second _) sameParts
  obtain rfl := Action.line_injective (List.cons.inj afterDeclarations).1
  exact ⟨rfl, List.append_cancel_left same⟩

/-! ## Statements -/

/-- The line closes a block or ends the function `main`. -/
def Line.Closes : Line → Prop
  | close | finish => True
  | _ => False

/-- What can follow statements: a line that closes the block that they are in. -/
def EndsBlock (rest : List Line) : Prop :=
  ∃ line others, rest = line :: others ∧ line.Closes

/-- The statements hold no functions and no blank lines. -/
def Block.Normal : Block → Prop
  | nil => True
  | action _ gap rest => gap = 0 ∧ rest.Normal
  | function _ _ _ _ _ => False
  | guarded _ _ gap body endGap rest => gap = 0 ∧ endGap = 0 ∧ body.Normal ∧ rest.Normal

theorem Action.lines_head (earlier : List String) (statement : Action) :
    ∃ line rest, statement.lines earlier = line :: rest ∧ ¬ line.Closes ∧
      ∀ guard condition, line ≠ .openGuard guard condition := by
  obtain ⟨declarations, areDeclarations, lines⟩ := statement.lines_eq earlier
  rw [lines]
  cases declarations with
  | nil => exact ⟨_, _, rfl, by cases statement <;> exact id, by cases statement <;> exact nofun⟩
  | cons line rest =>
      obtain ⟨name, rfl⟩ := areDeclarations line List.mem_cons_self
      exact ⟨_, _, rfl, id, nofun⟩

/-- What follows statements is not another statement. -/
theorem EndsBlock.ne_lines {rest : List Line} {block : Block} (ends : EndsBlock rest)
    (normal : block.Normal) (notNil : block ≠ .nil) (earlier : List String) (other : List Line) :
    rest ≠ block.lines earlier ++ other := by
  rcases ends with ⟨closing, others, rfl, closes⟩
  intro same
  cases block with
  | nil => contradiction
  | action statement gap tail =>
      obtain ⟨line, after, lines, notClosing, _⟩ := statement.lines_head earlier
      rw [Block.lines, lines] at same
      rw [(List.cons.inj same).1] at closes
      exact notClosing closes
  | function name gap body endGap tail => exact normal
  | guarded guard condition gap body endGap tail =>
      rw [(List.cons.inj same).1] at closes
      exact closes

theorem Action.lines_ne_guard {statement : Action} {earlier : List String} {guard : Guard}
    {condition : Comparison} {rest other : List Line} :
    statement.lines earlier ++ rest ≠ .openGuard guard condition :: other := by
  obtain ⟨line, after, lines, _, notGuard⟩ := statement.lines_head earlier
  rw [lines]
  intro same
  exact notGuard guard condition (List.cons.inj same).1

theorem endsBlock_close (rest : List Line) : EndsBlock (.close :: rest) :=
  ⟨_, _, rfl, trivial⟩

/-- Statements are told by their lines up to the line that closes their block. -/
theorem Block.lines_decode (earlier : List String) :
    Decodes Block.Normal (Block.lines earlier) EndsBlock := by
  intro first second rest other firstNormal secondNormal restEnds otherEnds same
  -- The earlier targets agree as long as the statements read so far do.
  induction first generalizing earlier second rest other with
  | nil =>
      by_cases isNil : second = .nil
      · subst isNil
        exact ⟨rfl, same⟩
      · exact absurd same (restEnds.ne_lines secondNormal isNil earlier other)
  | action statement gap tail inductionHypothesis =>
      cases second with
      | nil => exact absurd same.symm (otherEnds.ne_lines firstNormal (by simp) earlier rest)
      | action statement' gap' tail' =>
          rcases firstNormal with ⟨rfl, tailNormal⟩
          rcases secondNormal with ⟨rfl, tailNormal'⟩
          rw [lines, lines, List.append_assoc, List.append_assoc] at same
          obtain ⟨rfl, afterStatement⟩ :=
            Action.lines_decode earlier trivial trivial trivial trivial same
          obtain ⟨rfl, sameRest⟩ := inductionHypothesis _ tailNormal tailNormal' restEnds otherEnds
            afterStatement
          exact ⟨rfl, sameRest⟩
      | function name gap' body endGap tail' => contradiction
      | guarded guard condition gap' body endGap tail' =>
          rw [lines, List.append_assoc] at same
          exact absurd same Action.lines_ne_guard
  | function name gap body endGap tail _ _ => contradiction
  | guarded guard condition gap body endGap tail bodyHypothesis tailHypothesis =>
      cases second with
      | nil => exact absurd same.symm (otherEnds.ne_lines firstNormal (by simp) earlier rest)
      | action statement gap' tail' =>
          simp only [lines, List.append_assoc, List.cons_append] at same
          exact absurd same.symm Action.lines_ne_guard
      | function name gap' body' endGap' tail' => contradiction
      | guarded guard' condition' gap' body' endGap' tail' =>
          rcases firstNormal with ⟨rfl, rfl, bodyNormal, tailNormal⟩
          rcases secondNormal with ⟨rfl, rfl, bodyNormal', tailNormal'⟩
          simp only [lines, List.cons_append, List.append_assoc, List.cons.injEq,
            Line.openGuard.injEq] at same
          rcases same with ⟨⟨rfl, rfl⟩, afterGuard⟩
          obtain ⟨rfl, afterBody⟩ := bodyHypothesis earlier bodyNormal bodyNormal'
            (endsBlock_close _) (endsBlock_close _) afterGuard
          obtain ⟨rfl, sameRest⟩ := tailHypothesis _ tailNormal tailNormal' restEnds otherEnds
            (List.cons.inj afterBody).2
          exact ⟨rfl, sameRest⟩

/-! ## Well-formed lines -/

theorem good_zero : Good (Expression.ofNumber "0") := by
  have isNumeral : IsNumeral "0" := .inl ⟨by simp, List.all_eq_true.mp (by decide)⟩
  exact wellSpelled_cons.mpr ⟨isNumeral, nofun⟩

/-- The lines of an action have names, numbers and strings of tokens if the action has. -/
theorem Action.lines_wellFormed {statement : Action} (wellSpelled : WellSpelled statement.tokens)
    (earlier : List String) : ∀ line ∈ statement.lines earlier, line.WellFormed := by
  have declared : ∀ {name : String}, IsName name →
      ∀ line ∈ declaration earlier name, line.WellFormed := by
    intro name isName line isIn
    rw [declaration] at isIn
    split at isIn
    · contradiction
    · rw [List.mem_singleton.mp isIn]
      exact isName
  cases statement with
  | printText content =>
      have quoted := (wellSpelled_cons.mp (wellSpelled_cons.mp wellSpelled).2).1
      exact List.forall_mem_singleton.mpr (quoted.isContent rfl)
  | printValue value =>
      exact List.forall_mem_singleton.mpr (wellSpelled_cons.mp wellSpelled).2
  | call name =>
      exact List.forall_mem_singleton.mpr ((wellSpelled_cons.mp wellSpelled).1.isName rfl)
  | label name | jump name =>
      have named := (wellSpelled_cons.mp (wellSpelled_cons.mp wellSpelled).2).1
      exact List.forall_mem_singleton.mpr (named.isName rfl)
  | assign name value =>
      rcases wellSpelled_cons.mp wellSpelled with ⟨_, wellSpelled⟩
      rcases wellSpelled_cons.mp wellSpelled with ⟨named, wellSpelled⟩
      rcases wellSpelled_cons.mp wellSpelled with ⟨_, valueGood⟩
      have isName := named.isName rfl
      exact List.forall_mem_append.mpr
        ⟨declared isName, List.forall_mem_singleton.mpr ⟨isName, valueGood⟩⟩
  | input name =>
      have named := (wellSpelled_cons.mp (wellSpelled_cons.mp wellSpelled).2).1
      have isName : IsName name := named.isName rfl
      refine List.forall_mem_append.mpr ⟨declared isName, ?_⟩
      simp only [List.forall_mem_cons]
      exact ⟨isName, ⟨isName, good_zero⟩, trivial, trivial, nofun⟩

theorem WellSpelled.action {statement : Action} {gap : Nat} {rest : Block}
    (wellSpelled : WellSpelled (Block.action statement gap rest).tokens) :
    WellSpelled statement.tokens ∧ WellSpelled rest.tokens := by
  simp only [Block.tokens, wellSpelled_append] at wellSpelled
  exact ⟨wellSpelled.1.1, wellSpelled.2⟩

theorem WellSpelled.function {name : String} {gap endGap : Nat} {body rest : Block}
    (wellSpelled : WellSpelled (Block.function name gap body endGap rest).tokens) :
    IsName name ∧ WellSpelled body.tokens ∧ WellSpelled rest.tokens := by
  simp only [Block.tokens, functionHead, wellSpelled_append, wellSpelled_cons] at wellSpelled
  rcases wellSpelled with ⟨⟨⟨⟨_, named, _⟩, _⟩, inBody⟩, _, _, inRest⟩
  exact ⟨named.isName rfl, inBody, inRest⟩

theorem WellSpelled.guarded {guard : Guard} {condition : Comparison} {gap endGap : Nat}
    {body rest : Block}
    (wellSpelled : WellSpelled (Block.guarded guard condition gap body endGap rest).tokens) :
    Good condition ∧ WellSpelled body.tokens ∧ WellSpelled rest.tokens := by
  simp only [Block.tokens, guardHead, wellSpelled_append, wellSpelled_cons] at wellSpelled
  rcases wellSpelled with ⟨⟨⟨⟨_, _, inCondition, _⟩, _⟩, inBody⟩, _, _, inRest⟩
  exact ⟨inCondition, inBody, inRest⟩

/-- The lines of statements have names, numbers and strings of tokens if the statements
have. -/
theorem Block.lines_wellFormed {block : Block} (wellSpelled : WellSpelled block.tokens)
    (earlier : List String) : ∀ line ∈ block.lines earlier, line.WellFormed := by
  induction block generalizing earlier with
  | nil => exact nofun
  | action statement gap rest inductionHypothesis =>
      rcases wellSpelled.action with ⟨inStatement, inRest⟩
      exact List.forall_mem_append.mpr
        ⟨Action.lines_wellFormed inStatement earlier, inductionHypothesis inRest _⟩
  | function name gap body endGap rest _ restHypothesis =>
      exact restHypothesis wellSpelled.function.2.2 earlier
  | guarded guard condition gap body endGap rest bodyHypothesis restHypothesis =>
      rcases wellSpelled.guarded with ⟨inCondition, inBody, inRest⟩
      simp only [lines, List.cons_append, List.forall_mem_cons, List.forall_mem_append]
      exact ⟨inCondition, bodyHypothesis inBody earlier, trivial, restHypothesis inRest _⟩

theorem Block.functions_wellSpelled {block : Block} (wellSpelled : WellSpelled block.tokens) :
    ∀ function ∈ block.functions, IsName function.1 ∧ WellSpelled function.2.tokens := by
  induction block with
  | nil => exact nofun
  | action statement gap rest inductionHypothesis =>
      exact inductionHypothesis wellSpelled.action.2
  | function name gap body endGap rest bodyHypothesis restHypothesis =>
      rcases wellSpelled.function with ⟨isName, inBody, inRest⟩
      simp only [functions, List.forall_mem_cons, List.forall_mem_append]
      exact ⟨⟨isName, inBody⟩, bodyHypothesis inBody, restHypothesis inRest⟩
  | guarded guard condition gap body endGap rest bodyHypothesis restHypothesis =>
      rcases wellSpelled.guarded with ⟨_, inBody, inRest⟩
      exact List.forall_mem_append.mpr ⟨bodyHypothesis inBody, restHypothesis inRest⟩

/-- The lines of a program have names, numbers and strings of tokens if the program has. -/
theorem Program.lines_wellFormed {program : Program}
    (wellSpelled : WellSpelled program.body.tokens) :
    ∀ line ∈ program.lines, line.WellFormed := by
  have functions : ∀ line ∈ program.functionLines, line.WellFormed := by
    intro line isIn
    rcases List.mem_flatMap.mp isIn with ⟨function, isFunction, isIn⟩
    obtain ⟨isName, inBody⟩ := Block.functions_wellSpelled wellSpelled function isFunction
    have ofFunction : ∀ line ∈ Syntax.functionLines function, line.WellFormed := by
      simp only [Syntax.functionLines, List.cons_append, List.forall_mem_cons,
        List.forall_mem_append]
      exact ⟨isName, Block.lines_wellFormed inBody [], trivial, nofun⟩
    exact ofFunction line isIn
  have main : ∀ line ∈ program.mainLines, line.WellFormed := by
    rw [mainLines, Block.lines_erase]
    exact Block.lines_wellFormed wellSpelled []
  simp only [lines, List.cons_append, List.forall_mem_cons, List.forall_mem_append]
  exact ⟨trivial, ⟨functions, trivial, main⟩, trivial, trivial, nofun⟩

/-! ## Statements without functions and blank lines -/

theorem Block.targets_compact (block : Block) : block.compact.targets = block.targets := by
  induction block with
  | nil => rfl
  | action statement gap rest inductionHypothesis =>
      simp [compact, targets, inductionHypothesis]
  | function name gap body endGap rest _ inductionHypothesis =>
      simp [compact, targets, inductionHypothesis]
  | guarded guard condition gap body endGap rest bodyHypothesis restHypothesis =>
      simp [compact, targets, bodyHypothesis, restHypothesis]

/-- Blank lines do not change the lines of statements. -/
theorem Block.lines_compact (earlier : List String) (block : Block) :
    block.compact.lines earlier = block.lines earlier := by
  induction block generalizing earlier with
  | nil => rfl
  | action statement gap rest inductionHypothesis =>
      simp [compact, lines, inductionHypothesis]
  | function name gap body endGap rest _ inductionHypothesis =>
      simp [compact, lines, inductionHypothesis]
  | guarded guard condition gap body endGap rest bodyHypothesis restHypothesis =>
      simp [compact, lines, bodyHypothesis, restHypothesis, targets_compact]

theorem Block.functions_erase (block : Block) : block.erase.functions = [] := by
  induction block with
  | nil => rfl
  | action statement gap rest inductionHypothesis => exact inductionHypothesis
  | function name gap body endGap rest _ inductionHypothesis => exact inductionHypothesis
  | guarded guard condition gap body endGap rest bodyHypothesis restHypothesis =>
      simp [erase, functions, bodyHypothesis, restHypothesis]

theorem Block.normal_compact {block : Block} (noFunctions : block.functions = []) :
    block.compact.Normal := by
  induction block with
  | nil => trivial
  | action statement gap rest inductionHypothesis =>
      exact ⟨rfl, inductionHypothesis noFunctions⟩
  | function name gap body endGap rest _ _ => contradiction
  | guarded guard condition gap body endGap rest bodyHypothesis restHypothesis =>
      rcases List.append_eq_nil_iff.mp noFunctions with ⟨noneInBody, noneInRest⟩
      exact ⟨rfl, rfl, bodyHypothesis noneInBody, restHypothesis noneInRest⟩

/-! ## Programs -/

/-- A function without blank lines. -/
def compactFunction (function : String × Block) : String × Block :=
  (function.1, function.2.compact)

theorem functionLines_compact (function : String × Block) :
    functionLines (compactFunction function) = functionLines function := by
  simp [functionLines, compactFunction, Block.lines_compact]

theorem functionLines_decode :
    Decodes (fun function : String × Block => function.2.Normal) functionLines
      (fun _ => True) := by
  rintro ⟨name, body⟩ ⟨name', body'⟩ rest other normal normal' _ _ same
  simp only [functionLines, List.cons_append, List.append_assoc, List.cons.injEq,
    Line.openFunction.injEq] at same
  rcases same with ⟨rfl, afterName⟩
  obtain ⟨rfl, afterBody⟩ := Block.lines_decode [] normal normal' (endsBlock_close _)
    (endsBlock_close _) afterName
  exact ⟨rfl, (List.cons.inj afterBody).2⟩

/-- No function holds another. -/
def Program.Flat (program : Program) : Prop :=
  ∀ function ∈ program.body.functions, function.2.functions = []

theorem Program.Flat.normal {program : Program} (flat : program.Flat) :
    ∀ function ∈ program.body.functions.map compactFunction, function.2.Normal := by
  intro function isIn
  rcases List.mem_map.mp isIn with ⟨original, isOriginal, rfl⟩
  exact Block.normal_compact (flat original isOriginal)

theorem Program.functionLines_eq (program : Program) :
    program.functionLines =
      (program.body.functions.map compactFunction).flatMap Syntax.functionLines := by
  simp only [functionLines, List.flatMap_map, functionLines_compact]

theorem Program.mainLines_eq (program : Program) :
    program.mainLines = program.body.erase.compact.lines [] := by
  rw [mainLines, Block.lines_compact]

/-- A program is told by its lines, up to blank lines and the places of its functions. -/
theorem Program.eq_of_lines {first second : Program} (firstFlat : first.Flat)
    (secondFlat : second.Flat) (same : first.lines = second.lines) :
    first.body.erase.compact = second.body.erase.compact ∧
      first.body.functions.map compactFunction = second.body.functions.map compactFunction := by
  have ends : ∀ rest : List Line,
      EndsSequence (fun function : String × Block => function.2.Normal) Syntax.functionLines
        (fun _ => True) (.openMain :: rest) :=
    fun rest => ⟨trivial, fun function _ other => by simp [Syntax.functionLines]⟩
  have endsMain : EndsBlock [.finish, .close] := ⟨_, _, rfl, trivial⟩
  simp only [lines, functionLines_eq, mainLines_eq, List.cons_append, List.append_assoc,
    List.cons.injEq, true_and] at same
  obtain ⟨sameFunctions, afterFunctions⟩ := sequence_decodes functionLines_decode
    (fun _ _ _ => trivial) firstFlat.normal secondFlat.normal (ends _) (ends _) same
  obtain ⟨sameMain, _⟩ := Block.lines_decode [] (Block.normal_compact first.body.functions_erase)
    (Block.normal_compact second.body.functions_erase) endsMain endsMain
    (List.cons.inj afterFunctions).2
  exact ⟨sameMain, sameFunctions⟩

end TeenyC.Syntax
