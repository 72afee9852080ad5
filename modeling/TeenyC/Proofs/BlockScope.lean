import Mathlib.Tactic.Tauto
import TeenyC.Proofs.Compile.Program

/-!
# Blocks of the C text and the variables in them

In C a variable is visible from its declaration to the end of the block that the
declaration is in.  The generator declares a variable once in a function, before the
first `let` or `input` for it, and that may be inside the block of an `if` or a
`while`.  After the block the variable still belongs to the function, but the C text
has it no longer in scope.

`inScope_lines_iff` says when this does not happen: no variable whose first target is
inside a block is mentioned after the block.
-/

namespace TeenyC.Syntax

/-! ## Scopes of C -/

namespace Line

/-- The variables that stand in a line, other than in a declaration. -/
def mentions : Line → List String
  | assign name value => name :: Phrase.reads value
  | printValue value => Phrase.reads value
  | openGuard _ condition => Phrase.reads condition
  | openScan name => [name]
  | _ => []

/-- The variables declared so far in each open block, the innermost block first, after
a line. -/
def rescope (scopes : List (List String)) : Line → List (List String)
  | declare name => (name :: scopes.headD []) :: scopes.tail
  | openMain | openFunction _ | openGuard _ _ | openScan _ => [] :: scopes
  | close => scopes.tail
  | _ => scopes

end Line

/-- Every variable that lines mention is declared earlier in the text, in a block that
is open there. -/
def InScope (scopes : List (List String)) : List Line → Prop
  | [] => True
  | line :: rest =>
    (∀ name ∈ line.mentions, name ∈ scopes.flatten) ∧ InScope (line.rescope scopes) rest

instance decidableInScope (scopes : List (List String)) :
    (lines : List Line) → Decidable (InScope scopes lines)
  | [] => .isTrue trivial
  | line :: rest =>
    @instDecidableAnd _ _ _ (decidableInScope (line.rescope scopes) rest)

/-- The open blocks after lines. -/
def rescopeAll (scopes : List (List String)) (lines : List Line) : List (List String) :=
  lines.foldl Line.rescope scopes

@[simp]
theorem rescopeAll_nil (scopes : List (List String)) : rescopeAll scopes [] = scopes := rfl

@[simp]
theorem rescopeAll_cons (scopes : List (List String)) (line : Line) (rest : List Line) :
    rescopeAll scopes (line :: rest) = rescopeAll (line.rescope scopes) rest := rfl

@[simp]
theorem rescopeAll_append (scopes : List (List String)) (first second : List Line) :
    rescopeAll scopes (first ++ second) = rescopeAll (rescopeAll scopes first) second :=
  List.foldl_append

theorem inScope_append {scopes : List (List String)} {first second : List Line} :
    InScope scopes (first ++ second) ↔
      InScope scopes first ∧ InScope (rescopeAll scopes first) second := by
  induction first generalizing scopes with
  | nil => simp [InScope]
  | cons line rest inductionHypothesis =>
      simp only [List.cons_append, InScope, rescopeAll_cons, inductionHypothesis, and_assoc]

/-! ## Variables of statements -/

/-- The variables that an action mentions. -/
def Action.mentions : Action → List String
  | printValue value => Phrase.reads value
  | assign name value => name :: Phrase.reads value
  | input name => [name]
  | _ => []

/-- The variables that statements mention, those in declared functions left out. -/
def Block.mentions : Block → List String
  | nil => []
  | action statement _ rest => statement.mentions ++ rest.mentions
  | function _ _ _ _ rest => rest.mentions
  | guarded _ condition _ body _ rest =>
    Phrase.reads condition ++ (body.mentions ++ rest.mentions)

/-- No variable whose first target is inside a block is mentioned after the block,
given the earlier targets in the function. -/
def Block.Confined (earlier : List String) : Block → Prop
  | nil => True
  | action statement _ rest => rest.Confined (earlier ++ statement.targets)
  | function _ _ _ _ rest => rest.Confined earlier
  | guarded _ _ _ body _ rest =>
    body.Confined earlier ∧ rest.Confined (earlier ++ body.targets) ∧
      ∀ name ∈ body.targets, name ∉ earlier → name ∉ rest.mentions

/-- The variables in expressions are targets already. -/
def Block.ReadsKnown (earlier : List String) : Block → Prop
  | nil => True
  | action statement _ rest =>
    (∀ name ∈ statement.mentions, name ∈ earlier ++ statement.targets) ∧
      rest.ReadsKnown (earlier ++ statement.targets)
  | function _ _ _ _ rest => rest.ReadsKnown earlier
  | guarded _ condition _ body _ rest =>
    (∀ name ∈ Phrase.reads condition, name ∈ earlier) ∧ body.ReadsKnown earlier ∧
      rest.ReadsKnown (earlier ++ body.targets)

/-! ## Lines of statements -/

/-- The targets of an action that are new in its function. -/
def Action.fresh (earlier : List String) (statement : Action) : List String :=
  statement.targets.filter (· ∉ earlier)

theorem Action.rescopeAll_lines (statement : Action) (earlier top : List String)
    (outer : List (List String)) :
    rescopeAll (top :: outer) (statement.lines earlier) =
      (statement.fresh earlier ++ top) :: outer := by
  cases statement with
  | assign name value | input name =>
      by_cases known : name ∈ earlier <;>
        simp [lines, declaration, fresh, targets, known, Line.rescope]
  | printText | printValue | call | label | jump => rfl

/-- The lines of an action are in scope where all its variables are, its own
declarations counted. -/
theorem Action.inScope_lines_iff (statement : Action) (earlier top : List String)
    (outer : List (List String)) :
    InScope (top :: outer) (statement.lines earlier) ↔
      ∀ name ∈ statement.mentions, name ∈ statement.fresh earlier ++ (top ++ outer.flatten) := by
  cases statement with
  | assign name value =>
      by_cases known : name ∈ earlier <;>
        simp [lines, declaration, fresh, targets, known, Line.rescope, InScope, Line.mentions,
          mentions]
  | input name =>
      have zero : Phrase.reads (Expression.ofNumber "0") = [] := rfl
      by_cases known : name ∈ earlier <;>
        simp [lines, declaration, fresh, targets, known, Line.rescope, InScope, Line.mentions,
          mentions, zero]
  | printValue value => simp [lines, InScope, Line.mentions, mentions, fresh, targets]
  | printText | call | label | jump => simp [lines, InScope, Line.mentions, mentions]

/-- Statements declare variables of their own in the innermost block and leave the
other blocks alone. -/
theorem Block.rescopeAll_lines (block : Block) (earlier top : List String)
    (outer : List (List String)) :
    ∃ inner, rescopeAll (top :: outer) (block.lines earlier) = inner :: outer := by
  induction block generalizing earlier top outer with
  | nil => exact ⟨top, rfl⟩
  | action statement gap rest inductionHypothesis =>
      rw [lines, rescopeAll_append, Action.rescopeAll_lines]
      exact inductionHypothesis _ _ _
  | function name gap body endGap rest _ inductionHypothesis => exact inductionHypothesis _ _ _
  | guarded guard condition gap body endGap rest bodyHypothesis restHypothesis =>
      obtain ⟨inner, inside⟩ := bodyHypothesis earlier [] (top :: outer)
      have closed : rescopeAll (top :: outer) (guarded guard condition gap body endGap rest
          |>.lines earlier) = rescopeAll (top :: outer) (rest.lines (earlier ++ body.targets)) := by
        simp [lines, Line.rescope, inside]
      rw [closed]
      exact restHypothesis _ _ _

/-! ## Hidden variables -/

/-- A variable that is known in its function but not visible in C. -/
def Hidden (earlier visible : List String) (name : String) : Prop :=
  name ∈ earlier ∧ name ∉ visible

/-- No hidden variable is among the names. -/
def Reveals (earlier visible names : List String) : Prop :=
  ∀ ⦃name : String⦄, Hidden earlier visible name → name ∉ names

theorem reveals_append {earlier visible first second : List String} :
    Reveals earlier visible (first ++ second) ↔
      Reveals earlier visible first ∧ Reveals earlier visible second := by
  simp only [Reveals, List.mem_append, not_or, imp_and, forall_and]

theorem Action.mem_fresh_iff {earlier : List String} {statement : Action} {name : String} :
    name ∈ statement.fresh earlier ↔ name ∈ statement.targets ∧ name ∉ earlier := by
  simp [fresh]

/-- An action hides and reveals nothing. -/
theorem Action.hidden_iff {earlier visible : List String} {statement : Action} {name : String} :
    Hidden (earlier ++ statement.targets) (statement.fresh earlier ++ visible) name ↔
      Hidden earlier visible name := by
  simp only [Hidden, List.mem_append, mem_fresh_iff]
  tauto

/-- A block hides the variables whose first target is inside it. -/
theorem Block.hidden_iff {earlier visible : List String} {body : Block} {name : String}
    (inside : ∀ name ∈ visible, name ∈ earlier) :
    Hidden (earlier ++ body.targets) visible name ↔
      Hidden earlier visible name ∨ (name ∈ body.targets ∧ name ∉ earlier) := by
  have known := inside name
  simp only [Hidden, List.mem_append]
  tauto

/-- Names that are known are visible exactly when none of them is hidden. -/
theorem visible_iff_reveals {earlier visible names : List String}
    (known : ∀ name ∈ names, name ∈ earlier) :
    (∀ name ∈ names, name ∈ visible) ↔ Reveals earlier visible names := by
  constructor
  · rintro isVisible name ⟨_, notVisible⟩ isIn
    exact notVisible (isVisible name isIn)
  · intro reveals name isIn
    apply Decidable.byContradiction
    intro notVisible
    exact reveals ⟨known name isIn, notVisible⟩ isIn

/-- Statements are in scope when they mention no hidden variable, and no variable
whose first target is inside a block after that block. -/
theorem Block.inScope_lines_iff {block : Block} {earlier top : List String}
    {outer : List (List String)} (reads : block.ReadsKnown earlier)
    (inside : ∀ name ∈ top ++ outer.flatten, name ∈ earlier) :
    InScope (top :: outer) (block.lines earlier) ↔
      Reveals earlier (top ++ outer.flatten) block.mentions ∧ block.Confined earlier := by
  induction block generalizing earlier top outer with
  | nil => simp [lines, InScope, mentions, Confined, Reveals]
  | action statement gap rest inductionHypothesis =>
      rcases reads with ⟨known, restKnown⟩
      have insideAfter : ∀ name ∈ statement.fresh earlier ++ top ++ outer.flatten,
          name ∈ earlier ++ statement.targets := by
        intro name isIn
        rw [List.append_assoc] at isIn
        rcases List.mem_append.mp isIn with isFresh | isVisible
        · exact List.mem_append_right _ (Action.mem_fresh_iff.mp isFresh).1
        · exact List.mem_append_left _ (inside name isVisible)
      have sameHidden : ∀ names : List String,
          Reveals (earlier ++ statement.targets) (statement.fresh earlier ++ (top ++ outer.flatten))
            names ↔ Reveals earlier (top ++ outer.flatten) names :=
        fun names => forall_congr' fun name => imp_congr_left Action.hidden_iff
      rw [lines, inScope_append, Action.inScope_lines_iff, Action.rescopeAll_lines,
        inductionHypothesis restKnown insideAfter, visible_iff_reveals known, List.append_assoc,
        sameHidden, sameHidden, mentions, reveals_append, and_assoc]
      rfl
  | function name gap body endGap rest _ inductionHypothesis =>
      exact inductionHypothesis reads inside
  | guarded guard condition gap body endGap rest bodyHypothesis restHypothesis =>
      rcases reads with ⟨known, bodyKnown, restKnown⟩
      obtain ⟨inner, closes⟩ := body.rescopeAll_lines earlier [] (top :: outer)
      have insideAfter : ∀ name ∈ top ++ outer.flatten, name ∈ earlier ++ body.targets :=
        fun name isIn => List.mem_append_left _ (inside name isIn)
      have atBody : InScope ([] :: top :: outer) (body.lines earlier) ↔ _ :=
        bodyHypothesis bodyKnown inside
      have atRest := restHypothesis restKnown insideAfter
      have conditionVisible :
          (∀ name ∈ Phrase.reads condition, name ∈ (top :: outer).flatten) ↔ _ :=
        visible_iff_reveals known
      have hiddenAfter : Reveals (earlier ++ body.targets) (top ++ outer.flatten) rest.mentions ↔
          Reveals earlier (top ++ outer.flatten) rest.mentions ∧
            ∀ name ∈ body.targets, name ∉ earlier → name ∉ rest.mentions := by
        simp only [Reveals, Block.hidden_iff inside, or_imp, forall_and, and_imp]
      have split : InScope (top :: outer)
          ((guarded guard condition gap body endGap rest).lines earlier) ↔
            (∀ name ∈ Phrase.reads condition, name ∈ (top :: outer).flatten) ∧
              InScope ([] :: top :: outer) (body.lines earlier) ∧
              InScope (top :: outer) (rest.lines (earlier ++ body.targets)) := by
        simp [lines, InScope, inScope_append, Line.mentions, Line.rescope, closes]
      rw [split, conditionVisible, atBody, atRest, hiddenAfter, mentions, reveals_append,
        reveals_append, Confined]
      constructor
      · rintro ⟨inCondition, ⟨inBody, bodyConfined⟩, ⟨inRest, notAfter⟩, restConfined⟩
        exact ⟨⟨inCondition, inBody, inRest⟩, bodyConfined, restConfined, notAfter⟩
      · rintro ⟨⟨inCondition, inBody, inRest⟩, bodyConfined, restConfined, notAfter⟩
        exact ⟨inCondition, ⟨inBody, bodyConfined⟩, ⟨inRest, notAfter⟩, restConfined⟩

/-! ## Variables that the tables admit -/

section Admitted

variable {names : Names} {owner : String} {history : List Occurrence} {earlier : List String}

/-- Past an action, its targets are known. -/
theorem knows_action (knows : names.Knows owner history earlier) {statement : Action}
    (admits : names.Admits (within owner statement.events)) :
    (names.recordAll (within owner statement.events)).Knows owner
      (history ++ within owner statement.events) (earlier ++ statement.targets) :=
  knows.recordAll admits (Names.owned_within _ knows.opened) fun _ => Names.target_mem_within

/-- An action that is admitted mentions known variables only. -/
theorem Action.mentions_known (knows : names.Knows owner history earlier) {statement : Action}
    (admits : names.Admits (within owner statement.events)) :
    ∀ name ∈ statement.mentions, name ∈ earlier ++ statement.targets := by
  cases statement with
  | printText | call | label | jump => exact nofun
  | input name => simp [mentions, targets]
  | printValue value =>
      intro name isIn
      have declared := Names.admits_uses.mp admits name isIn
      exact List.mem_append_left _ ((knows.declares_iff name).mp declared)
  | assign target value =>
      have admitted : names.Admits (within owner (Action.input target).events) :=
        ⟨trivial, trivial⟩
      have after : (names.record ⟨owner, .target target⟩).Knows owner
          (history ++ [⟨owner, .target target⟩]) (earlier ++ [target]) :=
        knows_action knows admitted
      intro name isIn
      rcases List.mem_cons.mp isIn with rfl | isRead
      · simp [targets]
      · exact (after.declares_iff name).mp (Names.admits_uses.mp admits.2 name isRead)

/-- Statements that are admitted mention known variables only, in the functions that
they declare too. -/
theorem Block.readsKnown_of_admits {block : Block} (knows : names.Knows owner history earlier)
    (admits : names.Admits (block.occurrences owner)) :
    block.ReadsKnown earlier ∧ ∀ function ∈ block.functions, function.2.ReadsKnown [] := by
  induction block generalizing names owner history earlier with
  | nil => exact ⟨trivial, nofun⟩
  | action statement gap rest inductionHypothesis =>
      rcases Names.admits_append.mp admits with ⟨here, others⟩
      obtain ⟨restKnown, functionsKnown⟩ := inductionHypothesis (knows_action knows here) others
      exact ⟨⟨Action.mentions_known knows here, restKnown⟩, functionsKnown⟩
  | function name gap body endGap rest bodyHypothesis restHypothesis =>
      rcases admits with ⟨allows, inside⟩
      rcases Names.admits_append.mp inside with ⟨inBody, inRest⟩
      have noFunctions := inBody.functions_eq_nil allows.2.1
      obtain ⟨bodyKnown, _⟩ := bodyHypothesis (knows.header allows) inBody
      have admitted : names.Admits
          (Block.occurrences owner (.function name gap body endGap .nil)) :=
        ⟨allows, by simpa [Block.occurrences] using inBody⟩
      have after := knows.block admitted
      simp only [Block.occurrences, List.append_nil, Block.targets] at after
      obtain ⟨restKnown, functionsKnown⟩ := restHypothesis after inRest
      refine ⟨restKnown, ?_⟩
      rw [functions, noFunctions, List.nil_append]
      exact List.forall_mem_cons.mpr ⟨bodyKnown, functionsKnown⟩
  | guarded guard condition gap body endGap rest bodyHypothesis restHypothesis =>
      rcases Names.admits_append.mp admits with ⟨uses, inside⟩
      rw [Names.recordAll_uses] at inside
      rcases Names.admits_append.mp inside with ⟨inBody, inRest⟩
      obtain ⟨bodyKnown, bodyFunctions⟩ := bodyHypothesis knows inBody
      obtain ⟨restKnown, restFunctions⟩ := restHypothesis (knows.block inBody) inRest
      refine ⟨⟨?_, bodyKnown, restKnown⟩, List.forall_mem_append.mpr ⟨bodyFunctions, restFunctions⟩⟩
      intro name isIn
      exact (knows.declares_iff name).mp (Names.admits_uses.mp uses name isIn)

end Admitted

/-! ## Programs -/

theorem rescopeAll_functionLines (function : String × Block) (scopes : List (List String)) :
    rescopeAll scopes (functionLines function) = scopes := by
  obtain ⟨inner, closes⟩ := function.2.rescopeAll_lines [] [] scopes
  simp [functionLines, Line.rescope, closes]

/-- The lines of statements that start a function are in scope exactly when no variable
is mentioned after the block of its first target. -/
theorem Block.inScope_iff_confined {block : Block} (reads : block.ReadsKnown []) :
    InScope [[]] (block.lines []) ↔ block.Confined [] := by
  rw [Block.inScope_lines_iff reads (by simp), and_iff_right]
  rintro name ⟨isIn, _⟩
  contradiction

theorem inScope_functionLines {function : String × Block} (reads : function.2.ReadsKnown []) :
    InScope [] (functionLines function) ↔ function.2.Confined [] := by
  rw [← Block.inScope_iff_confined reads]
  simp [functionLines, InScope, inScope_append, Line.mentions, Line.rescope]

theorem inScope_functions {functions : List (String × Block)}
    (reads : ∀ function ∈ functions, function.2.ReadsKnown []) :
    InScope [] (functions.flatMap functionLines) ↔
      ∀ function ∈ functions, function.2.Confined [] := by
  induction functions with
  | nil => simp [InScope]
  | cons function rest inductionHypothesis =>
      rcases List.forall_mem_cons.mp reads with ⟨here, others⟩
      rw [List.flatMap_cons, inScope_append, rescopeAll_functionLines,
        inScope_functionLines here, inductionHypothesis others, List.forall_mem_cons]

theorem rescopeAll_functions (functions : List (String × Block)) :
    rescopeAll [] (functions.flatMap functionLines) = [] := by
  induction functions with
  | nil => rfl
  | cons function rest inductionHypothesis =>
      rw [List.flatMap_cons, rescopeAll_append, rescopeAll_functionLines, inductionHypothesis]

/-- In `main` and in every function, no variable whose first target is inside a block
is mentioned after the block. -/
def Program.Confined (program : Program) : Prop :=
  program.body.Confined [] ∧ ∀ function ∈ program.body.functions, function.2.Confined []

theorem Program.inScope_iff_confined {program : Program} (lawful : Lawful program.occurrences) :
    InScope [] program.lines ↔ program.Confined := by
  have admits := ((lawful_iff_admits program.owned).mp lawful).1
  obtain ⟨reads, functionReads⟩ := Block.readsKnown_of_admits Names.knows_initial admits
  have main : program.mainLines = program.body.lines [] := Block.lines_erase [] program.body
  have split : InScope [] program.lines ↔
      InScope [] (program.body.functions.flatMap Syntax.functionLines) ∧
        InScope [[]] (program.body.lines []) := by
    simp [Program.lines, Program.functionLines, main, InScope, inScope_append, Line.mentions,
      Line.rescope, rescopeAll_functions]
  rw [split, inScope_functions functionReads, Block.inScope_iff_confined reads, Program.Confined,
    and_comm]

/-- The variables of the C text are in scope exactly when, in `main` and in every
function, no variable whose first target is inside a block is mentioned after the
block. -/
theorem compile_inScope_iff {source : String} {artifact : Artifact} {program : Program}
    (compiles : compile source = .ok artifact) (tokens : tokenize source = .ok program.tokens) :
    artifact.text = render program.lines ∧ (InScope [] program.lines ↔ program.Confined) := by
  rcases compile_eq_ok_iff.mp compiles with ⟨other, otherTokens, lawful, rfl⟩
  have same := program_unique otherTokens tokens
  subst same
  exact ⟨rfl, Program.inScope_iff_confined lawful⟩

/-- A program that mentions a variable after the block of its first target:

```text
if (1 < 2)
let x = 1
end
print x
```
-/
def lateMention : Program where
  leading := 0
  body :=
    .guarded .once ⟨⟨.ofNumber "1", [(⟨.less, rfl⟩, .ofNumber "2")]⟩, nofun⟩ 0
      (.action (.assign "x" (.ofNumber "1")) 0 .nil) 0
      (.action (.printValue ⟨⟨⟨none, .reference "x"⟩, []⟩, []⟩) 0 .nil)

/-- The C text of an accepted program can have a variable out of scope. -/
theorem compile_hides :
    compile "if (1 < 2)\nlet x = 1\nend\nprint x" = .ok ⟨render lateMention.lines, ⟨[], []⟩⟩ ∧
      tokenize "if (1 < 2)\nlet x = 1\nend\nprint x" = .ok lateMention.tokens ∧
      ¬ InScope [] lateMention.lines := by
  decide +kernel

theorem compile_inScope_iff_lateMention :
    "#include <stdio.h>\nint main() \x7b\nif (1 < 2) \x7b\nfloat x;\nx = 1;\n\x7d\n" ++
        "printf(\"%.2f\\n\", (float) (x));\nreturn 0;\n\x7d\n" = render lateMention.lines ∧
      (InScope [] lateMention.lines ↔ lateMention.Confined) := by
  have compiles :
      compile "if (1 < 2)\nlet x = 1\nend\nprint x" =
        .ok ⟨"#include <stdio.h>\nint main() \x7b\nif (1 < 2) \x7b\nfloat x;\nx = 1;\n\x7d\n" ++
          "printf(\"%.2f\\n\", (float) (x));\nreturn 0;\n\x7d\n", ⟨[], []⟩⟩ := by
    decide +kernel
  have tokens : tokenize "if (1 < 2)\nlet x = 1\nend\nprint x" = .ok lateMention.tokens := by
    decide +kernel
  exact compile_inScope_iff compiles tokens

end TeenyC.Syntax
