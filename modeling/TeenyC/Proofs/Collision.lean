import TeenyC.Proofs.Compile.Program
import TeenyC.Proofs.Syntax.Placement

/-!
# Names of a program that mean something in C

The generator writes the names of a program into the C text as they are.  A name that is a
keyword of C, a function or a variable with the name of a library function that the C text
calls, and a call of a function in the scope of a variable with its name are all accepted,
and none of them is right in C.  The C text is free of such collisions exactly when the
program is.
-/

namespace TeenyC.Syntax

/-! ## Names in the C text -/

/-- The keywords of C99. -/
def cKeywords : List String :=
  ["auto", "break", "case", "char", "const", "continue", "default", "do", "double", "else",
    "enum", "extern", "float", "for", "goto", "if", "inline", "int", "long", "register",
    "restrict", "return", "short", "signed", "sizeof", "static", "struct", "switch", "typedef",
    "union", "unsigned", "void", "volatile", "while", "_Bool", "_Complex", "_Imaginary"]

/-- The library functions that the C text calls. -/
def libraryFunctions : List String :=
  ["printf", "scanf"]

/-- The names of a program that stand in a line. -/
def Line.names : Line → List String
  | openFunction name | declare name | call name | label name | jump name | openScan name => [name]
  | assign name value => name :: Phrase.reads value
  | printValue value => Phrase.reads value
  | openGuard _ condition => Phrase.reads condition
  | preamble | openMain | finish | close | discard | printText _ => []

/-- No name in lines of C text collides with what it means in C. -/
structure CollisionFree (lines : List Line) : Prop where
  /-- No name is a keyword. -/
  keywords : ∀ line ∈ lines, ∀ name ∈ line.names, name ∉ cKeywords
  /-- No function has the name of a library function. -/
  functionNames : ∀ name, .openFunction name ∈ lines → name ∉ libraryFunctions
  /-- No variable has the name of a library function. -/
  variableNames : ∀ name, .declare name ∈ lines → name ∉ libraryFunctions
  /-- No call comes after the declaration of a variable with its name in the same function. -/
  calls : ∀ function name,
    ¬ [(some function, .declare name), (some function, .call name)].Sublist (placed [] lines)

/-! ## Names in a program -/

/-- The name that an event is about. -/
def Event.name : Event → String
  | header name | call name | label name | jump name | target name | use name => name

/-- No name of a program collides with what it means in C. -/
structure Program.CollisionFree (program : Program) : Prop where
  /-- No name is a keyword. -/
  keywords : ∀ occurrence ∈ program.occurrences, occurrence.event.name ∉ cKeywords
  /-- No function has the name of a library function. -/
  functionNames : ∀ owner name,
    ⟨owner, .header name⟩ ∈ program.occurrences → name ∉ libraryFunctions
  /-- No variable has the name of a library function. -/
  variableNames : ∀ owner name,
    ⟨owner, .target name⟩ ∈ program.occurrences → name ∉ libraryFunctions
  /-- No call comes after a target with its name in the same function. -/
  calls : ∀ body ∈ program.bodies, ∀ name,
    ¬ [.target name, .call name].Sublist body.2.events

/-! ## The same names -/

theorem Action.mem_names_iff {statement : Action} {earlier : List String} {name : String} :
    (∃ line ∈ statement.lines earlier, name ∈ line.names) ↔
      ∃ event ∈ statement.events, event.name = name := by
  cases statement with
  | printText | call | label | jump => simp [lines, events, Line.names, Event.name, eq_comm]
  | printValue value => simp [lines, events, Line.names, Event.name]
  | assign target value =>
      by_cases known : target ∈ earlier <;>
        simp [lines, events, declaration, known, Line.names, Event.name, eq_comm]
  | input target =>
      have zero : Phrase.reads (Expression.ofNumber "0") = [] := rfl
      by_cases known : target ∈ earlier <;>
        simp [lines, events, declaration, known, Line.names, Event.name, zero, eq_comm]

/-- The names in the lines of statements are those that the statements use, the functions
declared among them left out. -/
theorem Block.mem_names_iff {block : Block} {earlier : List String} {name : String} :
    (∃ line ∈ block.lines earlier, name ∈ line.names) ↔
      ∃ event ∈ block.events, (∀ function, event ≠ .header function) ∧ event.name = name := by
  induction block generalizing earlier with
  | nil => simp [lines, events]
  | action statement gap rest inductionHypothesis =>
      have noHeader : ∀ event ∈ statement.events, ∀ function, event ≠ .header function := by
        cases statement <;> simp [Action.events]
      simp only [lines, events, List.mem_append, or_and_right, exists_or, inductionHypothesis,
        Action.mem_names_iff]
      refine or_congr_left (exists_congr fun event => ?_)
      exact and_congr_right fun isIn => (and_iff_right (noHeader event isIn)).symm
  | function function gap body endGap rest _ restHypothesis =>
      simp only [lines, events, List.mem_cons, restHypothesis]
      simp
  | guarded guard condition gap body endGap rest bodyHypothesis restHypothesis =>
      simp only [lines, events, List.mem_append, List.cons_append, List.mem_cons, or_and_right,
        exists_or, bodyHypothesis, restHypothesis]
      simp [Line.names, Event.name]

section Program

variable {program : Program} {name : String}

/-- The functions of the C text are those that the program declares. -/
theorem Program.mem_functions_iff :
    name ∈ program.body.functions.map (·.1) ↔
      ∃ owner, ⟨owner, .header name⟩ ∈ program.occurrences := by
  rw [← mem_headers_iff, Program.occurrences, Block.headers_occurrences]

/-- The names in the C text are the names in the program. -/
theorem Program.mem_names_iff :
    (∃ line ∈ program.lines, name ∈ line.names) ↔
      ∃ occurrence ∈ program.occurrences, occurrence.event.name = name := by
  have names : program.lines.flatMap Line.names =
      (program.body.functions.flatMap fun function =>
        function.1 :: (function.2.lines []).flatMap Line.names) ++
          (program.body.lines []).flatMap Line.names := by
    simp [Program.lines, Program.functionLines, Syntax.functionLines, mainLines_eq_lines,
      List.flatMap_assoc, List.flatMap_cons, List.flatMap_append, Line.names]
  have text : (∃ line ∈ program.lines, name ∈ line.names) ↔
      name ∈ program.body.functions.map (·.1) ∨
        ∃ body ∈ program.bodies, ∃ line ∈ body.2.lines [], name ∈ line.names := by
    rw [← List.mem_flatMap, names]
    simp only [bodies, List.mem_append, List.mem_flatMap, List.mem_map, List.mem_cons,
      List.not_mem_nil, or_false, or_and_right, and_or_left, exists_or, exists_eq_left, or_assoc,
      eq_comm]
  rw [text, mem_functions_iff]
  simp only [Block.mem_names_iff, mem_occurrences_iff]
  constructor
  · rintro (⟨owner, body, isBody, _, isIn⟩ | ⟨body, isBody, event, isIn, _, isName⟩)
    · exact ⟨⟨body.1, .header name⟩, ⟨body, isBody, rfl, isIn⟩, rfl⟩
    · exact ⟨⟨body.1, event⟩, ⟨body, isBody, rfl, isIn⟩, isName⟩
  · rintro ⟨⟨owner, event⟩, ⟨body, isBody, isOwner, isIn⟩, isName⟩
    cases event with
    | header function => exact .inl ⟨owner, body, isBody, isOwner, isName ▸ isIn⟩
    | call | label | jump | target | use =>
        exact .inr ⟨body, isBody, _, isIn, by simp, isName⟩

theorem Block.openFunction_not_mem_lines (block : Block) (earlier : List String) :
    .openFunction name ∉ block.lines earlier := by
  induction block generalizing earlier with
  | nil => simp [lines]
  | action statement gap rest inductionHypothesis =>
      cases statement <;>
        simp only [lines, Action.lines, declaration, List.mem_append, inductionHypothesis] <;>
        (try split) <;> simp
  | function function gap body endGap rest _ restHypothesis => exact restHypothesis earlier
  | guarded guard condition gap body endGap rest bodyHypothesis restHypothesis =>
      simp [lines, bodyHypothesis, restHypothesis]

theorem Program.openFunction_mem_lines_iff :
    .openFunction name ∈ program.lines ↔
      ∃ owner, ⟨owner, .header name⟩ ∈ program.occurrences := by
  rw [← mem_functions_iff]
  simp [Program.lines, Program.functionLines, Syntax.functionLines, mainLines_eq_lines,
    Block.openFunction_not_mem_lines, eq_comm]

/-- The variables declared in the C text are the targets of the program. -/
theorem Program.declare_mem_lines_iff :
    .declare name ∈ program.lines ↔
      ∃ owner, ⟨owner, .target name⟩ ∈ program.occurrences := by
  have told : .declare name ∈ program.lines ↔
      .target name ∈ program.lines.filterMap Line.event? := by
    have tells : (Line.declare name).event? = some (.target name) := rfl
    simp only [List.mem_filterMap, Line.event?_eq_some_iff tells, exists_eq_right]
  simp only [told, events_lines, List.mem_flatMap, target_mem_announced_iff, List.not_mem_nil,
    not_false_eq_true, true_and, mem_occurrences_iff]
  constructor
  · rintro ⟨body, isBody, isIn⟩
    exact ⟨body.1, body, isBody, rfl, isIn⟩
  · rintro ⟨_, body, isBody, _, isIn⟩
    exact ⟨body, isBody, isIn⟩

end Program

/-! ## Calls that are hidden by variables -/

theorem not_pair_sublist_iff {α : Type} {first second : α} {list : List α} :
    ¬ [first, second].Sublist list ↔
      list.Pairwise fun earlier later => earlier = first → later ≠ second := by
  rw [List.pairwise_iff_forall_sublist]
  constructor
  · rintro apart earlier later isIn rfl rfl
    exact apart isIn
  · intro apart isIn
    exact apart isIn rfl rfl

/-- A variable is a target before a call of its name exactly when its first target is. -/
theorem target_call_sublist_announced_iff {earlier : List String} {events : List Event}
    {name : String} (isNew : name ∉ earlier) :
    [.target name, .call name].Sublist (announced earlier events) ↔
      [.target name, .call name].Sublist events := by
  induction events generalizing earlier with
  | nil => exact Iff.rfl
  | cons event rest inductionHypothesis =>
      -- An event that is not the target itself cannot begin the pair, on either side.
      have skip : ∀ {other : Event}, other ≠ .target name → ∀ list : List Event,
          [.target name, .call name].Sublist (other :: list) ↔
            [.target name, .call name].Sublist list := by
        intro other differs list
        simp [List.sublist_cons_iff, differs.symm]
      cases event with
      | target other =>
          by_cases same : other = name
          · subst same
            have begins : ∀ list : List Event,
                [.target other, .call other].Sublist (.target other :: list) ↔
                  .call other ∈ list := by
              intro list
              rw [List.cons_sublist_cons, List.singleton_sublist]
            rw [announced, if_neg isNew, List.singleton_append, begins, begins,
              mem_announced_iff rfl]
          · have differs : Event.target other ≠ .target name := by simpa using same
            have stillNew : name ∉ earlier ++ [other] := by simp [isNew, Ne.symm same]
            rw [skip differs, ← inductionHypothesis stillNew, announced]
            split
            · rfl
            · exact skip differs _
      | header | use => rw [skip (by simp), announced, inductionHypothesis isNew]
      | call | label | jump =>
          rw [skip (by simp), announced, skip (by simp), inductionHypothesis isNew] <;> simp

/-- A pair of elements that nothing else is mapped to comes in a list exactly when what it
is mapped to comes in the mapped list. -/
theorem pair_sublist_filterMap_iff {α β : Type} {map : α → Option β} {list : List α}
    {first second : α} {firstTold secondTold : β}
    (tellsFirst : ∀ element, map element = some firstTold ↔ element = first)
    (tellsSecond : ∀ element, map element = some secondTold ↔ element = second) :
    [firstTold, secondTold].Sublist (list.filterMap map) ↔ [first, second].Sublist list := by
  rw [← not_iff_not, not_pair_sublist_iff, not_pair_sublist_iff, List.pairwise_filterMap]
  refine List.Pairwise.iff fun earlier later => ?_
  rw [← tellsFirst, Ne, ← tellsSecond]
  constructor
  · intro apart isFirst isSecond
    exact apart _ isFirst _ isSecond rfl rfl
  · rintro apart _ isFirst _ isSecond rfl rfl
    exact apart isFirst isSecond

/-- A pair of events comes in functions with different names exactly when it comes in one of
them. -/
theorem pair_sublist_flatMap_iff {bodies : List (String × Block)}
    (distinct : (bodies.map (·.1)).Nodup) {events : String × Block → List Event}
    {function : String} {first second : Event} :
    [⟨function, first⟩, ⟨function, second⟩].Sublist
        (bodies.flatMap fun body => within body.1 (events body)) ↔
      ∃ body ∈ bodies, body.1 = function ∧ [first, second].Sublist (events body) := by
  have across : bodies.Pairwise fun body other =>
      ∀ earlier ∈ within body.1 (events body), ∀ later ∈ within other.1 (events other),
        earlier = ⟨function, first⟩ → later ≠ ⟨function, second⟩ := by
    refine (List.pairwise_map.mp distinct).imp ?_
    rintro body other differ _ isIn _ otherIsIn rfl rfl
    exact differ ((mem_within_iff.mp isIn).1.symm.trans (mem_within_iff.mp otherIsIn).1)
  have inside : ∀ body : String × Block,
      [⟨function, first⟩, ⟨function, second⟩].Sublist (within body.1 (events body)) ↔
        body.1 = function ∧ [first, second].Sublist (events body) := by
    intro body
    constructor
    · intro isIn
      have owned : function = body.1 := (mem_within_iff.mp (isIn.mem List.mem_cons_self)).1
      subst owned
      rw [within, ← List.filterMap_eq_map, pair_sublist_filterMap_iff] at isIn
      · exact ⟨rfl, isIn⟩
      · simp
      · simp
    · rintro ⟨rfl, isIn⟩
      exact isIn.map _
  rw [← not_iff_not, not_pair_sublist_iff, List.pairwise_flatMap, and_iff_left across]
  simp only [← not_pair_sublist_iff, inside, not_exists, not_and]

/-- A call of the C text is hidden by a variable exactly when its name has been a target in
the function that it is in. -/
theorem Lawful.declare_call_sublist_iff {program : Program}
    (lawful : Lawful program.occurrences) {function name : String} :
    [(some function, .declare name), (some function, .call name)].Sublist
        (placed [] program.lines) ↔
      ∃ body ∈ program.bodies, body.1 = function ∧
        [.target name, .call name].Sublist body.2.events := by
  have declares : ∀ element, occurrence? element = some ⟨function, .target name⟩ ↔
      element = (some function, .declare name) := occurrence?_eq_some_iff rfl
  have calls : ∀ element, occurrence? element = some ⟨function, .call name⟩ ↔
      element = (some function, .call name) := occurrence?_eq_some_iff rfl
  rw [← pair_sublist_filterMap_iff declares calls, Program.occurrences_placed,
    pair_sublist_flatMap_iff lawful.bodies_distinct]
  simp only [target_call_sublist_announced_iff List.not_mem_nil]

/-! ## Collisions -/

/-- The C text of a lawful program is free of collisions exactly when the program is. -/
theorem Lawful.collisionFree_lines_iff {program : Program}
    (lawful : Lawful program.occurrences) :
    CollisionFree program.lines ↔ program.CollisionFree := by
  constructor
  · rintro ⟨keywords, functionNames, variableNames, calls⟩
    refine ⟨?_, ?_, ?_, ?_⟩
    · intro occurrence isIn
      obtain ⟨line, isLine, isName⟩ := Program.mem_names_iff.mpr ⟨occurrence, isIn, rfl⟩
      exact keywords line isLine _ isName
    · intro owner name isIn
      exact functionNames name (Program.openFunction_mem_lines_iff.mpr ⟨owner, isIn⟩)
    · intro owner name isIn
      exact variableNames name (Program.declare_mem_lines_iff.mpr ⟨owner, isIn⟩)
    · intro body isBody name hidden
      exact calls body.1 name (lawful.declare_call_sublist_iff.mpr ⟨body, isBody, rfl, hidden⟩)
  · rintro ⟨keywords, functionNames, variableNames, calls⟩
    refine ⟨?_, ?_, ?_, ?_⟩
    · intro line isLine name isName
      obtain ⟨occurrence, isIn, rfl⟩ := Program.mem_names_iff.mp ⟨line, isLine, isName⟩
      exact keywords occurrence isIn
    · intro name isLine
      obtain ⟨owner, isIn⟩ := Program.openFunction_mem_lines_iff.mp isLine
      exact functionNames owner name isIn
    · intro name isLine
      obtain ⟨owner, isIn⟩ := Program.declare_mem_lines_iff.mp isLine
      exact variableNames owner name isIn
    · intro function name hidden
      obtain ⟨body, isBody, _, isHidden⟩ := lawful.declare_call_sublist_iff.mp hidden
      exact calls body isBody name isHidden

/-- The C text of an accepted program is free of collisions exactly when the program has no
name that is a keyword of C, no function or variable with the name of a library function, and
no call after a target with its name in the same function. -/
theorem compile_collisionFree_iff {source : String} {artifact : Artifact} {program : Program}
    (compiles : compile source = .ok artifact) (tokens : tokenize source = .ok program.tokens) :
    artifact.text = render program.lines ∧
      (CollisionFree program.lines ↔ program.CollisionFree) := by
  rcases compile_eq_ok_iff.mp compiles with ⟨other, otherTokens, lawful, rfl⟩
  have same := program_unique otherTokens tokens
  subst same
  exact ⟨rfl, lawful.collisionFree_lines_iff⟩

/-- A program whose names all collide with what they mean in C:

```text
fn printf
end
let printf = 1
let int = 2
printf
```
-/
def colliding : Program where
  leading := 0
  body :=
    .function "printf" 0 .nil 0
      (.action (.assign "printf" (.ofNumber "1")) 0
        (.action (.assign "int" (.ofNumber "2")) 0 (.action (.call "printf") 0 .nil)))

/-- Names of an accepted program can be keywords in the C text, hide the library functions
that it calls, and hide its own functions. -/
theorem compile_collides :
    compile "fn printf\nend\nlet printf = 1\nlet int = 2\nprintf" =
        .ok ⟨render colliding.lines, ⟨["printf"], []⟩⟩ ∧
      tokenize "fn printf\nend\nlet printf = 1\nlet int = 2\nprintf" = .ok colliding.tokens ∧
      (∃ line ∈ colliding.lines, "int" ∈ line.names ∧ "int" ∈ cKeywords) ∧
      (.openFunction "printf" ∈ colliding.lines ∧ .declare "printf" ∈ colliding.lines ∧
        "printf" ∈ libraryFunctions) ∧
      [(some "main", .declare "printf"), (some "main", .call "printf")].Sublist
        (placed [] colliding.lines) ∧
      ¬ CollisionFree colliding.lines := by
  have keyword : ∃ line ∈ colliding.lines, "int" ∈ line.names ∧ "int" ∈ cKeywords :=
    ⟨.declare "int", by decide +kernel, by decide, by decide⟩
  refine ⟨by decide +kernel, by decide +kernel, keyword, by decide +kernel, by decide +kernel, ?_⟩
  intro free
  obtain ⟨line, isLine, isName, isKeyword⟩ := keyword
  exact free.keywords line isLine "int" isName isKeyword

theorem compile_collisionFree_iff_colliding :
    render colliding.lines =
        "#include <stdio.h>\nvoid printf() \x7b\n\x7d\nint main() \x7b\n" ++
          "float printf;\nprintf = 1;\nfloat int;\nint = 2;\nprintf();\nreturn 0;\n\x7d\n" ∧
      (CollisionFree colliding.lines ↔ colliding.CollisionFree) := by
  have compiles :
      compile "fn printf\nend\nlet printf = 1\nlet int = 2\nprintf" =
        .ok ⟨"#include <stdio.h>\nvoid printf() \x7b\n\x7d\nint main() \x7b\n" ++
          "float printf;\nprintf = 1;\nfloat int;\nint = 2;\nprintf();\nreturn 0;\n\x7d\n",
          ⟨["printf"], []⟩⟩ := by
    decide +kernel
  have tokens : tokenize "fn printf\nend\nlet printf = 1\nlet int = 2\nprintf" =
      .ok colliding.tokens := by
    decide +kernel
  obtain ⟨text, iff⟩ := compile_collisionFree_iff compiles tokens
  exact ⟨text.symm, iff⟩

end TeenyC.Syntax
