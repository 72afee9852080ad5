import Mathlib.Data.List.Sort
import TeenyC.Proofs.Compile.Program
import TeenyC.Proofs.Syntax.Body

/-!
# Moving a function declaration up

A function may be declared in front of statements that it stood behind, as long as no function
is declared among these: a program that is accepted is accepted after the move, and compiles to
the same artifact.  The statements that are passed can neither call the function nor declare
anything that its body needs, and its C text has a section of its own anyway.

The other direction fails, as the statements may call the function once it stands in front of
them.
-/

namespace TeenyC

/-- A set of names is determined by its members. -/
theorem NameSet.eq_of_mem_iff {set other : NameSet}
    (same : ∀ name, name ∈ set ↔ name ∈ other) : set = other := by
  rcases set with ⟨names, increasing⟩
  rcases other with ⟨others, otherIncreasing⟩
  have equal : names = others := increasing.eq_of_mem_iff otherIncreasing (fun {name} => same name)
  subst equal
  rfl

namespace Syntax

/-! ## Events behind a move -/

section Events

variable {before passed moved after : List Occurrence}

/-- The events of a program in which one part was moved up past another. -/
theorem perm_of_move (before passed moved after : List Occurrence) :
    (before ++ (moved ++ (passed ++ after))).Perm (before ++ (passed ++ (moved ++ after))) :=
  .append_left _ (List.perm_append_comm_assoc _ _ _)

theorem append_eq_append_cons {α : Type} {first second left right : List α} {item : α}
    (split : first ++ second = left ++ item :: right) :
    (∃ rest, first = left ++ item :: rest ∧ right = rest ++ second) ∨
      ∃ start, left = first ++ start ∧ second = start ++ item :: right := by
  rcases List.append_eq_append_iff.mp split with ⟨start, isLeft, isSecond⟩ | ⟨rest, isFirst, isRest⟩
  · exact .inr ⟨start, isLeft, isSecond⟩
  · cases rest with
    | nil => exact .inr ⟨[], by simpa using isFirst.symm, isRest.symm⟩
    | cons head rest =>
        obtain ⟨rfl, isRight⟩ := List.cons.inj isRest
        exact .inl ⟨rest, isFirst, isRight⟩

/-- Whatever comes before an event when a part was moved up, came before it at first too, or the
event was moved past it. -/
theorem exists_split_of_move {left right : List Occurrence} {occurrence : Occurrence}
    (split : before ++ (moved ++ (passed ++ after)) = left ++ occurrence :: right) :
    ∃ left' right', before ++ (passed ++ (moved ++ after)) = left' ++ occurrence :: right' ∧
      ∀ earlier ∈ left', earlier ∈ left ∨ (earlier ∈ passed ∧ occurrence ∈ moved) := by
  rcases append_eq_append_cons split with ⟨rest, rfl, _⟩ | ⟨start, rfl, inRest⟩
  · exact ⟨left, _, List.append_assoc .., fun earlier isEarlier => .inl isEarlier⟩
  rcases append_eq_append_cons inRest with ⟨rest, rfl, _⟩ | ⟨start, rfl, inOthers⟩
  · refine ⟨before ++ (passed ++ start), rest ++ after, by simp, ?_⟩
    simp only [List.mem_append, List.mem_cons]
    tauto
  rcases append_eq_append_cons inOthers with ⟨rest, rfl, _⟩ | ⟨start, rfl, rfl⟩
  · refine ⟨before ++ start, rest ++ (moved ++ after), by simp, ?_⟩
    simp only [List.mem_append]
    tauto
  · refine ⟨before ++ (passed ++ (moved ++ start)), right, by simp, ?_⟩
    simp only [List.mem_append]
    tauto

/-- The rules for names still hold after a part was moved up past another one, if the latter
declares no function and no variable that is used in the part. -/
theorem Lawful.move (lawful : Lawful (before ++ (passed ++ (moved ++ after))))
    (noHeaders : headers passed = [])
    (apart : ∀ ⦃owner name : String⦄, ⟨owner, .use name⟩ ∈ moved →
      ⟨owner, .target name⟩ ∉ passed) :
    Lawful (before ++ (moved ++ (passed ++ after))) := by
  have perm := perm_of_move before passed moved after
  have headersPerm : (headers _).Perm (headers _) := perm.filterMap _
  have labelsPerm : (labels _).Perm (labels _) := perm.filterMap _
  have jumpsPerm : (jumps _).Perm (jumps _) := perm.filterMap _
  constructor
  · intro owner name isIn
    exact lawful.functionsOutside (perm.mem_iff.mp isIn)
  · exact headersPerm.nodup_iff.mpr lawful.functionsDistinct
  · intro isHeader
    exact lawful.mainReserved (headersPerm.mem_iff.mp isHeader)
  · intro left right owner name split
    rcases exists_split_of_move split with ⟨left', right', split', earlier⟩
    rcases mem_headers_iff.mp (lawful.callsDeclared split') with ⟨place, isIn⟩
    rcases earlier _ isIn with isLeft | ⟨isPassed, _⟩
    · exact mem_headers_iff.mpr ⟨place, isLeft⟩
    · have isHeader := mem_headers_iff.mpr ⟨place, isPassed⟩
      rw [noHeaders] at isHeader
      contradiction
  · exact labelsPerm.nodup_iff.mpr lawful.labelsDistinct
  · intro left right owner name split
    rcases exists_split_of_move split with ⟨left', right', split', earlier⟩
    rcases earlier _ (lawful.usesDeclared split') with isLeft | ⟨isPassed, isMoved⟩
    · exact isLeft
    · exact absurd isPassed (apart isMoved)
  · intro name isJump
    exact labelsPerm.mem_iff.mpr (lawful.jumpsDeclared (jumpsPerm.mem_iff.mp isJump))

end Events

/-! ## Programs in parts -/

/-- The program that consists of parts, one after the other, each a sequence of statements. -/
def Program.ofParts (leading : Nat) (parts : List Block) : Program :=
  ⟨leading, parts.foldr Block.append .nil⟩

section Parts

variable {leading otherLeading : Nat} {parts : List Block} {program other : Program}
  {name : String} {gap endGap : Nat} {before passed body after : Block}

theorem Program.occurrences_ofParts :
    (ofParts leading parts).occurrences = parts.flatMap (·.occurrences mainFunction) := by
  rw [occurrences, ofParts]
  induction parts with
  | nil => rfl
  | cons part rest inductionHypothesis =>
      rw [List.foldr_cons, Block.occurrences_append, inductionHypothesis, List.flatMap_cons]

/-- What the body of a function does with names, it does in that function and not in `main`. -/
theorem Lawful.owner_of_function (lawful : Lawful program.occurrences)
    (isFunction : (name, body) ∈ program.body.functions) :
    name ≠ mainFunction ∧ ∀ occurrence ∈ body.occurrences name, occurrence.owner = name := by
  have admits := ((lawful_iff_admits program.owned).mp lawful).1
  constructor
  · rintro rfl
    apply lawful.mainReserved
    rw [Program.occurrences, Block.headers_occurrences]
    exact List.mem_map_of_mem isFunction
  · exact Names.owner_of_functions_eq_nil (admits.functions_flat _ isFunction)

/-- A function that is moved up past statements without functions keeps the rules for names. -/
theorem Lawful.hoist (noFunction : passed.functions = [])
    (lawful : Lawful (Program.ofParts leading
      [before, passed, .function name gap body endGap .nil, after]).occurrences) :
    Lawful (Program.ofParts otherLeading
      [before, .function name gap body endGap .nil, passed, after]).occurrences := by
  have isFunction : (name, body) ∈ (Program.ofParts leading
      [before, passed, .function name gap body endGap .nil, after]).body.functions := by
    simp [Program.ofParts, Block.functions_append, Block.functions]
  rcases lawful.owner_of_function isFunction with ⟨notMain, owned⟩
  have passedOwned : ∀ occurrence ∈ passed.occurrences mainFunction,
      occurrence.owner = mainFunction := Names.owner_of_functions_eq_nil noFunction
  rw [Program.occurrences_ofParts] at lawful ⊢
  apply lawful.move
  · rw [Block.headers_occurrences, noFunction, List.map_nil]
  · intro owner used isUse isTarget
    have inMain : owner = mainFunction := passedOwned _ isTarget
    simp only [Block.occurrences, List.append_nil, List.mem_cons, Occurrence.mk.injEq,
      reduceCtorEq, and_false, false_or] at isUse
    exact notMain ((owned _ isUse).symm.trans inMain)

/-- A function that is moved up past statements without functions changes no line of C. -/
theorem lines_hoist (noFunction : passed.functions = []) :
    (Program.ofParts otherLeading
        [before, .function name gap body endGap .nil, passed, after]).lines =
      (Program.ofParts leading
        [before, passed, .function name gap body endGap .nil, after]).lines := by
  simp [Program.ofParts, Program.lines, Program.functionLines, Program.mainLines, Block.append,
    Block.lines_erase, Block.functions_append, Block.functions, Block.lines_append, Block.lines,
    noFunction]

theorem Lawful.reflects (lawful : Lawful program.occurrences) :
    program.names.Reflects program.occurrences :=
  Names.reflects_initial.recordAll ((lawful_iff_admits program.owned).mp lawful).1 program.owned

/-- Programs that do the same with names, in whatever order, declare the same names. -/
theorem summary_eq_of_perm (lawful : Lawful program.occurrences)
    (otherLawful : Lawful other.occurrences)
    (perm : program.occurrences.Perm other.occurrences) :
    program.artifact.summary = other.artifact.summary := by
  have headersPerm : (headers _).Perm (headers _) := perm.filterMap _
  have labelsPerm : (labels _).Perm (labels _) := perm.filterMap _
  have sameFunctions : program.names.functions = other.names.functions := by
    apply NameSet.eq_of_mem_iff
    intro function
    rw [lawful.reflects.functions, otherLawful.reflects.functions, headersPerm.mem_iff]
  have sameLabels : program.names.labels = other.names.labels := by
    apply NameSet.eq_of_mem_iff
    intro label
    rw [lawful.reflects.labels, otherLawful.reflects.labels, labelsPerm.mem_iff]
  simp only [Program.artifact, sameFunctions, sameLabels]

theorem artifact_hoist (noFunction : passed.functions = [])
    (lawful : Lawful (Program.ofParts leading
      [before, passed, .function name gap body endGap .nil, after]).occurrences) :
    (Program.ofParts otherLeading
        [before, .function name gap body endGap .nil, passed, after]).artifact =
      (Program.ofParts leading
        [before, passed, .function name gap body endGap .nil, after]).artifact := by
  apply congrArg₂ Artifact.mk
  · exact congrArg render (lines_hoist noFunction)
  · apply summary_eq_of_perm (lawful.hoist noFunction) lawful
    rw [Program.occurrences_ofParts, Program.occurrences_ofParts]
    exact perm_of_move _ _ _ _

end Parts

end Syntax

open Syntax

/-- A function can be declared further up: if a program is accepted in which a function is
declared behind statements that declare none, then so is the program in which it is declared in
front of them, and it compiles to the same C text, functions and labels. -/
theorem compile_hoist {source other : String} {artifact : Artifact}
    {leading otherLeading gap endGap : Nat} {name : String} {before passed body after : Block}
    (noFunction : passed.functions = [])
    (lexes : tokenize source = .ok (Program.ofParts leading
      [before, passed, .function name gap body endGap .nil, after]).tokens)
    (otherLexes : tokenize other = .ok (Program.ofParts otherLeading
      [before, .function name gap body endGap .nil, passed, after]).tokens)
    (compiles : compile source = .ok artifact) : compile other = .ok artifact := by
  rcases compile_eq_ok_iff.mp compiles with ⟨program, isTokens, lawful, rfl⟩
  obtain rfl := program_unique isTokens lexes
  apply compile_eq_ok_iff.mpr
  exact ⟨_, otherLexes, lawful.hoist noFunction, (artifact_hoist noFunction lawful).symm⟩

-- A function cannot be declared further down: the statements that it passes may call it.
example : (compile "fn f\nend\nf").isOk = true ∧ (compile "f\nfn f\nend").isOk = false := by
  decide +kernel

/-- A loop in front of a function.  Both have a variable of one name, and each jumps to a label
of the other:

```text
let x = 1
while (x > 2)
label a
goto b
end
fn f
let x = 3
label b
goto a
end
f
```
-/
def loopInFront : Program :=
  .ofParts 0
    [.action (.assign "x" (.ofNumber "1")) 0 .nil,
      .guarded .loop
        ⟨⟨⟨⟨⟨none, .reference "x"⟩, []⟩, []⟩, [(⟨.greater, rfl⟩, .ofNumber "2")]⟩, nofun⟩ 0
        (.action (.label "a") 0 (.action (.jump "b") 0 .nil)) 0 .nil,
      .function "f" 0 (.action (.assign "x" (.ofNumber "3")) 0
        (.action (.label "b") 0 (.action (.jump "a") 0 .nil))) 0 .nil,
      .action (.call "f") 0 .nil]

theorem compile_hoist_loopInFront :
    compile ("let x = 1\nwhile (x > 2)\nlabel a\ngoto b\nend\n" ++
        "fn f\nlet x = 3\nlabel b\ngoto a\nend\nf") = .ok loopInFront.artifact ∧
      compile ("let x = 1\nfn f\nlet x = 3\nlabel b\ngoto a\nend\n" ++
        "while (x > 2)\nlabel a\ngoto b\nend\nf") = .ok loopInFront.artifact := by
  have lexes : tokenize ("let x = 1\nwhile (x > 2)\nlabel a\ngoto b\nend\n" ++
      "fn f\nlet x = 3\nlabel b\ngoto a\nend\nf") = .ok loopInFront.tokens := by
    decide +kernel
  have compiles : compile ("let x = 1\nwhile (x > 2)\nlabel a\ngoto b\nend\n" ++
      "fn f\nlet x = 3\nlabel b\ngoto a\nend\nf") = .ok loopInFront.artifact := by
    decide +kernel
  have otherLexes : tokenize ("let x = 1\nfn f\nlet x = 3\nlabel b\ngoto a\nend\n" ++
      "while (x > 2)\nlabel a\ngoto b\nend\nf") =
        .ok (Program.ofParts 0
          [.action (.assign "x" (.ofNumber "1")) 0 .nil,
            .function "f" 0 (.action (.assign "x" (.ofNumber "3")) 0
              (.action (.label "b") 0 (.action (.jump "a") 0 .nil))) 0 .nil,
            .guarded .loop
              ⟨⟨⟨⟨⟨none, .reference "x"⟩, []⟩, []⟩, [(⟨.greater, rfl⟩, .ofNumber "2")]⟩, nofun⟩ 0
              (.action (.label "a") 0 (.action (.jump "b") 0 .nil)) 0 .nil,
            .action (.call "f") 0 .nil]).tokens := by
    decide +kernel
  exact ⟨compiles, compile_hoist rfl lexes otherLexes compiles⟩

end TeenyC
