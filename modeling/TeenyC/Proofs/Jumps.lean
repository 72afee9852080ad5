import Mathlib.Data.List.Flatten
import TeenyC.Proofs.Compile.Program
import TeenyC.Proofs.Syntax.Placement

/-!
# Jumps and the functions of the C text

Labels belong to the program and not to one of its functions: a label is declared once, and
a jump to it may stand anywhere.  In C a jump cannot leave its function.  The generator
writes a jump and its label into the functions whose bodies they stand in, so the jumps of
the C text stay in their functions exactly when those of the program do.
-/

namespace TeenyC.Syntax

/-! ## One line for each label -/

theorem count_label_lines (lines : List Line) (name : String) :
    lines.count (.label name) = (lines.filterMap Line.event?).count (.label name) := by
  rw [List.count_filterMap, List.count]
  congr 1
  funext line
  apply Bool.eq_iff_iff.mpr
  cases line <;> simp [Line.event?]

theorem count_labels (occurrences : List Occurrence) (name : String) :
    (labels occurrences).count name =
      (occurrences.map Occurrence.event).count (.label name) := by
  rw [labels, List.count_filterMap, List.count, List.countP_map]
  congr 1
  funext occurrence
  rcases occurrence with ⟨owner, event⟩
  apply Bool.eq_iff_iff.mpr
  cases event <;> simp

theorem mem_labels_iff {occurrences : List Occurrence} {name : String} :
    name ∈ labels occurrences ↔ ∃ owner, ⟨owner, .label name⟩ ∈ occurrences := by
  simp only [labels, List.mem_filterMap]
  constructor
  · rintro ⟨⟨owner, event⟩, isIn, picked⟩
    cases event <;> simp at picked
    exact ⟨owner, picked ▸ isIn⟩
  · rintro ⟨owner, isIn⟩
    exact ⟨_, isIn, rfl⟩

theorem mem_jumps {occurrences : List Occurrence} {owner name : String}
    (isIn : ⟨owner, .jump name⟩ ∈ occurrences) : name ∈ jumps occurrences :=
  List.mem_filterMap.mpr ⟨_, isIn, rfl⟩

/-- No label has two lines, as none is declared twice. -/
theorem Lawful.count_label_le_one {program : Program} (lawful : Lawful program.occurrences)
    (name : String) : program.lines.count (.label name) ≤ 1 := by
  have events : (eventsOfBodies program.bodies).map Occurrence.event =
      program.bodies.flatMap fun function => function.2.events := by
    simp [eventsOfBodies, List.map_flatMap, within, Function.comp_def]
  calc program.lines.count (.label name)
      = (program.bodies.flatMap fun function => announced [] function.2.events).count
          (.label name) := by rw [count_label_lines, Program.events_lines]
    _ ≤ (program.bodies.flatMap fun function => function.2.events).count (.label name) :=
        List.Sublist.count_le _
          (List.Sublist.flatMap_right _ fun function _ => announced_sublist [] function.2.events)
    _ = (program.occurrences.map Occurrence.event).count (.label name) := by
        rw [← events]
        exact ((program.occurrences_perm.map _).count_eq _).symm
    _ = (labels program.occurrences).count name := (count_labels _ _).symm
    _ ≤ 1 := List.nodup_iff_count.mp lawful.labelsDistinct name

/-! ## Jumps that stay -/

/-- Every jump of the C text is in the same function of the C text as the label that it
leads to. -/
def JumpsStay (lines : List Line) : Prop :=
  ∀ ⦃place : Option String⦄ ⦃name : String⦄,
    (place, .jump name) ∈ placed [] lines → (place, .label name) ∈ placed [] lines

/-- Every jump of a program is in the same function as the label that it leads to. -/
def Program.JumpsStay (program : Program) : Prop :=
  ∀ ⦃function name : String⦄,
    ⟨function, .jump name⟩ ∈ program.occurrences → ⟨function, .label name⟩ ∈ program.occurrences

section Jumps

variable {program : Program} {place : Option String} {function name : String}

theorem Program.jump_placed_iff :
    (some function, .jump name) ∈ placed [] program.lines ↔
      ⟨function, .jump name⟩ ∈ program.occurrences :=
  mem_placed_iff_mem_occurrences rfl rfl

theorem Program.label_placed_iff :
    (some function, .label name) ∈ placed [] program.lines ↔
      ⟨function, .label name⟩ ∈ program.occurrences :=
  mem_placed_iff_mem_occurrences rfl rfl

/-- A jump of the C text is in a function. -/
theorem Program.exists_function_of_jump (isIn : (place, .jump name) ∈ placed [] program.lines) :
    ∃ function, place = some function := by
  cases place with
  | some function => exact ⟨function, rfl⟩
  | none => cases event?_outside isIn

theorem Program.jumpsStay_lines_iff : Syntax.JumpsStay program.lines ↔ program.JumpsStay := by
  constructor
  · intro stay function name isIn
    exact label_placed_iff.mp (stay (jump_placed_iff.mpr isIn))
  · intro stay place name isIn
    obtain ⟨function, rfl⟩ := exists_function_of_jump isIn
    exact label_placed_iff.mpr (stay (jump_placed_iff.mp isIn))

/-- A label that is declared has a line in the C text. -/
theorem Program.label_mem_lines (declared : ⟨function, .label name⟩ ∈ program.occurrences) :
    .label name ∈ program.lines := by
  have isSecond := List.mem_map_of_mem (f := Prod.snd) (label_placed_iff.mpr declared)
  rwa [map_placed] at isSecond

/-- A jump leads to a label that has one line in the C text, in one of the functions. -/
theorem Lawful.exists_label_placed (lawful : Lawful program.occurrences)
    (isIn : ⟨function, .jump name⟩ ∈ program.occurrences) :
    program.lines.count (.label name) = 1 ∧
      ∃ home, (some home, .label name) ∈ placed [] program.lines ∧
        ⟨home, .label name⟩ ∈ program.occurrences := by
  obtain ⟨home, declared⟩ := mem_labels_iff.mp (lawful.jumpsDeclared (mem_jumps isIn))
  have hasLine := Program.label_mem_lines declared
  exact ⟨Nat.le_antisymm (lawful.count_label_le_one name) (List.count_pos_iff.mpr hasLine), home,
    Program.label_placed_iff.mpr declared, declared⟩

end Jumps

/-- A label that is jumped to has exactly one line in the C text.  The jump and the label are
in the functions of the C text that they are in in the program, so that all jumps of the C
text stay in their functions exactly when those of the program do. -/
theorem compile_jumps_lead_to_one_label {source : String} {artifact : Artifact}
    {program : Program} (compiles : compile source = .ok artifact)
    (tokens : tokenize source = .ok program.tokens) :
    artifact.text = render program.lines ∧
      (∀ place name, (place, .jump name) ∈ placed [] program.lines →
        program.lines.count (.label name) = 1 ∧
          ∃ function home, place = some function ∧
            ⟨function, .jump name⟩ ∈ program.occurrences ∧
            (some home, .label name) ∈ placed [] program.lines ∧
            ⟨home, .label name⟩ ∈ program.occurrences) ∧
      (JumpsStay program.lines ↔ program.JumpsStay) := by
  rcases compile_eq_ok_iff.mp compiles with ⟨other, otherTokens, lawful, rfl⟩
  have same := program_unique otherTokens tokens
  subst same
  refine ⟨rfl, ?_, Program.jumpsStay_lines_iff⟩
  intro place name isIn
  obtain ⟨function, rfl⟩ := Program.exists_function_of_jump isIn
  have jumps := Program.jump_placed_iff.mp isIn
  obtain ⟨one, home, labelPlaced, declared⟩ := lawful.exists_label_placed jumps
  exact ⟨one, function, home, rfl, jumps, labelPlaced, declared⟩

/-- A program that jumps out of a function:

```text
fn f
label a
end
goto a
```
-/
def crossingJump : Program where
  leading := 0
  body := .function "f" 0 (.action (.label "a") 0 .nil) 0 (.action (.jump "a") 0 .nil)

/-- A jump of the C text of an accepted program can leave its function. -/
theorem compile_jump_crosses :
    compile "fn f\nlabel a\nend\ngoto a" = .ok ⟨render crossingJump.lines, ⟨["f"], ["a"]⟩⟩ ∧
      tokenize "fn f\nlabel a\nend\ngoto a" = .ok crossingJump.tokens ∧
      ¬ JumpsStay crossingJump.lines := by
  refine ⟨by decide +kernel, by decide +kernel, ?_⟩
  intro stay
  have jumps : (some "main", .jump "a") ∈ placed [] crossingJump.lines := by decide +kernel
  have notHere : ¬ (some "main", .label "a") ∈ placed [] crossingJump.lines := by decide +kernel
  exact notHere (stay jumps)

theorem compile_jumps_lead_to_one_label_crossing :
    (some "main", .jump "a") ∈ placed [] crossingJump.lines ∧
      crossingJump.lines.count (.label "a") = 1 ∧
        ∃ function home, some "main" = some function ∧
          ⟨function, .jump "a"⟩ ∈ crossingJump.occurrences ∧
          (some home, .label "a") ∈ placed [] crossingJump.lines ∧
          ⟨home, .label "a"⟩ ∈ crossingJump.occurrences := by
  have compiles :
      compile "fn f\nlabel a\nend\ngoto a" =
        .ok ⟨"#include <stdio.h>\nvoid f() \x7b\na:;\n\x7d\n" ++
          "int main() \x7b\ngoto a;\nreturn 0;\n\x7d\n", ⟨["f"], ["a"]⟩⟩ := by
    decide +kernel
  have tokens : tokenize "fn f\nlabel a\nend\ngoto a" = .ok crossingJump.tokens := by
    decide +kernel
  have jumps : (some "main", .jump "a") ∈ placed [] crossingJump.lines := by decide +kernel
  exact ⟨jumps, (compile_jumps_lead_to_one_label compiles tokens).2.1 _ _ jumps⟩

end TeenyC.Syntax
