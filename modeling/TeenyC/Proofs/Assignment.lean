import TeenyC.Proofs.Compile.Program
import TeenyC.Proofs.Syntax.Body

/-!
# Reading variables before they are assigned

A variable can be read once it has been a target of `let` or `input` in its function.  The
target of a `let` counts from the moment it is met, which is before the expression after it:
`let x = x + 1` is accepted where `x` has no value yet.  This is the only way to read a
variable that no complete statement has assigned.
-/

namespace TeenyC.Syntax

/-! ## Steps of a program -/

/-- A part of a program that is read in one go: a whole action, or what stands before the
statements of a block or of a function. -/
inductive Step where
  | action (statement : Action)
  | test (condition : Comparison)
  | header (name : String)

namespace Step

/-- The variables in the expressions of a step. -/
def reads : Step → List String
  | action (.printValue value) => Phrase.reads value
  | action (.assign _ value) => Phrase.reads value
  | action _ => []
  | test condition => Phrase.reads condition
  | header _ => []

/-- The variables that have been assigned when a step is complete. -/
def assigns : Step → List String
  | action statement => statement.targets
  | test _ | header _ => []

/-- What a step does with names, in the order of its tokens. -/
def events : Step → List Event
  | action statement => statement.events
  | test condition => (Phrase.reads condition).map .use
  | header name => [.header name]

theorem use_mem_events_iff {step : Step} {name : String} :
    .use name ∈ step.events ↔ name ∈ step.reads := by
  cases step with
  | action statement => cases statement <;> simp [events, reads, Action.events]
  | test condition => simp [events, reads]
  | header other => simp [events, reads]

theorem target_mem_events_iff {step : Step} {name : String} :
    .target name ∈ step.events ↔ name ∈ step.assigns := by
  cases step with
  | action statement => cases statement <;> simp [events, assigns, Action.events, Action.targets]
  | test condition => simp [events, assigns]
  | header other => simp [events, assigns]

/-- Only `let` both reads and assigns. -/
theorem eq_assign {step : Step} {name : String} (isRead : name ∈ step.reads)
    (isAssigned : name ∈ step.assigns) : ∃ value, step = .action (.assign name value) := by
  cases step with
  | test | header => contradiction
  | action statement =>
      cases statement with
      | assign target value =>
          rw [List.mem_singleton.mp isAssigned]
          exact ⟨value, rfl⟩
      | printText | printValue | call | label | jump | input => contradiction

end Step

/-- The steps of statements in the order of the source, each with the function that it is
in. -/
def Block.steps (owner : String) : Block → List (String × Step)
  | nil => []
  | action statement _ rest => (owner, .action statement) :: rest.steps owner
  | function name _ body _ rest =>
    (owner, .header name) :: (body.steps name ++ rest.steps owner)
  | guarded _ condition _ body _ rest =>
    (owner, .test condition) :: (body.steps owner ++ rest.steps owner)

/-- The steps of a program.  Those outside all functions are in `main`. -/
def Program.steps (program : Program) : List (String × Step) :=
  program.body.steps mainFunction

/-- What steps do with names. -/
def eventsOfSteps (steps : List (String × Step)) : List Occurrence :=
  steps.flatMap fun step => within step.1 step.2.events

theorem Block.occurrences_eq (owner : String) (block : Block) :
    block.occurrences owner = eventsOfSteps (block.steps owner) := by
  induction block generalizing owner with
  | nil => rfl
  | action statement gap rest inductionHypothesis =>
      rw [occurrences, inductionHypothesis]
      rfl
  | function name gap body endGap rest bodyHypothesis restHypothesis =>
      rw [occurrences, bodyHypothesis, restHypothesis, eventsOfSteps, eventsOfSteps,
        ← List.flatMap_append]
      rfl
  | guarded guard condition gap body endGap rest bodyHypothesis restHypothesis =>
      rw [occurrences, bodyHypothesis, restHypothesis, eventsOfSteps, eventsOfSteps,
        ← List.flatMap_append]
      rfl

/-! ## Variables that have been assigned -/

/-- One of the steps assigns a variable of a function. -/
def Assigned (steps : List (String × Step)) (owner name : String) : Prop :=
  ∃ step ∈ steps, step.1 = owner ∧ name ∈ step.2.assigns

/-- Whatever is read has been assigned in the same function by an earlier step. -/
def AssignedFirst (steps : List (String × Step)) : Prop :=
  ∀ ⦃before after : List (String × Step)⦄ ⦃owner : String⦄ ⦃step : Step⦄,
    steps = before ++ (owner, step) :: after → ∀ name ∈ step.reads, Assigned before owner name

/-- No variable is read in the statement that is the first to assign it. -/
def FreshStarts (steps : List (String × Step)) : Prop :=
  ∀ ⦃before after : List (String × Step)⦄ ⦃owner name : String⦄ ⦃value : Expression⦄,
    steps = before ++ (owner, .action (.assign name value)) :: after →
      name ∈ Phrase.reads value → Assigned before owner name

theorem target_mem_eventsOfSteps_iff {steps : List (String × Step)} {owner name : String} :
    ⟨owner, .target name⟩ ∈ eventsOfSteps steps ↔ Assigned steps owner name := by
  simp only [eventsOfSteps, List.mem_flatMap, mem_within_iff, Step.target_mem_events_iff, Assigned,
    eq_comm]

section Lawful

variable {program : Program} {before after : List (String × Step)} {owner name : String}
  {step : Step}

/-- What a lawful program reads has been assigned, or is just about to be. -/
theorem Lawful.assigned_or_assigning (lawful : Lawful program.occurrences)
    (split : program.steps = before ++ (owner, step) :: after) (isRead : name ∈ step.reads) :
    Assigned before owner name ∨ ∃ value, step = .action (.assign name value) := by
  obtain ⟨earlier, later, events⟩ := List.append_of_mem (Step.use_mem_events_iff.mpr isRead)
  have occurrences : program.occurrences =
      (eventsOfSteps before ++ within owner earlier) ++ ⟨owner, .use name⟩ ::
        (within owner later ++ eventsOfSteps after) := by
    rw [Program.occurrences, Block.occurrences_eq, ← Program.steps, split]
    simp [eventsOfSteps, events, within]
  rcases List.mem_append.mp (lawful.usesDeclared occurrences) with isBefore | isHere
  · exact .inl (target_mem_eventsOfSteps_iff.mp isBefore)
  · right
    apply Step.eq_assign isRead
    rw [← Step.target_mem_events_iff, events]
    exact List.mem_append_left _ (mem_within_iff.mp isHere).2

theorem Lawful.assignedFirst_iff (lawful : Lawful program.occurrences) :
    AssignedFirst program.steps ↔ FreshStarts program.steps := by
  constructor
  · intro assigned before after owner name value split isRead
    exact assigned split name isRead
  · intro fresh before after owner step split name isRead
    rcases lawful.assigned_or_assigning split isRead with isAssigned | ⟨value, rfl⟩
    · exact isAssigned
    · exact fresh split isRead

end Lawful

/-- Whatever an accepted program reads has been assigned in the same function by an earlier
complete statement, or is the target of the `let` that reads it.  So nothing is read before
it is assigned exactly when no variable is read in its first assignment. -/
theorem compile_assignedFirst_iff {source : String} {artifact : Artifact} {program : Program}
    (compiles : compile source = .ok artifact) (tokens : tokenize source = .ok program.tokens) :
    (∀ before after owner step, program.steps = before ++ (owner, step) :: after →
      ∀ name ∈ step.reads,
        Assigned before owner name ∨ ∃ value, step = .action (.assign name value)) ∧
      (AssignedFirst program.steps ↔ FreshStarts program.steps) := by
  rcases compile_eq_ok_iff.mp compiles with ⟨other, otherTokens, lawful, rfl⟩
  have same := program_unique otherTokens tokens
  subst same
  refine ⟨?_, lawful.assignedFirst_iff⟩
  intro before after owner step split name isRead
  exact lawful.assigned_or_assigning split isRead

/-- The program `let x = x + 1`. -/
def selfStart : Program where
  leading := 0
  body :=
    .action (.assign "x"
      ⟨⟨⟨none, .reference "x"⟩, []⟩, [(⟨.plus, rfl⟩, ⟨⟨none, .number "1"⟩, []⟩)]⟩) 0 .nil

/-- An accepted program can read a variable that has not been assigned. -/
theorem compile_reads_unassigned :
    compile "let x = x + 1" = .ok ⟨render selfStart.lines, ⟨[], []⟩⟩ ∧
      tokenize "let x = x + 1" = .ok selfStart.tokens ∧ ¬ AssignedFirst selfStart.steps := by
  refine ⟨by decide +kernel, by decide +kernel, ?_⟩
  intro assigned
  obtain ⟨step, isIn, _⟩ := @assigned [] [] _ _ rfl "x" (by decide +kernel)
  contradiction

theorem compile_assignedFirst_iff_selfStart :
    (∀ before after owner step, selfStart.steps = before ++ (owner, step) :: after →
      ∀ name ∈ step.reads,
        Assigned before owner name ∨ ∃ value, step = .action (.assign name value)) ∧
      (AssignedFirst selfStart.steps ↔ FreshStarts selfStart.steps) := by
  have compiles :
      compile "let x = x + 1" =
        .ok ⟨"#include <stdio.h>\nint main() \x7b\nfloat x;\nx = x + 1;\nreturn 0;\n\x7d\n",
          ⟨[], []⟩⟩ := by
    decide +kernel
  have tokens : tokenize "let x = x + 1" = .ok selfStart.tokens := by
    decide +kernel
  exact compile_assignedFirst_iff compiles tokens

end TeenyC.Syntax
