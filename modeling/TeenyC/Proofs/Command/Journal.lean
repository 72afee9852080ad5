import TeenyC.Command.World
import TeenyC.Proofs.Command.Perform

/-!
# Runs with a journal

A modelled system that keeps a journal of the programs it was asked to run.  The command runs on
it as on any host, and as on the system without the journal; the journal then tells which
programs the run has invoked, also where the run fails in the end.
-/

namespace TeenyC

/-- A modelled system with a journal. -/
structure Journal where
  world : World
  /-- The programs that were invoked, each with its arguments, the last one at the end. -/
  invocations : List (String × List String) := []

namespace Journal

variable {α β ε : Type}

/-- Act on the system without an entry in the journal. -/
def silently (action : StateM World α) : StateM Journal α := fun journal =>
  ((action.run journal.world).1, { journal with world := (action.run journal.world).2 })

instance : Host (StateM Journal) where
  readFile path := silently (Host.readFile path)
  readInput := silently Host.readInput
  filesBelow root selects := silently (Host.filesBelow root selects)
  makeDirectories path := silently (Host.makeDirectories path)
  writeFile path text := silently (Host.writeFile path text)
  invoke program arguments := do
    modify fun journal =>
      { journal with invocations := journal.invocations ++ [(program, arguments)] }
    silently (Host.invoke program arguments)
  note text := silently (Host.note text)

/-- Run the command with a journal that is empty at first. -/
def run (world : World) (options : Options) : Except Failure Unit × Journal :=
  Command.perform ⟨world, []⟩ (Command.run options)

/-! ## Tasks -/

/-- The first task does with the journal what the second does without it, and all that it enters
into the journal is allowed. -/
structure Follows (allowed : String × List String → Prop) (journal : Journal)
    (recorded : Command.Task (StateM Journal) α) (task : Command.Task (StateM World) α) :
    Prop where
  same : ((Command.perform journal recorded).1, (Command.perform journal recorded).2.world) =
    Command.perform journal.world task
  entries : ∀ entry ∈ (Command.perform journal recorded).2.invocations,
    entry ∈ journal.invocations ∨ allowed entry

variable {allowed : String × List String → Prop} {journal : Journal}
  {recorded : Command.Task (StateM Journal) α} {task : Command.Task (StateM World) α}

theorem Follows.bind {recordedNext : α → Command.Task (StateM Journal) β}
    {next : α → Command.Task (StateM World) β} (first : Follows allowed journal recorded task)
    (rest : ∀ (value : α) (middle : Journal),
      Command.perform journal.world task = (.ok value, middle.world) →
        Follows allowed middle (recordedNext value) (next value)) :
    Follows allowed journal (recorded >>= recordedNext) (task >>= next) := by
  have sameFirst := first.same
  have entriesFirst := first.entries
  rcases ran : Command.perform journal recorded with ⟨failure | value, middle⟩
  · rw [ran] at sameFirst entriesFirst
    constructor
    · rw [Command.perform_bind_of_error ran, Command.perform_bind_of_error sameFirst.symm]
    · rw [Command.perform_bind_of_error ran]
      exact entriesFirst
  · rw [ran] at sameFirst entriesFirst
    have next := rest value middle sameFirst.symm
    constructor
    · rw [Command.perform_bind_of_ok ran, Command.perform_bind_of_ok sameFirst.symm]
      exact next.same
    · rw [Command.perform_bind_of_ok ran]
      intro entry isEntry
      rcases next.entries entry isEntry with isEarlier | isAllowed
      · exact entriesFirst entry isEarlier
      · exact .inr isAllowed

/-- A task that enters nothing leaves an empty journal empty. -/
theorem Follows.perform_eq {world : World}
    (follows : Follows (fun _ => False) ⟨world, []⟩ recorded task) :
    Command.perform ⟨world, []⟩ recorded =
      ((Command.perform world task).1, ⟨(Command.perform world task).2, []⟩) := by
  have isEmpty : (Command.perform ⟨world, []⟩ recorded).2.invocations = [] := by
    apply List.eq_nil_iff_forall_not_mem.mpr
    intro entry isEntry
    rcases follows.entries entry isEntry with isEarlier | never
    · cases isEarlier
    · exact never
  have same := follows.same
  rcases ran : Command.perform (⟨world, []⟩ : Journal) recorded with ⟨result, after, invocations⟩
  rw [ran] at isEmpty same
  dsimp only at isEmpty same
  rw [isEmpty, ← same]

theorem follows_pure (value : α) : Follows allowed journal (pure value) (pure value) :=
  ⟨rfl, fun _ => .inl⟩

theorem follows_throw (failure : Failure) :
    Follows allowed journal (throw failure : Command.Task _ α) (throw failure) :=
  ⟨rfl, fun _ => .inl⟩

theorem follows_silently (failure : ε → Failure) (action : StateM World (Except ε α)) :
    Follows allowed journal (Command.attempt failure (silently action))
      (Command.attempt failure action) :=
  ⟨rfl, fun _ => .inl⟩

theorem follows_attempt_pure (failure : ε → Failure) (result : Except ε α) :
    Follows allowed journal (Command.attempt failure (pure result))
      (Command.attempt failure (pure result)) :=
  ⟨rfl, fun _ => .inl⟩

theorem follows_note (text : String) :
    Follows allowed journal (liftM (Host.note text : StateM Journal Unit))
      (liftM (Host.note text : StateM World Unit)) :=
  ⟨rfl, fun _ => .inl⟩

/-- An invocation is entered into the journal. -/
theorem follows_invoke (failure : IoError → Failure) {program : String} {arguments : List String}
    (isAllowed : allowed (program, arguments)) :
    Follows allowed journal
      (Command.attempt failure (Host.invoke (m := StateM Journal) program arguments))
      (Command.attempt failure (Host.invoke (m := StateM World) program arguments)) := by
  constructor
  · rfl
  · intro entry isEntry
    rcases List.mem_append.mp isEntry with isEarlier | isLast
    · exact .inl isEarlier
    · rw [List.mem_singleton.mp isLast]
      exact .inr isAllowed

theorem follows_forM {values : List α} {recorded : α → Command.Task (StateM Journal) PUnit}
    {task : α → Command.Task (StateM World) PUnit}
    (each : ∀ value ∈ values, ∀ journal, Follows allowed journal (recorded value) (task value))
    (journal : Journal) : Follows allowed journal (values.forM recorded) (values.forM task) := by
  induction values generalizing journal with
  | nil => exact follows_pure _
  | cons value rest inductionHypothesis =>
      rcases List.forall_mem_cons.mp each with ⟨first, others⟩
      exact (first journal).bind fun _ middle _ => inductionHypothesis others middle

/-! ## The tasks of a run -/

section Tasks

variable (options : Options)

theorem follows_progress (text : String) :
    Follows allowed journal (Command.progress options text) (Command.progress options text) := by
  unfold Command.progress
  split
  · exact follows_note text
  · exact follows_pure ()

theorem follows_readSources (directory : Path) :
    Follows allowed journal (Command.readSources directory) (Command.readSources directory) := by
  apply (follows_silently _ _).bind
  intro found middle _
  apply (follows_attempt_pure _ _).bind
  intro sources middle _
  dsimp only
  split
  · exact (follows_throw _).bind fun _ _ _ => follows_pure sources
  · exact follows_pure sources

theorem follows_writeOutput (path : Path) (text : String) :
    Follows allowed journal (Command.writeOutput path text) (Command.writeOutput path text) := by
  unfold Command.writeOutput
  split
  · split
    · exact (follows_silently _ _).bind fun _ _ _ => follows_silently _ _
    · exact follows_silently _ _
  · exact follows_silently _ _

/-- The one task that invokes a program. -/
theorem follows_buildOutput {output : Path}
    (isAllowed : ∀ compiler, options.compiler = some compiler → options.format = "c" →
      allowed (compiler, [output.text, "-o", output.executable.text])) :
    Follows allowed journal (Command.buildOutput options output)
      (Command.buildOutput options output) := by
  unfold Command.buildOutput
  split
  · exact follows_pure _
  · next compiler isCompiler =>
      split
      · exact follows_note _
      · next isC =>
          apply (follows_invoke _ (isAllowed compiler isCompiler (by simpa using isC))).bind
          intro code middle _
          split
          · exact (follows_throw _).bind fun _ _ _ => follows_progress options _
          · exact follows_progress options _

end Tasks

end Journal

end TeenyC
