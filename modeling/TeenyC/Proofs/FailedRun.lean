import Mathlib
import TeenyC.Proofs.Command.Task
import TeenyC.Proofs.SourceOrder

/-!
# Runs that fail before they write

A run of the command reads and renders everything before it writes anything.  So a run that
cannot read or render leaves the system as it was: `run_failing_before_writing`.  Of several
programs of a directory that cannot be rendered it reports the one whose path comes first.

Tasks are sorted by when they fail.  A quiet task changes nothing, a late one fails only with
failures of writing and building, and a quiet task in front of a late one is careful: where it
fails before writing, it has changed nothing.
-/

namespace TeenyC

/-- The failures that are met before anything is written. -/
def Failure.precedesWriting : Failure → Bool
  | readFile .. | readInput .. | render .. | search .. | noSources .. => true
  | makeDirectories .. | writeFile .. | invoke .. | build .. => false

namespace Command

section Kinds

variable {α β : Type}

/-- The task changes nothing. -/
def Quiet (task : Task (StateM World) α) : Prop :=
  ∀ world : World, (perform world task).2 = world

/-- The task does not fail for a reason that precedes writing. -/
def Late (task : Task (StateM World) α) : Prop :=
  ∀ (world : World) (failure : Failure), (perform world task).1 = .error failure →
    failure.precedesWriting = false

/-- Where the task fails for a reason that precedes writing, it has changed nothing. -/
def Careful (task : Task (StateM World) α) : Prop :=
  ∀ (world : World) (failure : Failure), (perform world task).1 = .error failure →
    failure.precedesWriting = true → (perform world task).2 = world

variable {task : Task (StateM World) α} {next : α → Task (StateM World) β}

theorem Late.careful (late : Late task) : Careful task := by
  intro world failure fails early
  rw [late world failure fails] at early
  cases early

theorem Late.bind (first : Late task) (rest : ∀ value, Late (next value)) :
    Late (task >>= next) := by
  intro world failure fails
  rcases ran : perform world task with ⟨firstFailure | value, middle⟩
  · rw [perform_bind_of_error ran] at fails
    rw [← Except.error.inj fails]
    exact first world firstFailure (congrArg Prod.fst ran)
  · rw [perform_bind_of_ok ran] at fails
    exact rest value middle failure fails

theorem Quiet.andThen (quiet : Quiet task) (rest : ∀ value, Careful (next value)) :
    Careful (task >>= next) := by
  intro world failure
  rcases ran : perform world task with ⟨firstFailure | value, middle⟩
  · rw [perform_bind_of_error ran]
    intro _ _
    rw [← quiet world, ran]
  · obtain rfl : world = middle := by rw [← quiet world, ran]
    rw [perform_bind_of_ok ran]
    exact rest value world failure

/-- A task that succeeds everywhere. -/
theorem late_of_ok {result : World → α} {after : World → World}
    (succeeds : ∀ world : World, perform world task = (.ok (result world), after world)) :
    Late task := by
  intro world failure fails
  rw [succeeds] at fails
  cases fails

theorem late_pure (value : α) : Late (pure value : Task (StateM World) α) :=
  late_of_ok fun world => perform_pure world value

theorem late_attempt {ε : Type} {failure : ε → Failure} {action : StateM World (Except ε α)}
    (isLate : ∀ error, (failure error).precedesWriting = false) :
    Late (attempt failure action) := by
  intro world found fails
  rw [perform_attempt] at fails
  cases ran : (action.run world).1 with
  | error error =>
      rw [ran] at fails
      rw [← Except.error.inj fails]
      exact isLate error
  | ok value =>
      rw [ran] at fails
      cases fails

theorem Late.forM {values : List α} {task : α → Task (StateM World) PUnit}
    (each : ∀ value, Late (task value)) : Late (values.forM task) := by
  induction values with
  | nil => exact late_pure _
  | cons value rest inductionHypothesis =>
      exact (each value).bind fun _ => inductionHypothesis

end Kinds

/-! ## The tasks of a run -/

section Tasks

variable (options : Options)

theorem quiet_readSource : Quiet (readSource options) := by
  intro world
  rw [World.perform_readSource]

theorem quiet_readSources (directory : Path) : Quiet (readSources directory) := by
  intro world
  rw [World.perform_readSources]

theorem quiet_attempt_pure {α ε : Type} (failure : ε → Failure) (result : Except ε α) :
    Quiet (attempt failure (pure result)) := fun _ => rfl

theorem late_note (text : String) :
    Late (liftM (Host.note (m := StateM World) text) : Task (StateM World) Unit) :=
  late_of_ok fun world => World.perform_note world text

theorem late_progress (text : String) : Late (progress options text) := by
  unfold progress
  split
  · exact late_note text
  · exact late_pure ()

theorem late_writeOutput (path : Path) (text : String) : Late (writeOutput path text) := by
  have written : Late (attempt (.writeFile path) (Host.writeFile path text)) :=
    late_attempt fun _ => rfl
  unfold writeOutput
  split
  · next above _ =>
      split
      · refine Late.bind ?_ fun _ => written
        exact late_attempt fun _ => rfl
      · exact written
  · exact written

theorem late_buildOutput (output : Path) : Late (buildOutput options output) := by
  unfold buildOutput
  split
  · exact late_pure _
  · next compiler _ =>
      split
      · exact late_note _
      · refine Late.bind (late_attempt fun _ => rfl) fun code => ?_
        split
        · rintro world failure ⟨⟩
          rfl
        · exact late_progress options _

theorem late_writeRendered (output : Path × String) : Late (writeRendered options output) := by
  refine Late.bind (late_writeOutput _ _) fun _ => ?_
  refine Late.bind (late_progress _ _) fun _ => ?_
  exact late_buildOutput _ _

theorem careful_runFile : Careful (runFile options) := by
  refine Quiet.andThen (quiet_readSource _) fun source => ?_
  refine Quiet.andThen (quiet_attempt_pure _ _) fun text => Late.careful ?_
  refine Late.bind (late_writeOutput _ _) fun _ => ?_
  refine Late.bind (late_progress _ _) fun _ => ?_
  exact late_buildOutput _ _

theorem careful_runDirectory (directory : Path) : Careful (runDirectory options directory) := by
  refine Quiet.andThen (quiet_readSources _) fun sources => ?_
  refine Quiet.andThen (quiet_attempt_pure _ _) fun outputs => Late.careful ?_
  refine Late.bind (Late.forM (late_writeRendered _)) fun _ => ?_
  exact late_progress _ _

theorem careful_run : Careful (run options) := by
  unfold run
  split
  · exact careful_runDirectory options _
  · exact careful_runFile options

end Tasks

/-! ## What a failing run reports -/

variable {options : Options} {directory : String} {sources before after : List SourceFile}
  {first : SourceFile} {world : World}

theorem renderSource_of_ok {source : SourceFile} {text : String}
    (renders : render source.contents options.format = .ok text) :
    ∃ output, renderSource options source = .ok output := by
  rw [renderSource, renders]
  exact ⟨_, rfl⟩

theorem renderSource_of_error {source : SourceFile} {error : RenderError}
    (fails : render source.contents options.format = .error error) :
    renderSource options source = .error (.render source.path.text error) := by
  rw [renderSource, fails]
  rfl

/-- A run on a file whose source text cannot be read, or not be rendered. -/
theorem run_of_inputText_error {failure : Failure} (isFile : options.inputDirectory = none)
    (fails : world.inputText options = .error failure) :
    world.run options = (.error failure, world) := by
  have read := World.perform_readSource world options
  rw [fails] at read
  rw [World.run_eq_perform, run, isFile]
  exact perform_bind_of_error read _

theorem run_of_render_error {source : String} {error : RenderError}
    (isFile : options.inputDirectory = none) (isText : world.inputText options = .ok source)
    (fails : render source options.format = .error error) :
    world.run options =
      (.error (.render (options.input.getD "<stdin>") error), world) := by
  have read := World.perform_readSource world options
  rw [isText] at read
  rw [World.run_eq_perform, run, isFile]
  refine (perform_bind_of_ok read _).trans ?_
  refine perform_bind_of_error ?_ _
  rw [perform_attempt_pure, fails]
  rfl

/-- A run on a directory that cannot be searched, or holds no program. -/
theorem run_of_programsIn_error {failure : Failure}
    (isDirectory : options.inputDirectory = some directory)
    (fails : World.programsIn (.ofString directory)
      (world.files.sources (.ofString directory)) = .error failure) :
    world.run options = (.error failure, world) := by
  have read := World.perform_readSources world (.ofString directory)
  rw [fails] at read
  rw [World.run_eq_perform, run, isDirectory]
  exact perform_bind_of_error read _

/-- A run on a directory reports the first program that cannot be rendered. -/
theorem run_of_first_error {error : RenderError}
    (isDirectory : options.inputDirectory = some directory)
    (found : world.files.sources (.ofString directory) = .ok (before ++ first :: after))
    (renders : ∀ earlier ∈ before, ∃ text, render earlier.contents options.format = .ok text)
    (fails : render first.contents options.format = .error error) :
    world.run options = (.error (.render first.path.text error), world) := by
  have read := World.perform_readSources world (.ofString directory)
  have programs : World.programsIn (.ofString directory) (.ok (before ++ first :: after)) =
      .ok (before ++ first :: after) := by
    cases before <;> rfl
  rw [found, programs] at read
  have mapped : (before ++ first :: after).mapM (renderSource options) =
      .error (.render first.path.text error) := by
    refine mapM_of_first_error ?_ (renderSource_of_error fails)
    intro earlier isIn
    obtain ⟨text, isText⟩ := renders earlier isIn
    exact renderSource_of_ok isText
  rw [World.run_eq_perform, run, isDirectory]
  refine (perform_bind_of_ok read _).trans ?_
  refine perform_bind_of_error ?_ _
  rw [perform_attempt_pure, mapped]
  rfl

end Command

open Command in
/-- A run that fails while it reads or renders leaves the whole system as it was: files, input,
output and notes.  It fails so whenever its source text cannot be read or rendered; and when its
directory cannot be searched, holds no program or holds one that cannot be rendered.  The
programs of a directory are ordered by their paths, and of those that cannot be rendered the
first is reported, whatever comes after it. -/
theorem run_failing_before_writing (world : World) (options : Options) :
    (∀ failure, (world.run options).1 = .error failure → failure.precedesWriting = true →
      (world.run options).2 = world) ∧
    (options.inputDirectory = none →
      (∀ failure, world.inputText options = .error failure →
        world.run options = (.error failure, world)) ∧
      (∀ source error, world.inputText options = .ok source →
        render source options.format = .error error →
        world.run options = (.error (.render (options.input.getD "<stdin>") error), world))) ∧
    (∀ directory, options.inputDirectory = some directory →
      (∀ error, world.files.sources (.ofString directory) = .error error →
        world.run options = (.error (.search (.ofString directory) error), world)) ∧
      (world.files.sources (.ofString directory) = .ok [] →
        world.run options = (.error (.noSources (.ofString directory)), world)) ∧
      ∀ sources, world.files.sources (.ofString directory) = .ok sources →
        (sources.Pairwise fun first second => first.path.UpTo second.path) ∧
        ∀ source ∈ sources, ∀ fault, render source.contents options.format = .error fault →
          ∃ before first after error, sources = before ++ first :: after ∧
            (∀ earlier ∈ before, ∃ text, render earlier.contents options.format = .ok text) ∧
            render first.contents options.format = .error error ∧
            world.run options = (.error (.render first.path.text error), world)) := by
  refine ⟨?_, ?_, ?_⟩
  · exact careful_run options world
  · intro isFile
    exact ⟨fun _ => run_of_inputText_error isFile, fun _ _ => run_of_render_error isFile⟩
  · intro directory isDirectory
    refine ⟨?_, ?_, ?_⟩
    · intro error fails
      exact run_of_programsIn_error isDirectory (by rw [fails]; rfl)
    · intro isEmpty
      exact run_of_programsIn_error isDirectory (by rw [isEmpty]; rfl)
    · intro sources found
      refine ⟨pairwise_upTo_of_sources found, ?_⟩
      intro source isIn fault fails
      obtain ⟨before, first, after, error, rfl, renders, firstFails⟩ :=
        exists_first_error (fun program : SourceFile => render program.contents options.format)
          isIn fails
      exact ⟨before, first, after, error, rfl, renders, firstFails,
        run_of_first_error isDirectory found renders firstFails⟩

/-- Two programs that cannot be rendered, of which the one met last comes first. -/
theorem run_failing_before_writing_two_bad_programs :
    World.run
        { files := ⟨[(⟨.above 0, ["s"]⟩, .directory),
            (⟨.above 0, ["s", "b.teeny"]⟩, .file (.ofString "goto x")),
            (⟨.above 0, ["s", "a.teeny"]⟩, .file (.ofString "print"))]⟩ }
        ⟨none, some "s", "out", "c", none, true⟩ =
      (.error (.render "a.teeny" (.rejected (.syntactic (.notAnOperand .newline)))),
        { files := ⟨[(⟨.above 0, ["s"]⟩, .directory),
            (⟨.above 0, ["s", "b.teeny"]⟩, .file (.ofString "goto x")),
            (⟨.above 0, ["s", "a.teeny"]⟩, .file (.ofString "print"))]⟩ }) := by
  have files : FileTree.filesBelow ⟨[(⟨.above 0, ["s"]⟩, .directory),
      (⟨.above 0, ["s", "b.teeny"]⟩, .file (.ofString "goto x")),
      (⟨.above 0, ["s", "a.teeny"]⟩, .file (.ofString "print"))]⟩ (.ofString "s") isSourcePath =
        .ok [⟨⟨false, ["b.teeny"]⟩, .ofString "goto x"⟩,
          ⟨⟨false, ["a.teeny"]⟩, .ofString "print"⟩] := rfl
  have sources : sourcesOf [⟨⟨false, ["b.teeny"]⟩, .ofString "goto x"⟩,
      ⟨⟨false, ["a.teeny"]⟩, .ofString "print"⟩] =
        .ok [⟨⟨false, ["a.teeny"]⟩, "print"⟩, ⟨⟨false, ["b.teeny"]⟩, "goto x"⟩] := by
    refine sourcesOf_eq_ok_iff.mpr
      ⟨[⟨⟨false, ["b.teeny"]⟩, "goto x"⟩, ⟨⟨false, ["a.teeny"]⟩, "print"⟩], ?_, ?_⟩
    · rw [mapM_eq_ok_iff]
      simp [FoundFile.source]
    · rw [mergeSort_pair, if_neg (by decide)]
  have fails : render "print" "c" =
      .error (.rejected (.syntactic (.notAnOperand .newline))) := by cbv
  obtain ⟨before, first, after, error, split, renders, firstFails, run⟩ :=
    (((run_failing_before_writing { files := _ } ⟨none, some "s", "out", "c", none, true⟩).2.2
      "s" rfl).2.2 _ (sources_eq_ok_iff.mpr ⟨_, files, sources⟩)).2 _ List.mem_cons_self _ fails
  cases before with
  | nil =>
      cases split
      rw [run, ← Except.error.inj (fails.symm.trans firstFails)]
      rfl
  | cons earlier before =>
      obtain ⟨rfl, _⟩ := List.cons.inj split
      obtain ⟨text, isText⟩ := renders _ List.mem_cons_self
      cases fails.symm.trans isText

end TeenyC
