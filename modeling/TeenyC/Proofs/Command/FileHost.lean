import TeenyC.Proofs.Command.Perform
import TeenyC.Proofs.Command.Task
import TeenyC.Proofs.FileTree.Output

/-!
# Hosts with a file tree

A host whose files are a file tree: they are searched and changed as the tree is, and neither the
programs that are run nor notes have an effect on them.  What a run of the command does to the
files of such a host is told by its tree alone, whatever the programs do otherwise.
-/

namespace TeenyC

/-- The failures of building an output file. -/
def Failure.isOfBuilding : Failure → Bool
  | invoke .. | build .. => true
  | readFile .. | readInput .. | render .. | search .. | noSources .. | makeDirectories ..
  | writeFile .. => false

namespace FileTree

/-- The result of a change and the tree it leaves. -/
def outcome (change : Change Unit) (tree : FileTree) : Except IoError Unit × FileTree :=
  match change tree with
  | .ok () after => (.ok (), after)
  | .error error after => (.error error, after)

variable {change : Change Unit} {tree after : FileTree} {error : IoError}

theorem outcome_eq_ok_iff : outcome change tree = (.ok (), after) ↔ change tree = .ok () after := by
  rw [outcome]
  cases change tree <;> simp

theorem leaves_of_outcome {result : Except IoError Unit}
    (leaving : outcome change tree = (result, after)) : leaves change tree = after := by
  rw [outcome] at leaving
  rw [leaves]
  cases changed : change tree with
  | ok done files =>
      rw [changed] at leaving
      exact congrArg Prod.snd leaving
  | error error files =>
      rw [changed] at leaving
      exact congrArg Prod.snd leaving

end FileTree

namespace Command

variable {σ α : Type}

/-- The action gives the result of the change, and has its effect on the files. -/
def Applies (files : σ → FileTree) (action : StateM σ (Except IoError Unit))
    (change : Change Unit) : Prop :=
  ∀ state, ((action.run state).1, files (action.run state).2) =
    FileTree.outcome change (files state)

/-- The action has no effect on the files. -/
def LeavesFiles (files : σ → FileTree) (action : StateM σ α) : Prop :=
  ∀ state, files (action.run state).2 = files state

/-- The files of the host are a file tree. -/
structure FileHost [Host (StateM σ)] (files : σ → FileTree) : Prop where
  /-- A search finds what there is in the tree. -/
  filesBelow : ∀ (root : Path) (selects : Path → Bool) (state : σ),
    ((Host.filesBelow (m := StateM σ) root selects).run state).1 =
      (files state).filesBelow root selects
  search : ∀ root selects, LeavesFiles files (Host.filesBelow (m := StateM σ) root selects)
  makeDirectories : ∀ path,
    Applies files (Host.makeDirectories path) (FileTree.makeDirectories path)
  writeFile : ∀ path text,
    Applies files (Host.writeFile path text) (FileTree.write path (.ofString text))
  /-- No program changes files. -/
  invoke : ∀ program arguments,
    LeavesFiles files (Host.invoke (m := StateM σ) program arguments)
  note : ∀ text, LeavesFiles files (Host.note (m := StateM σ) text)

theorem applies_change (action : Change Unit) :
    Applies World.files (World.change action) action := by
  intro world
  simp only [World.change, FileTree.outcome, StateT.run]
  cases action world.files <;> rfl

/-- The files of a modelled system are a file tree. -/
theorem fileHost_world : FileHost World.files where
  filesBelow _ _ _ := rfl
  search _ _ _ := rfl
  makeDirectories path := applies_change _
  writeFile path text := applies_change _
  invoke program arguments world := by
    simp only [Host.invoke, StateT.run]
    cases world.invoke program arguments <;> rfl
  note _ _ := rfl

/-! ## Tasks that leave the files alone -/

section Harmless

variable {β ε : Type} {files : σ → FileTree} {task : Task (StateM σ) α}
  {next : α → Task (StateM σ) β}

/-- The task has no effect on the files, and fails only with failures of building. -/
def Harmless (files : σ → FileTree) (task : Task (StateM σ) α) : Prop :=
  ∀ state, files (perform state task).2 = files state ∧
    ∀ failure, (perform state task).1 = .error failure → failure.isOfBuilding = true

theorem Harmless.bind (first : Harmless files task) (rest : ∀ value, Harmless files (next value)) :
    Harmless files (task >>= next) := by
  intro state
  obtain ⟨leaves, building⟩ := first state
  rcases ran : perform state task with ⟨failure | value, middle⟩
  · rw [perform_bind_of_error ran]
    rw [ran] at leaves building
    refine ⟨leaves, ?_⟩
    rintro _ ⟨⟩
    exact building failure rfl
  · rw [perform_bind_of_ok ran]
    rw [ran] at leaves
    exact ⟨(rest value middle).1.trans leaves, (rest value middle).2⟩

theorem harmless_pure (value : α) : Harmless files (pure value : Task (StateM σ) α) :=
  fun _ => ⟨rfl, nofun⟩

theorem harmless_throw {failure : Failure} (building : failure.isOfBuilding = true) :
    Harmless files (throw failure : Task (StateM σ) α) := by
  refine fun _ => ⟨rfl, ?_⟩
  rintro _ ⟨⟩
  exact building

theorem harmless_attempt {failure : ε → Failure} {action : StateM σ (Except ε α)}
    (leaves : LeavesFiles files action) (building : ∀ error, (failure error).isOfBuilding = true) :
    Harmless files (attempt failure action) := by
  intro state
  rw [perform_attempt]
  refine ⟨leaves state, ?_⟩
  intro found fails
  cases ran : (action.run state).1 with
  | ok value =>
      rw [ran] at fails
      cases fails
  | error error =>
      rw [ran] at fails
      rw [← Except.error.inj fails]
      exact building error

variable [Host (StateM σ)] (host : FileHost files) (options : Options)
include host

theorem FileHost.harmless_note (text : String) :
    Harmless files (liftM (Host.note text : StateM σ Unit)) :=
  fun state => ⟨host.note text state, nofun⟩

theorem FileHost.harmless_progress (text : String) : Harmless files (progress options text) := by
  unfold progress
  split
  · exact host.harmless_note text
  · exact harmless_pure ()

theorem FileHost.harmless_buildOutput (output : Path) :
    Harmless files (buildOutput options output) := by
  unfold buildOutput
  split
  · exact harmless_pure ()
  · next compiler _ =>
      split
      · exact host.harmless_note _
      · apply (harmless_attempt (host.invoke _ _) fun _ => rfl).bind
        intro code
        split
        · exact (harmless_throw rfl).bind fun _ => host.harmless_progress options _
        · exact host.harmless_progress options _

end Harmless

/-! ## Searching -/

/-- The programs of a run on a directory are those of the file tree. -/
theorem FileHost.perform_readSources [Host (StateM σ)] {files : σ → FileTree}
    (host : FileHost files) (directory : Path) (state : σ) :
    ∃ after, perform state (readSources directory) =
        (World.programsIn directory ((files state).sources directory), after) ∧
      files after = files state :=
  ⟨_, World.perform_readSources_of_search (Prod.ext (host.filesBelow directory isSourcePath state)
    rfl), host.search directory isSourcePath state⟩

/-! ## Tasks that write -/

section Writing

variable {files : σ → FileTree} {state after : σ} {options : Options} {path above : Path}
  {text : String} {output : Path × String} {failure : Failure} {result : Except Failure Unit}
  {action : StateM σ (Except IoError Unit)} {change : Change Unit}

theorem Applies.perform (applies : Applies files action change) {reason : IoError → Failure}
    (ran : perform state (attempt reason action) = (result, after)) :
    ∃ done, FileTree.outcome change (files state) = (done, files after) ∧
      result = done.mapError reason := by
  rw [perform_attempt] at ran
  obtain ⟨rfl, rfl⟩ := Prod.mk.inj ran
  exact ⟨_, (applies state).symm, rfl⟩

/-- The tree that is there when an output file is to be written: the directories in front of it
were made, if there are any. -/
def Prepares (path : Path) (before middle : FileTree) : Prop :=
  middle = before ∨
    ∃ above, path.parent? = some above ∧ FileTree.makeDirectories above before = .ok () middle

theorem Prepares.grows {before middle : FileTree} (prepares : Prepares path before middle)
    (linkFree : before.LinkFree) :
    FileTree.Grows (FileTree.IsAbove [path]) before middle := by
  rcases prepares with rfl | ⟨above, isParent, made⟩
  · exact .refl _ _
  · have grows := FileTree.makeDirectories_grows linkFree isParent
    rwa [FileTree.leaves, made] at grows

variable [Host (StateM σ)]

/-- Writing an output file fails to make the directories in front of it, or it makes them and
writes the file or fails to. -/
theorem FileHost.writeOutput_cases (host : FileHost files)
    (ran : perform state (writeOutput path text) = (result, after)) :
    (∃ above error, path.parent? = some above ∧ result = .error (.makeDirectories above error) ∧
      FileTree.leaves (FileTree.makeDirectories above) (files state) = files after) ∨
    ∃ middle done, Prepares path (files state) middle ∧
      FileTree.outcome (FileTree.write path (.ofString text)) middle = (done, files after) ∧
      result = done.mapError (.writeFile path) := by
  have writes {middle : σ}
      (written : perform middle (attempt (.writeFile path) (Host.writeFile path text)) =
        (result, after)) :
      ∃ done, FileTree.outcome (FileTree.write path (.ofString text)) (files middle) =
        (done, files after) ∧ result = done.mapError (.writeFile path) :=
    (host.writeFile path text).perform written
  rw [writeOutput] at ran
  split at ran
  · next above isParent =>
      split at ran
      · rcases made : perform state
          (attempt (.makeDirectories above) (Host.makeDirectories (m := StateM σ) above)) with
          ⟨failure | value, middle⟩
        · rw [perform_bind_of_error made] at ran
          obtain ⟨done, leaves, isDone⟩ := (host.makeDirectories above).perform made
          obtain ⟨rfl, rfl⟩ := Prod.mk.inj ran
          cases done with
          | ok value => cases isDone
          | error error =>
              left
              refine ⟨above, error, isParent, isDone, ?_⟩
              exact FileTree.leaves_of_outcome leaves
        · rw [perform_bind_of_ok made] at ran
          obtain ⟨done, leaves, isDone⟩ := (host.makeDirectories above).perform made
          obtain ⟨rest, written, isResult⟩ := writes ran
          cases done with
          | error error => cases isDone
          | ok value =>
              exact .inr ⟨files middle, rest, .inr ⟨above, isParent,
                FileTree.outcome_eq_ok_iff.mp leaves⟩, written, isResult⟩
      · obtain ⟨rest, written, isResult⟩ := writes ran
        exact .inr ⟨files state, rest, .inl rfl, written, isResult⟩
  · obtain ⟨rest, written, isResult⟩ := writes ran
    exact .inr ⟨files state, rest, .inl rfl, written, isResult⟩

/-- Writing an output file that succeeds has written to its path. -/
theorem FileHost.exists_write_of_writeOutput (host : FileHost files)
    (ran : perform state (writeOutput path text) = (.ok (), after)) :
    ∃ middle, Prepares path (files state) middle ∧
      FileTree.write path (.ofString text) middle = .ok () (files after) := by
  rcases host.writeOutput_cases ran with ⟨_, _, _, ⟨⟩, _⟩ | ⟨middle, done, prepares, written, isOk⟩
  cases done with
  | error error => cases isOk
  | ok value => exact ⟨middle, prepares, FileTree.outcome_eq_ok_iff.mp written⟩

variable (host : FileHost files) (linkFree : (files state).LinkFree)
include host linkFree

theorem FileHost.writesFile_of_writeOutput
    (ran : perform state (writeOutput path text) = (.ok (), after)) :
    FileTree.WritesFile (path, text) (files state) (files after) := by
  obtain ⟨middle, prepares, written⟩ := host.exists_write_of_writeOutput ran
  exact ⟨middle, prepares.grows linkFree, written⟩

/-- Writing an output file that fails has at most made directories in front of it. -/
theorem FileHost.grows_of_writeOutput
    (ran : perform state (writeOutput path text) = (.error failure, after)) :
    failure.isOfBuilding = false ∧
      FileTree.Grows (FileTree.IsAbove [path]) (files state) (files after) := by
  rcases host.writeOutput_cases ran with
    ⟨above, error, isParent, isFailure, leaves⟩ | ⟨middle, done, prepares, written, isFailure⟩
  · obtain rfl := Except.error.inj isFailure
    exact ⟨rfl, leaves ▸ FileTree.makeDirectories_grows linkFree isParent⟩
  · cases done with
    | ok value => cases isFailure
    | error error =>
        obtain rfl := Except.error.inj isFailure
        have unchanged : middle = files after := by
          rw [FileTree.outcome] at written
          rcases FileTree.write_cases (rfl : FileTree.write path (.ofString text) middle = _) with
            ⟨other, fails⟩ | ⟨_, _, _, isOk⟩
          · rw [fails] at written
            exact congrArg Prod.snd written
          · rw [isOk] at written
            cases written
        exact ⟨rfl, unchanged ▸ prepares.grows linkFree⟩

theorem FileHost.writesFile_of_writeRendered
    (ran : perform state (writeRendered options output) = (.ok (), after)) :
    FileTree.WritesFile output (files state) (files after) := by
  obtain ⟨_, written, wrote, rest⟩ := perform_bind_eq_ok_iff.mp ran
  have harmless := (host.harmless_progress options ("wrote " ++ output.1.text)).bind fun _ =>
    host.harmless_buildOutput options output.1
  have same := (harmless written).1
  rw [rest] at same
  rw [same]
  exact host.writesFile_of_writeOutput linkFree wrote

/-- Where an output file is written and built, and that fails, it was not written and at most
directories were made in front of it; or it was written, and building has failed. -/
theorem FileHost.writeRendered_cases
    (ran : perform state (writeRendered options output) = (.error failure, after)) :
    (failure.isOfBuilding = false ∧
      FileTree.Grows (FileTree.IsAbove [output.1]) (files state) (files after)) ∨
    (failure.isOfBuilding = true ∧ FileTree.WritesFile output (files state) (files after)) := by
  rcases perform_bind_eq_error_iff.mp ran with fails | ⟨_, written, wrote, rest⟩
  · exact .inl (host.grows_of_writeOutput linkFree fails)
  · have harmless := (host.harmless_progress options ("wrote " ++ output.1.text)).bind fun _ =>
      host.harmless_buildOutput options output.1
    obtain ⟨same, building⟩ := harmless written
    rw [rest] at same building
    refine .inr ⟨building failure rfl, ?_⟩
    rw [same]
    exact host.writesFile_of_writeOutput linkFree wrote

theorem FileHost.writesFiles_of_forM {outputs : List (Path × String)}
    (ran : perform state (outputs.forM (writeRendered options)) = (.ok (), after)) :
    FileTree.WritesFiles outputs (files state) (files after) := by
  induction outputs generalizing state with
  | nil =>
      cases ran
      exact .nil _
  | cons output rest inductionHypothesis =>
      obtain ⟨_, middle, first, others⟩ := perform_bind_eq_ok_iff.mp ran
      have writes := host.writesFile_of_writeRendered linkFree first
      exact .cons writes (inductionHypothesis (writes.linkFree_after linkFree) others)

end Writing

end Command

end TeenyC
