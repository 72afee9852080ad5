import TeenyC.Command.World
import TeenyC.Proofs.Command.Perform

/-!
# Tasks on a modelled system

What notes and the tasks that read do on a modelled system: a note changes the notes only, and
reading changes nothing.  With the equations for putting tasks together, this is what later
modules go back to when they speak of runs.
-/

namespace TeenyC

namespace World

/-- A note changes nothing but the notes, and does not fail. -/
theorem perform_note (world : World) (text : String) :
    Command.perform world (liftM (Host.note text : StateM World Unit)) =
      (.ok (), { world with notes := world.notes ++ text ++ "\n" }) :=
  rfl

/-! ## Reading -/

/-- The source text of a run on one file, or why it cannot be read. -/
def inputText (world : World) (options : Options) : Except Failure String :=
  match options.input with
  | some path => (Command.decode (world.files.read (.ofString path))).mapError (.readFile path)
  | none => (Command.decode (.ok world.input)).mapError .readInput

theorem perform_readSource (world : World) (options : Options) :
    Command.perform world (Command.readSource options) = (world.inputText options, world) := by
  unfold Command.readSource inputText
  cases options.input <;> rfl

/-- The programs of a directory, or why a run on it cannot start. -/
def programsIn (directory : Path) :
    Except SourceError (List SourceFile) → Except Failure (List SourceFile)
  | .error error => .error (.search directory error)
  | .ok [] => .error (.noSources directory)
  | .ok (source :: others) => .ok (source :: others)

theorem eq_ok_of_programsIn {directory : Path} {found : Except SourceError (List SourceFile)}
    {sources : List SourceFile} (programs : programsIn directory found = .ok sources) :
    found = .ok sources := by
  match found, programs with
  | .ok (source :: others), rfl => rfl

/-- The programs of a run on a directory are those that the host finds there. -/
theorem perform_readSources_of_search {σ : Type} [Host (StateM σ)] {state after : σ}
    {directory : Path} {found : Except SourceError (List FoundFile)}
    (searched : (Host.filesBelow (m := StateM σ) directory isSourcePath).run state =
      (found, after)) :
    Command.perform state (Command.readSources directory) =
      (programsIn directory (found >>= sourcesOf), after) := by
  have first := Command.perform_attempt state (Failure.search directory)
    (Host.filesBelow (m := StateM σ) directory isSourcePath)
  rw [searched] at first
  rw [Command.readSources]
  cases found with
  | error error => exact Command.perform_bind_of_error first _
  | ok files =>
      rw [Command.perform_bind_of_ok first]
      change _ = (programsIn directory (sourcesOf files), after)
      have read := Command.perform_attempt_pure after (Failure.search directory) (sourcesOf files)
      cases isRead : sourcesOf files with
      | error error =>
          rw [isRead] at read
          exact Command.perform_bind_of_error read _
      | ok sources =>
          rw [isRead] at read
          rw [Command.perform_bind_of_ok read]
          cases sources <;> rfl

/-- The programs of a run on a directory are those of the file tree. -/
theorem perform_readSources (world : World) (directory : Path) :
    Command.perform world (Command.readSources directory) =
      (programsIn directory (world.files.sources directory), world) :=
  perform_readSources_of_search rfl

/-! ## Runs -/

theorem run_eq_perform (world : World) (options : Options) :
    world.run options = Command.perform world (Command.run options) :=
  rfl

end World

end TeenyC
