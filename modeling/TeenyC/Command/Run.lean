import TeenyC.Command.Failure
import TeenyC.Command.Host
import TeenyC.Command.Options

/-!
# Running the command

The command renders one source text, or every program under a directory, and
writes the results.  Of a directory everything is rendered before anything is
written, so that one bad program leaves the output as it was.
-/

namespace TeenyC

namespace Command

variable {m : Type → Type} [Monad m] [Host m]

/-- A task of the command. -/
abbrev Task (m : Type → Type) := ExceptT Failure m

/-- Let a task fail for a reason of its own where the host fails. -/
def attempt {ε α : Type} (failure : ε → Failure) (action : m (Except ε α)) : Task m α :=
  ExceptT.mk do return (← action).mapError failure

/-- Write a progress note, if notes are wanted. -/
def progress (options : Options) (text : String) : Task m Unit :=
  if options.verbose then liftM (Host.note (m := m) text) else pure ()

/-! ## Reading -/

/-- The text of some bytes. -/
def decode (data : Except IoError Bytes) : Except IoError String := do
  match (← data).text? with
  | some text => .ok text
  | none => .error .invalidText

/-- The source text of a run on one file. -/
def readSource (options : Options) : Task m String :=
  match options.input with
  | some path => attempt (.readFile path) (decode <$> Host.readFile (.ofString path))
  | none => attempt .readInput (decode <$> Host.readInput)

/-- The programs of a run on a directory. -/
def readSources (directory : Path) : Task m (List SourceFile) := do
  let found ← attempt (.search directory) (Host.filesBelow (m := m) directory isSourcePath)
  let sources ← attempt (m := m) (.search directory) (pure (sourcesOf found))
  if sources.isEmpty then
    throw (.noSources directory)
  return sources

/-! ## Writing -/

/-- Write an output file, in a directory that is made if it is missing. -/
def writeOutput (path : Path) (text : String) : Task m Unit := do
  match path.parent? with
  | some above =>
    if !above.isEmpty then
      attempt (.makeDirectories above) (Host.makeDirectories (m := m) above)
  | none => pure ()
  attempt (.writeFile path) (Host.writeFile (m := m) path text)

/-- Build an output file, if a C compiler is given and the output is C. -/
def buildOutput (options : Options) (output : Path) : Task m Unit := do
  match options.compiler with
  | none => pure ()
  | some compiler =>
    if options.format != "c" then
      liftM (Host.note (m := m) "--cc is ignored for non-C outputs")
    else
      let executable := output.executable
      let code ← attempt (.invoke compiler)
        (Host.invoke (m := m) compiler [output.text, "-o", executable.text])
      if code != 0 then
        throw (.build compiler output code)
      progress options ("built " ++ executable.text)

/-! ## Runs -/

/-- Run on one source text. -/
def runFile (options : Options) : Task m Unit := do
  let source ← readSource options
  let name := options.input.getD "<stdin>"
  let text ← attempt (m := m) (.render name) (pure (render source options.format))
  let output := Path.ofString options.output
  writeOutput output text
  progress options ("translated " ++ name ++ " -> " ++ output.text)
  buildOutput options output

/-- The extension of the output files of a format. -/
def outputExtension (formatName : String) : String :=
  ((Format.ofName? formatName).getD .c).extension

/-- The output file of a program, with what is to be written there. -/
def renderSource (options : Options) (source : SourceFile) : Except Failure (Path × String) := do
  let text ← (render source.contents options.format).mapError (.render source.path.text)
  let relative := source.path.withExtension (outputExtension options.format)
  return ((Path.ofString options.output).join relative, text)

/-- Write and build one output file of a directory. -/
def writeRendered (options : Options) (output : Path × String) : Task m Unit := do
  writeOutput output.1 output.2
  progress options ("wrote " ++ output.1.text)
  buildOutput options output.1

/-- Run on all programs under a directory. -/
def runDirectory (options : Options) (directory : Path) : Task m Unit := do
  let sources ← readSources directory
  let outputs ← attempt (m := m) id (pure (sources.mapM (renderSource options)))
  outputs.forM (writeRendered options)
  progress options ("translated " ++ toString outputs.length ++ " file(s)")

/-- Run the command. -/
def run (options : Options) : Task m Unit :=
  match options.inputDirectory with
  | some directory => runDirectory options (.ofString directory)
  | none => runFile options

end Command

end TeenyC
