import TeenyC.Command.Run

/-!
# The command line

The command on the machine it runs on.  This module only connects the command to
files and standard streams; programs cannot be started from here, so a C compiler
is reported as one that cannot be invoked.
-/

namespace TeenyC.Machine

/-- The number of an error of the system, which some operations report negated. -/
def errorNumber (code : UInt32) : UInt32 :=
  if code < 0x80000000 then code else 0 - code

/-- The cause of an error of the system. -/
def cause : IO.Error → IoError
  | .noFileOrDirectory .. => .notFound
  | .permissionDenied .. => .permissionDenied
  | .alreadyExists .. => .alreadyExists
  | error@(.inappropriateType _ code _) =>
    if errorNumber code = 20 then .notADirectory
    else if errorNumber code = 21 then .isADirectory
    else .other (toString error)
  | error@(.invalidArgument _ code _) =>
    if errorNumber code = 36 then .nameTooLong
    else if errorNumber code = 40 then .tooManyLinks
    else .other (toString error)
  | error => .other (toString error)

/-- The result of an action, or the cause of its failure. -/
def observe {α : Type} (action : IO α) : IO (Except IoError α) := do
  try
    let result ← action
    return .ok result
  catch error =>
    return .error (cause error)

/-- The kind of the entry that a path names, links being followed or not. -/
def fileType (path : Path) (followLinks : Bool) : IO IO.FS.FileType := do
  let entry : IO.FS.DirEntry := { root := path.text, fileName := "" }
  let data ← if followLinks then entry.root.metadata else entry.root.symlinkMetadata
  return data.type

/-- The names in a directory. -/
def namesIn (directory : Path) : IO (List String) := do
  let entry : IO.FS.DirEntry := { root := directory.text, fileName := "" }
  return (← entry.root.readDir).toList.map (·.fileName)

/-- A part of a search for programs. -/
abbrev Search := ExceptT SourceError IO

/-- Let a search fail for a reason of its own where the system fails. -/
def attempt {α : Type} (failure : IoError → SourceError) (action : IO α) : Search α :=
  ExceptT.mk do return (← observe action).mapError failure

/-- The file at a path, if a test selects it. -/
def fileAt (path relative : Path) (selects : Path → Bool) : Search (List FoundFile) := do
  if selects path then
    match ← observe (fileType path true) with
    | .ok .file => return [⟨relative, (← attempt .read (IO.FS.readBinFile path.text)).data⟩]
    | _ => return []
  else
    return []

/-- The files below a directory.  Links to directories are not entered. -/
partial def filesUnder (root : Path) (names : List String) (selects : Path → Bool) :
    Search (List FoundFile) := do
  let directory := if names.isEmpty then root else root.join ⟨false, names⟩
  let mut found := []
  for name in ← attempt (.walk directory) (namesIn directory) do
    let relative : Path := ⟨false, names ++ [name]⟩
    let path := root.join relative
    match ← observe (fileType path false) with
    | .ok .dir => found := found ++ (← filesUnder root (names ++ [name]) selects)
    | _ => found := found ++ (← fileAt path relative selects)
  return found

/-- The files at or below a path. -/
def filesBelow (root : Path) (selects : Path → Bool) : Search (List FoundFile) := do
  let type ← attempt (.walk root) do
    let _ ← fileType root false
    fileType root true
  if type == .dir then
    filesUnder root [] selects
  else
    fileAt root (.ofString "") selects

/-- All bytes of a stream. -/
partial def readToEnd (stream : IO.FS.Stream) (read : ByteArray) : IO ByteArray := do
  let piece ← stream.read 65536
  if piece.isEmpty then
    return read
  else
    readToEnd stream (read ++ piece)

instance : Host IO where
  readFile path := observe (do return (← IO.FS.readBinFile path.text).data)
  readInput := observe (do return (← readToEnd (← IO.getStdin) .empty).data)
  filesBelow root selects := (filesBelow root selects).run
  makeDirectories path := observe (IO.FS.createDirAll path.text)
  writeFile path text := observe (IO.FS.writeBinFile path.text ⟨Bytes.ofString text⟩)
  invoke _ _ := return .error (.other "programs cannot be started")
  note text := IO.eprintln text

end TeenyC.Machine

open TeenyC in
/-- Read the arguments, run the command and report how it ended. -/
def main (arguments : List String) : IO UInt32 := do
  match Options.ofArguments arguments with
  | .error .help =>
    IO.print usageText
    return 0
  | .error .version =>
    IO.println "teenyc 0.1.0"
    return 0
  | .error error =>
    IO.eprint ("error: " ++ error.message ++ "\n\n" ++ usageText)
    return 2
  | .ok options =>
    match ← (Command.run (m := IO) options).run with
    | .ok () => return 0
    | .error failure =>
      IO.eprintln failure.report
      return 1
