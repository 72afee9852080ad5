import TeenyC.Command.Run
import TeenyC.FileTree.Change

/-!
# A model of a system

A host with a file tree, the bytes of standard input, and what was written to the
standard streams.  It knows three programs: one that succeeds, one that fails, and
one that prints its arguments.  No file of the tree can be run.
-/

namespace TeenyC

/-- The state of a modelled system. -/
structure World where
  files : FileTree := .empty
  input : Bytes := #[]
  /-- What programs have printed. -/
  output : String := ""
  /-- What was written to standard error. -/
  notes : String := ""

namespace World

/-- The exit code of a program and what it prints. -/
structure Outcome where
  code : Nat
  printed : String := ""

/-- Whether an argument is an option of the program that prints its arguments. -/
def isPrintOption (argument : String) : Bool :=
  match argument.toList with
  | '-' :: letter :: letters => (letter :: letters).all fun c => c = 'n' || c = 'e' || c = 'E'
  | _ => false

/-- What the program that prints its arguments writes: all but the options in
front, and a line end unless one of those says `n`.  The other options concern
backslashes, and the command gives none after an option. -/
def printArguments (arguments : List String) : String :=
  let options := arguments.takeWhile isPrintOption
  let silent := options.any fun option => option.toList.contains 'n'
  " ".intercalate (arguments.dropWhile isPrintOption) ++ if silent then "" else "\n"

/-- Run a program.  A name without a slash is looked up among the known programs,
any other among the files. -/
def invoke (world : World) (program : String) (arguments : List String) :
    Except IoError Outcome :=
  let chars := program.toList
  if chars.contains '\x00' then
    .error .nulInCommand
  else if chars.contains '/' then do
    let _ ← world.files.find (.ofString program)
    .error .permissionDenied
  else if FileTree.isTooLong program then
    .error .nameTooLong
  else
    match program with
    | "true" => .ok ⟨0, ""⟩
    | "false" => .ok ⟨1, ""⟩
    | "echo" => .ok ⟨0, printArguments arguments⟩
    | "." | ".." => .error .permissionDenied
    | _ => .error .notFound

/-- Apply a change to the files. -/
def change (action : Change Unit) : StateM World (Except IoError Unit) := fun world =>
  match action world.files with
  | .ok () files => (.ok (), { world with files })
  | .error error files => (.error error, { world with files })

instance : Host (StateM World) where
  readFile path := return (← get).files.read path
  readInput := return .ok (← get).input
  filesBelow root selects := return (← get).files.filesBelow root selects
  makeDirectories path := change (FileTree.makeDirectories path)
  writeFile path text := change (FileTree.write path (.ofString text))
  invoke program arguments := fun world =>
    match world.invoke program arguments with
    | .ok outcome => (.ok outcome.code, { world with output := world.output ++ outcome.printed })
    | .error error => (.error error, world)
  note text := modify fun world => { world with notes := world.notes ++ text ++ "\n" }

/-- Run the command on a modelled system. -/
def run (world : World) (options : Options) : Except Failure Unit × World :=
  (Command.run (m := StateM World) options).run.run world

end World

end TeenyC
