import TeenyC.FileTree.Basic
import TeenyC.FileTree.IoError
import TeenyC.Path

/-!
# Resolving paths

How a path leads through a file tree.  A path is followed step by step from the
working directory, or from the root if it starts with a slash; a dot stays, two
dots go up, and a symbolic link goes on at its target.
-/

namespace TeenyC

/-- The steps of a path.  A slash at the end is an empty step, which stays, and so
asks for a directory. -/
def Path.steps (path : Path) : List String :=
  path.pieces.filter (· != "") ++ if path.endsInSlash then [""] else []

/-- The location at which a path starts. -/
def Path.start (path : Path) : Location :=
  if path.absolute then .root else .top

/-- What is to happen at the end of a path. -/
inductive Ending where
  /-- A link there is looked at itself. -/
  | keepLink
  /-- A link there is followed. -/
  | followLink
  /-- A link there is followed, and a file is going to be written; a slash there
  asks for a directory, which no file can be. -/
  | writeFile
  deriving DecidableEq

/-- Where a path leads. -/
inductive Arrival where
  /-- Something stands there. -/
  | found (location : Location)
  /-- Nothing stands there, in a directory that exists. -/
  | missing (location : Location)
  deriving DecidableEq

/-- The end of a walk without following links. -/
inductive Walk where
  | arrived (arrival : Arrival)
  | failed (error : IoError)
  /-- A link sends the walk on by these steps, from this location. -/
  | redirected (location : Location) (steps : List String)

namespace FileTree

/-- Whether a name is longer than a directory can hold, in bytes. -/
def isTooLong (name : String) : Bool :=
  name.utf8ByteSize > 255

/-- Walk up to the first link that is to be followed. -/
def walk (tree : FileTree) (ending : Ending) : Location → List String → Walk
  | location, [] => .arrived (.found location)
  | location, step :: rest =>
    if !tree.isDirectory location then
      .failed .notADirectory
    else if step = "" ∨ step = "." then
      walk tree ending location rest
    else if step = ".." then
      walk tree ending location.up rest
    else if ending = .writeFile ∧ rest = [""] then
      .failed .isADirectory
    else if isTooLong step then
      .failed .nameTooLong
    else
      match tree.get? (location.child step) with
      | none =>
        if rest.isEmpty then
          .arrived (.missing (location.child step))
        else
          .failed .notFound
      | some (.link target) =>
        if ending = .keepLink ∧ rest = [] then
          .arrived (.found (location.child step))
        else
          let path := Path.ofString target
          .redirected (if path.absolute then .root else location) (path.steps ++ rest)
      | some _ => walk tree ending (location.child step) rest

/-- The number of links that a path may follow. -/
def linkLimit : Nat := 40

/-- Follow steps, and at most `links` links. -/
def follow (tree : FileTree) (ending : Ending) :
    Nat → Location → List String → Except IoError Arrival
  | links, location, steps =>
    match tree.walk ending location steps with
    | .arrived arrival => .ok arrival
    | .failed error => .error error
    | .redirected target further =>
      match links with
      | 0 => .error .tooManyLinks
      | links + 1 => follow tree ending links target further

/-- The number of bytes from which on a path is too long to be asked for. -/
def pathLimit : Nat := 4096

/-- A path that can be asked for: without NUL, not too long, and not empty. -/
def checkPath (path : Path) : Except IoError Unit :=
  if path.pieces.any fun piece => piece.toList.contains '\x00' then
    .error .nulInPath
  else if path.text.utf8ByteSize ≥ pathLimit then
    .error .nameTooLong
  else if path.isEmpty then
    .error .notFound
  else
    .ok ()

/-- Where a path leads. -/
def resolve (tree : FileTree) (ending : Ending) (path : Path) : Except IoError Arrival := do
  checkPath path
  tree.follow ending linkLimit path.start path.steps

/-- What stands where a path leads, all links being followed. -/
def find (tree : FileTree) (path : Path) : Except IoError (Location × Node) := do
  match ← tree.resolve .followLink path with
  | .missing _ => .error .notFound
  | .found location =>
    match tree.get? location with
    | none => .error .notFound
    | some node => .ok (location, node)

/-- The data of a file. -/
def read (tree : FileTree) (path : Path) : Except IoError Bytes := do
  match ← tree.find path with
  | (_, .file data) => .ok data
  | _ => .error .isADirectory

/-- Whether a path leads to a directory. -/
def leadsToDirectory (tree : FileTree) (path : Path) : Bool :=
  match tree.find path with
  | .ok (_, .directory) => true
  | _ => false

end FileTree

end TeenyC
