import TeenyC.FileTree.Resolve

/-!
# Source files

The Teeny programs below a directory.  A program is a file, or a link to one, whose
extension is `teeny`.  Links to directories are not entered, unless the search
starts at one.
-/

namespace TeenyC

/-- A file that a search has met. -/
structure FoundFile where
  /-- The path from where the search started. -/
  relative : Path
  data : Bytes

/-- Why a search for programs failed. -/
inductive SourceError where
  /-- A path could not be looked at. -/
  | walk (path : Path) (error : IoError)
  /-- A program could not be read. -/
  | read (error : IoError)
  deriving DecidableEq

/-- The cause of a failed search, and the causes behind it. -/
def SourceError.causes : SourceError → List String
  | walk path error =>
    ["IO error for operation on " ++ path.text ++ ": " ++ error.message, error.message]
  | read error => [error.message]

/-- The message of a failed search. -/
def SourceError.message (error : SourceError) : String :=
  "failed to read source: " ++ error.causes.headD ""

/-! ## Searching a file tree -/

namespace FileTree

/-- The data of the file that a path leads to. -/
def fileAt? (tree : FileTree) (path : Path) : Option Bytes :=
  match tree.find path with
  | .ok (_, .file data) => some data
  | _ => none

/-- What a directory holds at any depth, each with its path from there. -/
def below (tree : FileTree) (directory : Location) : List (Path × Node) :=
  tree.entries.filterMap fun entry =>
    (directory.below? entry.1).map fun names => (⟨false, names⟩, entry.2)

/-- The first of the directories below another that cannot be asked for by its
path, which continues the path of the other. -/
def firstClosed? (tree : FileTree) (root : Path) (directory : Location) :
    Option (Path × IoError) :=
  (tree.below directory).findSome? fun (relative, node) =>
    if node = .directory then
      let path := root.join relative
      match tree.find path with
      | .ok _ => none
      | .error error => some (path, error)
    else
      none

/-- The files below a directory that a test on their paths selects.  All paths
continue the path of the directory. -/
def filesBelowDirectory (tree : FileTree) (root : Path) (directory : Location)
    (selects : Path → Bool) : List FoundFile :=
  (tree.below directory).filterMap fun (relative, _) =>
    if selects relative then
      (tree.fileAt? (root.join relative)).map fun data => ⟨relative, data⟩
    else
      none

/-- The files at or below a path that a test on their paths selects.  A path that
leads to a file finds that file alone, at the empty path from there. -/
def filesBelow (tree : FileTree) (root : Path) (selects : Path → Bool) :
    Except SourceError (List FoundFile) := do
  match tree.resolve .keepLink root with
  | .error error => .error (.walk root error)
  | .ok (.missing _) => .error (.walk root .notFound)
  | .ok (.found _) =>
    match tree.find root with
    | .error error => .error (.walk root error)
    | .ok (directory, .directory) =>
      match tree.firstClosed? root directory with
      | some (path, error) => .error (.walk path error)
      | none => .ok (tree.filesBelowDirectory root directory selects)
    | .ok (_, .file data) =>
      .ok (if selects root then [⟨.ofString "", data⟩] else [])
    | .ok (_, .link _) => .ok []

end FileTree

/-! ## Programs -/

/-- A Teeny program with the path at which it was found. -/
structure SourceFile where
  path : Path
  contents : String
  deriving DecidableEq

/-- Whether a path has the extension of Teeny programs. -/
def isSourcePath (path : Path) : Bool :=
  path.extension? == some "teeny"

/-- The program in a file. -/
def FoundFile.source (file : FoundFile) : Except SourceError SourceFile :=
  match file.data.text? with
  | some contents => .ok ⟨file.relative, contents⟩
  | none => .error (.read .invalidText)

/-- Whether a list of names comes no later than another, compared name by name. -/
def namesUpTo : List String → List String → Bool
  | [], _ => true
  | _ :: _, [] => false
  | first :: rest, other :: others =>
    if first = other then namesUpTo rest others else first < other

/-- The programs in some files, ordered by the names of their paths. -/
def sourcesOf (files : List FoundFile) : Except SourceError (List SourceFile) := do
  let sources ← files.mapM FoundFile.source
  return sources.mergeSort fun first second => namesUpTo first.path.names second.path.names

/-- The programs at or below a path of a file tree. -/
def FileTree.sources (tree : FileTree) (root : Path) : Except SourceError (List SourceFile) := do
  sourcesOf (← tree.filesBelow root isSourcePath)

end TeenyC
