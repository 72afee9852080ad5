import TeenyC.FileTree.Resolve

/-!
# Changing file trees

Making directories and links and writing files.  A change that fails leaves the
tree as it is, except that the directories made on the way to a missing one stay.
-/

namespace TeenyC

/-- An operation that changes a file tree and may fail. -/
abbrev Change := EStateM IoError FileTree

namespace FileTree

/-- Let a change fail where a question about the tree fails. -/
def ask {α : Type} (question : FileTree → Except IoError α) : Change α := fun tree =>
  match question tree with
  | .ok answer => .ok answer tree
  | .error error => .error error tree

/-- The directory that holds the last of some steps. -/
def holder (tree : FileTree) (start : Location) (steps : List String) :
    Except IoError Location := do
  match ← tree.follow .followLink linkLimit start steps.dropLast with
  | .missing _ => .error .notFound
  | .found location => if tree.isDirectory location then .ok location else .error .notADirectory

/-- The steps of a path whose last one makes something new; slashes at the end do
not count. -/
def makingSteps (path : Path) : List String :=
  path.pieces.filter (· != "")

/-- Put something new where a path leads.  The last step must be a name that is
not taken; a link of that name takes it. -/
def make (path : Path) (node : Node) : Change Unit := do
  ask fun _ => checkPath path
  let steps := makingSteps path
  let directory ← ask (holder · path.start steps)
  match steps.getLast? with
  | none | some "." | some ".." => throw .alreadyExists
  | some name =>
    if isTooLong name then
      throw .nameTooLong
    if ((← get).get? (directory.child name)).isSome then
      throw .alreadyExists
    modify (·.put (directory.child name) node)

/-- Make a directory. -/
def makeDirectory (path : Path) : Change Unit :=
  make path .directory

/-- Make the first of some directories, and those after it as far as they are
needed for it. -/
def makeUpward : List Path → Change Unit
  | [] => pure ()
  | path :: above => fun tree =>
    match makeDirectory path tree with
    | .ok () after => .ok () after
    | .error .notFound after =>
      match makeUpward above after with
      | .error error after => .error error after
      | .ok () after =>
        match makeDirectory path after with
        | .ok () after => .ok () after
        | .error error after =>
          if after.leadsToDirectory path then .ok () after else .error error after
    | .error error after =>
      if after.leadsToDirectory path then .ok () after else .error error after

/-- Make a directory together with the missing ones above it.  A directory that
exists is left alone. -/
def makeDirectories (path : Path) : Change Unit :=
  makeUpward path.upward

/-- Write a file, in place of one that exists.  Links are followed, and a link that
leads nowhere gets a file to lead to. -/
def write (path : Path) (data : Bytes) : Change Unit := do
  match ← ask (·.resolve .writeFile path) with
  | .missing location => modify (·.put location (.file data))
  | .found location =>
    if (← get).isDirectory location then
      throw .isADirectory
    modify (·.put location (.file data))

/-- Put something where a path leads, and make the missing directories above it. -/
def plant (path : Path) (node : Node) : Change Unit := do
  if let some above := path.parent? then
    makeDirectories above
  match node with
  | .file data => write path data
  | .directory => makeDirectories path
  | .link target => make path (.link target)

end FileTree

end TeenyC
