/-!
# Locations

The places of a file system, as a working directory sees them.  Some directories
are always there: the working directory itself, the directories above it, and the
one at which absolute paths start.  Every other place is reached by names from one
of these.
-/

namespace TeenyC

/-- A directory that is always there. -/
inductive Origin where
  /-- The directory so many levels above the working directory, which is itself at
  level zero. -/
  | above (levels : Nat)
  /-- The directory at which absolute paths start. -/
  | root
  deriving DecidableEq

/-- A place in a file system: the names that lead to it from a directory that is
always there. -/
structure Location where
  origin : Origin
  names : List String
  deriving DecidableEq

namespace Location

/-- The working directory. -/
def top : Location := ⟨.above 0, []⟩

/-- The start of absolute paths. -/
def root : Location := ⟨.root, []⟩

/-- The place of a name in a directory. -/
def child (location : Location) (name : String) : Location :=
  { location with names := location.names ++ [name] }

/-- The directory that holds a place.  The start of absolute paths holds itself. -/
def up (location : Location) : Location :=
  match location.names, location.origin with
  | [], .above levels => ⟨.above (levels + 1), []⟩
  | [], .root => root
  | names, origin => ⟨origin, names.dropLast⟩

@[simp]
theorem up_child (location : Location) (name : String) : (location.child name).up = location := by
  obtain ⟨origin, names⟩ := location
  cases names with
  | nil => rfl
  | cons first rest =>
      change Location.mk origin ((first :: rest) ++ [name]).dropLast = _
      rw [List.dropLast_concat]

@[simp]
theorem names_child_ne_nil (location : Location) (name : String) :
    (location.child name).names ≠ [] := by
  simp [child]

/-- The names that lead from a directory to a place below it. -/
def below? (directory location : Location) : Option (List String) :=
  if directory.origin = location.origin ∧ directory.names.isPrefixOf location.names ∧
      directory.names.length < location.names.length then
    some (location.names.drop directory.names.length)
  else
    none

end Location

end TeenyC
