import TeenyC.FileTree.Location
import TeenyC.Text.Utf8

/-!
# File trees

Files, directories and symbolic links, each at a location.  The directories that
are always there are not kept in the tree.  What is outside the working directory
is not known to it, unless it was put there.
-/

namespace TeenyC

/-- What stands at a place. -/
inductive Node where
  | file (data : Bytes)
  | directory
  | link (target : String)
  deriving DecidableEq

/-- A file tree, without the directories that are always there. -/
structure FileTree where
  entries : List (Location × Node)
  deriving DecidableEq

namespace FileTree

/-- The tree with nothing in it. -/
def empty : FileTree := ⟨[]⟩

/-- What stands at a location. -/
def get? (tree : FileTree) (location : Location) : Option Node :=
  if location.names = [] then
    some .directory
  else
    (tree.entries.find? (·.1 == location)).map (·.2)

/-- Whether a directory stands at a location. -/
def isDirectory (tree : FileTree) (location : Location) : Bool :=
  tree.get? location = some .directory

/-- Put something at a location, in place of what stands there. -/
def put (tree : FileTree) (location : Location) (node : Node) : FileTree :=
  if tree.entries.any (·.1 == location) then
    ⟨tree.entries.map fun entry => if entry.1 = location then (location, node) else entry⟩
  else
    ⟨tree.entries ++ [(location, node)]⟩

/-- All that is below the working directory, ordered by the texts that lead
there. -/
def listing (tree : FileTree) : List (String × Node) :=
  let below := tree.entries.filterMap fun entry =>
    (Location.top.below? entry.1).map fun names => ("/".intercalate names, entry.2)
  below.mergeSort fun first second => first.1 ≤ second.1

/-! ## What putting does -/

/-- A location without names is a directory. -/
theorem get?_origin (tree : FileTree) (origin : Origin) :
    tree.get? ⟨origin, []⟩ = some .directory := by
  simp [get?]

private theorem find?_replace (entries : List (Location × Node)) (location other : Location)
    (node : Node) :
    ((entries.map fun entry => if entry.1 = location then (location, node) else entry).find?
        (·.1 == other)).map (·.2) =
      if other = location ∧ entries.any (·.1 == location) then some node
      else (entries.find? (·.1 == other)).map (·.2) := by
  induction entries with
  | nil => simp
  | cons entry rest inductionHypothesis =>
      rw [List.map_cons, List.find?_cons, List.find?_cons, List.any_cons]
      by_cases here : entry.1 = location
      · by_cases same : location = other
        · subst same
          simp [here]
        · have different : ¬ other = location := fun equal => same equal.symm
          simp only [here, if_true, beq_eq_false_iff_ne.mpr same]
          rw [inductionHypothesis]
          simp [different]
      · by_cases same : entry.1 = other
        · have different : ¬ other = location := fun equal => here (same.trans equal)
          simp [same, different]
        · simp only [here, if_false, beq_eq_false_iff_ne.mpr same, beq_eq_false_iff_ne.mpr here,
            Bool.false_or]
          exact inductionHypothesis

/-- Putting something at a location changes what stands there and nothing else. -/
theorem get?_put (tree : FileTree) {location : Location} (node : Node) (other : Location)
    (named : location.names ≠ []) :
    (tree.put location node).get? other =
      if other = location then some node else tree.get? other := by
  by_cases unnamed : other.names = []
  · have different : other ≠ location := fun equal => named (equal ▸ unnamed)
    simp [get?, unnamed, different]
  · simp only [get?, put, unnamed, if_false]
    split
    · next present =>
        rw [find?_replace]
        simp [present]
    · next absent =>
        have missing : tree.entries.find? (·.1 == location) = none := by
          rw [List.find?_eq_none]
          intro entry isEntry same
          exact absent (List.any_eq_true.mpr ⟨entry, isEntry, same⟩)
        rw [List.find?_append]
        by_cases same : other = location
        · subst same
          simp [missing]
        · have different : ¬ location = other := fun equal => same equal.symm
          simp [same, different]

end FileTree

end TeenyC
