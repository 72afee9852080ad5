import TeenyC.Proofs.FileTree.Search

/-!
# Rooted trees

In a rooted tree all places above an entry are directories.  This is so in every file system, and
in every tree that is planted from nothing.  What is below a directory of a rooted tree is then
what names lead to from there, through directories only.
-/

namespace TeenyC

/-- The place to which names lead down from a directory. -/
def Location.down (directory : Location) (names : List String) : Location :=
  ⟨directory.origin, directory.names ++ names⟩

namespace Location

variable {directory : Location} {names more : List String} {name : String}

@[simp]
theorem down_nil (directory : Location) : directory.down [] = directory := by
  simp [down]

theorem down_cons : directory.down (name :: names) = (directory.child name).down names := by
  simp [down, child]

theorem names_down_ne_nil (nonempty : names ≠ []) : (directory.down names).names ≠ [] := by
  simp [down, nonempty]

end Location

namespace FileTree

/-- A well-formed tree in which every entry has a name and all places above it are directories. -/
structure Rooted (tree : FileTree) : Prop where
  wellFormed : tree.WellFormed
  named : ∀ entry ∈ tree.entries, entry.1.names ≠ []
  reachable : ∀ entry ∈ tree.entries, tree.Reachable entry.1

section Rooted

variable {tree other : FileTree} {location directory : Location} {node : Node}
  {names front : List String} {relative : Path}

instance : DecidablePred tree.Reachable := fun location =>
  inferInstanceAs (Decidable (∀ count < location.names.length,
    tree.isDirectory ⟨location.origin, location.names.take count⟩ = true))

/-! ## Planted trees -/

theorem Reachable.mono (reachable : tree.Reachable location) (keeps : Keeps tree other) :
    other.Reachable location :=
  fun count within => keeps.directory _ (reachable count within)

theorem rooted_empty : Rooted .empty :=
  ⟨wellFormed_empty, nofun, nofun⟩

theorem keptByPut_rooted : KeptByPut Rooted := by
  intro tree location node rooted proper reachable notDirectory
  have keeps := keeps_put notDirectory node
  have isEntry : ∀ entry ∈ (tree.put location node).entries,
      entry.1 = location ∨ entry ∈ tree.entries := by
    intro entry isIn
    rw [put] at isIn
    split at isIn
    · rcases List.mem_map.mp isIn with ⟨before, isBefore, rfl⟩
      split
      · exact .inl rfl
      · exact .inr isBefore
    · rcases List.mem_append.mp isIn with isBefore | isLast
      · exact .inr isBefore
      · exact .inl (congrArg Prod.fst (List.mem_singleton.mp isLast))
  constructor
  · exact rooted.wellFormed.put proper node
  · intro entry isIn
    rcases isEntry entry isIn with same | isBefore
    · rw [same]
      exact names_ne_nil_of_not_isDirectory notDirectory
    · exact rooted.named entry isBefore
  · intro entry isIn
    rcases isEntry entry isIn with same | isBefore
    · rw [same]
      exact reachable.mono keeps
    · exact (rooted.reachable entry isBefore).mono keeps

/-- A tree that is planted from nothing is rooted, even where something could not be planted. -/
theorem rooted_planted (entries : List (Path × Node)) :
    (leaves (entries.forM fun entry => plant entry.1 entry.2) .empty).Rooted :=
  keptByPut_rooted.planted rooted_empty entries

/-! ## Entries -/

/-- What stands at a place with a name is the entry of that place. -/
theorem WellFormed.get?_eq_some_iff (wellFormed : tree.WellFormed) (named : location.names ≠ []) :
    tree.get? location = some node ↔ (location, node) ∈ tree.entries := by
  rw [get?, if_neg named]
  constructor
  · intro found
    rcases Option.map_eq_some_iff.mp found with ⟨⟨place, there⟩, isFound, rfl⟩
    obtain rfl : place = location := by simpa using List.find?_some isFound
    exact List.mem_of_find?_eq_some isFound
  · intro isEntry
    cases found : tree.entries.find? (·.1 == location) with
    | none => simpa using List.find?_eq_none.mp found _ isEntry
    | some entry =>
        have isThere : entry.1 = location := by simpa using List.find?_some found
        have nodup : (tree.entries.map Prod.fst).Nodup := List.pairwise_map.mpr wellFormed.distinct
        rw [List.inj_on_of_nodup_map nodup (List.mem_of_find?_eq_some found) isEntry isThere]
        rfl

/-- What is below a directory stands where names lead down to it. -/
theorem WellFormed.mem_below_iff (wellFormed : tree.WellFormed) :
    (relative, node) ∈ tree.below directory ↔
      relative.absolute = false ∧ relative.pieces ≠ [] ∧
        tree.get? (directory.down relative.pieces) = some node := by
  simp only [below, List.mem_filterMap, below_entry_eq_some_iff]
  constructor
  · rintro ⟨_, isEntry, isRelative, nonempty, rfl⟩
    exact ⟨isRelative, nonempty,
      (wellFormed.get?_eq_some_iff (Location.names_down_ne_nil nonempty)).mpr isEntry⟩
  · rintro ⟨isRelative, nonempty, isNode⟩
    exact ⟨_, (wellFormed.get?_eq_some_iff (Location.names_down_ne_nil nonempty)).mp isNode,
      isRelative, nonempty, rfl⟩

/-- Names that lead down to something lead down one by one. -/
theorem WellFormed.leadsDown_of_get? (wellFormed : tree.WellFormed)
    (isNode : tree.get? (directory.down names) = some node) : ∀ name ∈ names, LeadsDown name := by
  intro name isIn
  have named : (directory.down names).names ≠ [] :=
    Location.names_down_ne_nil (List.ne_nil_of_mem isIn)
  have isEntry := (wellFormed.get?_eq_some_iff named).mp isNode
  exact wellFormed.proper _ isEntry name (List.mem_append_right _ isIn)

/-- On the way down to something there are directories only. -/
theorem Rooted.isDirectory_down (rooted : tree.Rooted)
    (isNode : tree.get? (directory.down names) = some node) (isFront : front <+: names)
    (shorter : front.length < names.length) : tree.isDirectory (directory.down front) = true := by
  have named : (directory.down names).names ≠ [] :=
    Location.names_down_ne_nil (List.ne_nil_of_length_pos (Nat.zero_lt_of_lt shorter))
  have isEntry := (rooted.wellFormed.get?_eq_some_iff named).mp isNode
  have within : directory.names.length + front.length < (directory.down names).names.length := by
    simpa [Location.down] using shorter
  have isDirectory := rooted.reachable _ isEntry _ within
  rcases isFront with ⟨rest, rfl⟩
  rwa [Location.down, ← List.append_assoc, ← List.length_append, List.take_left] at isDirectory

/-! ## The order of entries -/

theorem WellFormed.of_perm (wellFormed : tree.WellFormed)
    (perm : tree.entries.Perm other.entries) : other.WellFormed where
  distinct := (perm.pairwise_iff fun differ => Ne.symm differ).mp wellFormed.distinct
  proper entry isIn := wellFormed.proper entry (perm.mem_iff.mpr isIn)

/-- It makes no difference in which order the entries are kept. -/
theorem WellFormed.get?_of_perm (wellFormed : tree.WellFormed)
    (perm : tree.entries.Perm other.entries) : other.get? = tree.get? := by
  funext location
  by_cases isNil : location.names = []
  · rw [get?, get?, if_pos isNil, if_pos isNil]
  · apply Option.ext
    intro node
    rw [(wellFormed.of_perm perm).get?_eq_some_iff isNil, wellFormed.get?_eq_some_iff isNil,
      perm.mem_iff]

theorem Rooted.of_perm (rooted : tree.Rooted) (perm : tree.entries.Perm other.entries) :
    other.Rooted where
  wellFormed := rooted.wellFormed.of_perm perm
  named entry isIn := rooted.named entry (perm.mem_iff.mpr isIn)
  reachable entry isIn count within := by
    rw [isDirectory, rooted.wellFormed.get?_of_perm perm]
    exact rooted.reachable entry (perm.mem_iff.mpr isIn) count within

/-- A walk asks for nothing but what stands at places. -/
theorem walk_of_get?_eq (same : other.get? = tree.get?) (ending : Ending) (location : Location)
    (steps : List String) : other.walk ending location steps = tree.walk ending location steps := by
  induction steps generalizing location with
  | nil => rfl
  | cons step rest inductionHypothesis =>
      rw [walk, walk, isDirectory, isDirectory, same]
      simp only [inductionHypothesis]

theorem follow_of_get?_eq (same : other.get? = tree.get?) (ending : Ending) (links : Nat)
    (location : Location) (steps : List String) :
    other.follow ending links location steps = tree.follow ending links location steps := by
  induction links generalizing location steps with
  | zero => rw [follow, follow, walk_of_get?_eq same]
  | succ links inductionHypothesis =>
      rw [follow, follow, walk_of_get?_eq same]
      simp only [inductionHypothesis]

theorem find_of_get?_eq (same : other.get? = tree.get?) (path : Path) :
    other.find path = tree.find path := by
  rw [find, find, resolve, resolve, same]
  simp only [follow_of_get?_eq same]

end Rooted

end FileTree

end TeenyC
