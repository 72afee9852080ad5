import TeenyC.Proofs.FileTree.Growth

/-!
# Well-formed trees

In a well-formed tree nothing is kept twice, and every location is reached by names that lead
down.  The empty tree is well-formed, and no change makes a tree anything else, so all trees that
come up are well-formed.
-/

namespace TeenyC

/-! ## Locations that walks reach -/

/-- All names on the way to the location lead down. -/
def Location.Proper (location : Location) : Prop :=
  ∀ name ∈ location.names, LeadsDown name

instance : DecidablePred Location.Proper := fun location =>
  inferInstanceAs (Decidable (∀ name ∈ location.names, LeadsDown name))

section Walks

variable {location : Location} {name : String}

theorem Location.Proper.child (proper : location.Proper) (down : LeadsDown name) :
    (location.child name).Proper := by
  intro other isIn
  rcases List.mem_append.mp isIn with isAbove | isLast
  · exact proper other isAbove
  · exact List.mem_singleton.mp isLast ▸ down

theorem Location.Proper.up (proper : location.Proper) : location.up.Proper := by
  obtain ⟨origin, names⟩ := location
  cases names with
  | nil => cases origin <;> exact nofun
  | cons first rest => exact fun other isIn => proper other (List.dropLast_subset _ isIn)

namespace FileTree

variable {tree : FileTree} {ending : Ending} {steps : List String} {arrival : Arrival}
  {holds : Location → Prop}

/-- Walks in the tree do not leave the locations of which it holds. -/
structure Confines (tree : FileTree) (holds : Location → Prop) : Prop where
  start : ∀ path : Path, holds path.start
  up : ∀ {location : Location}, holds location → holds location.up
  child : ∀ {location : Location} {name : String}, holds location →
    tree.isDirectory location = true → LeadsDown name → holds (location.child name)

theorem Confines.walk (confines : tree.Confines holds) (isStart : holds location) :
    (∀ arrival, tree.walk ending location steps = .arrived arrival → holds arrival.location) ∧
      ∀ target further, tree.walk ending location steps = .redirected target further →
        holds target := by
  induction steps generalizing location with
  | nil =>
      rw [FileTree.walk]
      refine ⟨?_, by simp⟩
      rintro _ ⟨⟩
      exact isStart
  | cons step rest inductionHypothesis =>
      by_cases isDirectory : tree.isDirectory location = true
      · rcases step_cases step with idle | rfl | down
        · rw [walk_of_idle isDirectory idle]
          exact inductionHypothesis isStart
        · rw [walk_of_dots isDirectory]
          exact inductionHypothesis (confines.up isStart)
        · rw [walk_of_name isDirectory down]
          have holdsChild := confines.child isStart isDirectory down
          split
          · simp
          split
          · simp
          split
          · split
            · refine ⟨?_, by simp⟩
              rintro _ ⟨⟩
              exact holdsChild
            · simp
          · next target _ =>
              split
              · refine ⟨?_, by simp⟩
                rintro _ ⟨⟩
                exact holdsChild
              · refine ⟨by simp, ?_⟩
                rintro _ _ ⟨⟩
                split
                · exact confines.start ⟨true, []⟩
                · exact isStart
          · exact inductionHypothesis holdsChild
      · rw [FileTree.walk, if_pos (by simpa using isDirectory)]
        simp

theorem Confines.follow (confines : tree.Confines holds) {links : Nat} (isStart : holds location)
    (followed : tree.follow ending links location steps = .ok arrival) :
    holds arrival.location := by
  fun_induction FileTree.follow tree ending links location steps with
  | case1 links location steps reached walked =>
      cases followed
      exact (confines.walk isStart).1 _ walked
  | case2 => cases followed
  | case3 => cases followed
  | case4 location steps target further walked links inductionHypothesis =>
      exact inductionHypothesis ((confines.walk isStart).2 _ _ walked) followed

theorem Confines.resolve (confines : tree.Confines holds) {path : Path}
    (resolved : tree.resolve ending path = .ok arrival) : holds arrival.location :=
  confines.follow (confines.start path) (resolve_eq_ok_iff_follow.mp resolved).2

theorem confines_proper (tree : FileTree) : tree.Confines Location.Proper where
  start path := by
    rw [Path.start]
    split <;> exact nofun
  up proper := proper.up
  child proper _ down := proper.child down

theorem confines_reachable (tree : FileTree) : tree.Confines tree.Reachable where
  start := reachable_start tree
  up reachable := reachable.up.2
  child reachable isDirectory _ := reachable.child isDirectory _

end FileTree

end Walks

/-! ## What changes preserve -/

namespace FileTree

section Changes

variable {tree : FileTree} {path : Path} {α β : Type} {holds : FileTree → Prop}

/-- The change leaves trees of which it holds as such trees, whether it succeeds or not. -/
def Preserves (holds : FileTree → Prop) (action : Change α) : Prop :=
  ∀ tree : FileTree, holds tree → holds (leaves action tree)

/-- It goes on to hold when something is put into a directory that a walk has come to, where no
directory stands. -/
def KeptByPut (holds : FileTree → Prop) : Prop :=
  ∀ ⦃tree : FileTree⦄ ⦃location : Location⦄ (node : Node), holds tree → location.Proper →
    tree.Reachable location → tree.isDirectory location = false → holds (tree.put location node)

theorem KeptByPut.make (kept : KeptByPut holds) (path : Path) (node : Node) :
    Preserves holds (make path node) := by
  intro tree isHeld
  rw [leaves]
  generalize made : FileTree.make path node tree = result
  rcases make_cases made with
    ⟨error, rfl⟩ | ⟨directory, name, held, isLast, notDot, notDots, free, rfl⟩
  · exact isHeld
  · have down : LeadsDown name :=
      ⟨fun isEmpty => getLast?_makingSteps_ne_empty path (isEmpty ▸ isLast), notDot, notDots⟩
    obtain ⟨followed, isDirectory⟩ := holder_eq_ok held
    have proper := (confines_proper tree).follow ((confines_proper tree).start path) followed
    have reachable := (confines_reachable tree).follow (reachable_start tree path) followed
    exact kept node isHeld (proper.child down) (reachable.child isDirectory name)
      (not_isDirectory_of_none free)

theorem KeptByPut.makeUpward (kept : KeptByPut holds) (paths : List Path) :
    Preserves holds (makeUpward paths) := by
  induction paths with
  | nil => exact fun tree isHeld => isHeld
  | cons path above inductionHypothesis =>
      intro tree isHeld
      have first := kept.make path .directory tree isHeld
      have second := inductionHypothesis _ first
      have third := kept.make path .directory _ second
      rcases leaves_makeUpward_cons path above tree with same | same | same
      · exact same ▸ first
      · exact same ▸ second
      · exact same ▸ third

theorem KeptByPut.write (kept : KeptByPut holds) (path : Path) (data : Bytes) :
    Preserves holds (write path data) := by
  intro tree isHeld
  rw [leaves]
  generalize written : FileTree.write path data tree = result
  rcases write_cases written with ⟨error, rfl⟩ | ⟨arrival, resolved, notDirectory, rfl⟩
  · exact isHeld
  · have proper := (confines_proper tree).resolve resolved
    have reachable := (confines_reachable tree).resolve resolved
    cases arrival with
    | found location => exact kept _ isHeld proper reachable (notDirectory location rfl)
    | missing location =>
        exact kept _ isHeld proper reachable
          (not_isDirectory_of_none (get?_of_resolve_missing resolved))

theorem Preserves.bind {action : Change α} {next : α → Change β} (first : Preserves holds action)
    (rest : ∀ value, Preserves holds (next value)) : Preserves holds (action >>= next) := by
  intro tree isHeld
  have after := first tree isHeld
  rw [leaves] at after
  change holds (leaves (EStateM.bind action next) tree)
  rw [leaves, EStateM.bind]
  cases ran : action tree with
  | ok value middle =>
      rw [ran] at after
      exact rest value middle after
  | error error middle =>
      rw [ran] at after
      exact after

/-- It makes no difference to this that the directories above a path are made first. -/
theorem KeptByPut.below (kept : KeptByPut holds) {action : Change Unit}
    (preserves : Preserves holds action) (path : Path) :
    Preserves holds (do
      if let some above := path.parent? then
        makeDirectories above
      action) := by
  split
  · exact (kept.makeUpward _).bind fun _ => preserves
  · exact preserves

theorem KeptByPut.plant (kept : KeptByPut holds) (path : Path) (node : Node) :
    Preserves holds (plant path node) := by
  cases node with
  | file data => exact kept.below (kept.write path data) path
  | directory => exact kept.below (kept.makeUpward path.upward) path
  | link target => exact kept.below (kept.make path (.link target)) path

/-- What holds of the empty tree and is kept when something is put into a directory holds of every
tree that is planted from nothing, even where something could not be planted. -/
theorem KeptByPut.planted (kept : KeptByPut holds) (ofEmpty : holds .empty)
    (entries : List (Path × Node)) :
    holds (leaves (entries.forM fun entry => FileTree.plant entry.1 entry.2) .empty) := by
  have preserves : Preserves holds (entries.forM fun entry => FileTree.plant entry.1 entry.2) := by
    induction entries with
    | nil => exact fun tree isHeld => isHeld
    | cons entry rest inductionHypothesis =>
        exact (kept.plant entry.1 entry.2).bind fun _ => inductionHypothesis
  exact preserves .empty ofEmpty

end Changes

/-! ## Well-formedness -/

/-- A file tree in which nothing is kept twice, and every location is reached by names that lead
down. -/
structure WellFormed (tree : FileTree) : Prop where
  distinct : tree.entries.Pairwise fun first second => first.1 ≠ second.1
  proper : ∀ entry ∈ tree.entries, entry.1.Proper

variable {tree : FileTree} {location : Location}

theorem wellFormed_empty : WellFormed .empty :=
  ⟨.nil, nofun⟩

theorem WellFormed.put (wellFormed : tree.WellFormed) (proper : location.Proper) (node : Node) :
    (tree.put location node).WellFormed := by
  rw [FileTree.put]
  split
  · -- An entry that is replaced keeps its location.
    have keeps (entry : Location × Node) :
        (if entry.1 = location then (location, node) else entry).1 = entry.1 := by
      split
      · next here => exact here.symm
      · rfl
    constructor
    · refine List.pairwise_map.mpr (wellFormed.distinct.imp ?_)
      intro first second differ
      rwa [keeps, keeps]
    · intro entry isIn
      obtain ⟨other, isOther, rfl⟩ := List.mem_map.mp isIn
      rw [keeps]
      exact wellFormed.proper other isOther
  · next absent =>
      constructor
      · refine List.pairwise_append.mpr ⟨wellFormed.distinct, List.pairwise_singleton .., ?_⟩
        intro entry isEntry last isLast same
        rw [List.mem_singleton.mp isLast] at same
        exact absent (List.any_eq_true.mpr ⟨entry, isEntry, beq_iff_eq.mpr same⟩)
      · intro entry isIn
        rcases List.mem_append.mp isIn with isEntry | isLast
        · exact wellFormed.proper entry isEntry
        · rwa [List.mem_singleton.mp isLast]

theorem keptByPut_wellFormed : KeptByPut WellFormed :=
  fun _ _ node wellFormed proper _ _ => wellFormed.put proper node

/-- A tree that is planted from nothing is well-formed, even where something could not be
planted. -/
theorem wellFormed_planted (entries : List (Path × Node)) :
    (leaves (entries.forM fun entry => plant entry.1 entry.2) .empty).WellFormed :=
  keptByPut_wellFormed.planted wellFormed_empty entries

end FileTree

end TeenyC
