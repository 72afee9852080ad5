import TeenyC.FileTree.Change
import TeenyC.Proofs.FileTree.Walk

/-!
# Growing trees

What changes do to a tree without links.  Making directories adds directories where nothing
was, on the way to the one that is wanted; writing a file puts it at the destination of its
path, where no directory may stand.  Neither takes anything else away, so paths that could be
followed before can be followed afterwards.
-/

namespace TeenyC

namespace FileTree

/-! ## Growth -/

/-- At the location the second tree has what the first one has, or a directory that was made
where the first one has nothing. -/
def GrowsAt (made : Location → Prop) (before after : FileTree) (location : Location) : Prop :=
  after.get? location = before.get? location ∨
    (before.get? location = none ∧ after.get? location = some .directory ∧ made location)

/-- The second tree has what the first one has, and besides that only directories that were made
where the first one has nothing. -/
def Grows (made : Location → Prop) (before after : FileTree) : Prop :=
  ∀ location, GrowsAt made before after location

section Growth

variable {made other : Location → Prop} {before middle after tree : FileTree}
  {location : Location}

theorem GrowsAt.mono (grows : GrowsAt made before after location)
    (wider : ∀ location, made location → other location) :
    GrowsAt other before after location :=
  grows.imp_right fun ⟨nothing, isDirectory, isMade⟩ => ⟨nothing, isDirectory, wider _ isMade⟩

theorem GrowsAt.trans (first : GrowsAt made before middle location)
    (second : GrowsAt made middle after location) : GrowsAt made before after location := by
  rcases second with same | ⟨nothing, isDirectory, isMade⟩
  · rw [GrowsAt, same]
    exact first
  · rcases first with same | ⟨_, present, _⟩
    · exact .inr ⟨same ▸ nothing, isDirectory, isMade⟩
    · cases nothing.symm.trans present

theorem GrowsAt.get?_eq (grows : GrowsAt made before after location)
    (present : before.get? location ≠ none) : after.get? location = before.get? location :=
  grows.resolve_right fun added => present added.1

theorem Grows.refl (made : Location → Prop) (tree : FileTree) : Grows made tree tree :=
  fun _ => .inl rfl

theorem Grows.mono (grows : Grows made before after)
    (wider : ∀ location, made location → other location) : Grows other before after :=
  fun location => (grows location).mono wider

theorem Grows.trans (first : Grows made before middle) (second : Grows made middle after) :
    Grows made before after :=
  fun location => (first location).trans (second location)

theorem Grows.keeps (grows : Grows made before after) : Keeps before after where
  directory location isDirectory := by
    rw [FileTree.isDirectory, decide_eq_true_iff] at isDirectory ⊢
    rw [(grows location).get?_eq (by simp [isDirectory]), isDirectory]
  present location present := by rwa [(grows location).get?_eq present]

theorem Grows.linkFree (grows : Grows made before after) (linkFree : before.LinkFree) :
    after.LinkFree := by
  intro location target isLink
  rcases grows location with same | ⟨_, isDirectory, _⟩
  · exact linkFree location target (same ▸ isLink)
  · cases isLink.symm.trans isDirectory

theorem names_ne_nil_of_not_isDirectory (notDirectory : tree.isDirectory location = false) :
    location.names ≠ [] := by
  intro isNil
  rcases location with ⟨origin, names⟩
  obtain rfl : names = [] := isNil
  rw [isDirectory_origin] at notDirectory
  cases notDirectory

theorem not_isDirectory_of_none (nothing : tree.get? location = none) :
    tree.isDirectory location = false := by
  simp [isDirectory, nothing]

/-- What stands in a tree when something was put where no directory stands. -/
theorem get?_put_of_not_isDirectory (notDirectory : tree.isDirectory location = false)
    (node : Node) (other : Location) :
    (tree.put location node).get? other = if other = location then some node else tree.get? other :=
  get?_put tree node other (names_ne_nil_of_not_isDirectory notDirectory)

theorem grows_put_directory (nothing : tree.get? location = none) :
    Grows (· = location) tree (tree.put location .directory) := by
  intro other
  rw [GrowsAt, get?_put_of_not_isDirectory (not_isDirectory_of_none nothing)]
  split
  · next same => exact .inr ⟨same ▸ nothing, rfl, same⟩
  · exact .inl rfl

theorem keeps_put (notDirectory : tree.isDirectory location = false) (node : Node) :
    Keeps tree (tree.put location node) where
  directory other isDirectory := by
    rw [FileTree.isDirectory, decide_eq_true_iff] at isDirectory ⊢
    rw [get?_put_of_not_isDirectory notDirectory, if_neg, isDirectory]
    rintro rfl
    rw [FileTree.isDirectory, decide_eq_false_iff_not] at notDirectory
    exact notDirectory isDirectory
  present other present := by
    rw [get?_put_of_not_isDirectory notDirectory]
    split
    · simp
    · exact present

theorem linkFree_put_file (linkFree : tree.LinkFree)
    (notDirectory : tree.isDirectory location = false) (data : Bytes) :
    (tree.put location (.file data)).LinkFree := by
  intro other target isLink
  rw [get?_put_of_not_isDirectory notDirectory] at isLink
  split at isLink
  · cases isLink
  · exact linkFree other target isLink

end Growth

/-! ## Making directories -/

/-- The tree that a change leaves, whether it succeeds or not. -/
def leaves {α : Type} (action : Change α) (tree : FileTree) : FileTree :=
  match action tree with
  | .ok _ after => after
  | .error _ after => after

section Making

variable {tree : FileTree} {path : Path} {node : Node} {start location : Location}
  {steps : List String}

theorem holder_eq_ok (held : tree.holder start steps = .ok location) :
    tree.follow .followLink linkLimit start steps.dropLast = .ok (.found location) ∧
      tree.isDirectory location = true := by
  rw [holder] at held
  cases followed : tree.follow .followLink linkLimit start steps.dropLast with
  | error error => rw [followed] at held; cases held
  | ok arrival =>
      rw [followed] at held
      cases arrival with
      | missing target => cases held
      | found target =>
          change (if tree.isDirectory target then Except.ok target
            else .error IoError.notADirectory) = .ok location at held
          split at held
          · next isDirectory =>
              cases held
              exact ⟨rfl, isDirectory⟩
          · cases held

theorem location_of_holder (linkFree : tree.LinkFree)
    (held : tree.holder start steps = .ok location) :
    location = start.after steps.dropLast :=
  location_of_walk linkFree ((follow_eq_ok_iff linkFree).mp (holder_eq_ok held).1)

theorem ask_bind {α β : Type} (question : FileTree → Except IoError α) (next : α → Change β)
    (tree : FileTree) :
    (ask question >>= next) tree =
      match question tree with
      | .ok answer => next answer tree
      | .error error => .error error tree := by
  change EStateM.bind _ _ tree = _
  unfold EStateM.bind ask
  cases question tree <;> rfl

/-- Making something fails and changes nothing, or puts it under a free name into the directory
that holds the last step. -/
theorem make_cases {result : EStateM.Result IoError FileTree Unit}
    (made : make path node tree = result) :
    (∃ error, result = .error error tree) ∨
      ∃ directory name, tree.holder path.start (makingSteps path) = .ok directory ∧
        (makingSteps path).getLast? = some name ∧ name ≠ "." ∧ name ≠ ".." ∧
        tree.get? (directory.child name) = none ∧
        result = .ok () (tree.put (directory.child name) node) := by
  unfold make at made
  rw [ask_bind] at made
  cases checked : checkPath path with
  | error error =>
      rw [checked] at made
      exact .inl ⟨error, made.symm⟩
  | ok answer =>
      rw [checked] at made
      dsimp only at made
      rw [ask_bind] at made
      cases held : tree.holder path.start (makingSteps path) with
      | error error =>
          rw [held] at made
          exact .inl ⟨error, made.symm⟩
      | ok directory =>
          rw [held] at made
          dsimp only at made
          -- The cases are split on the run of the action, which is the action on the tree.
          change EStateM.run _ tree = result at made
          split at made
          · exact .inl ⟨_, made.symm⟩
          · exact .inl ⟨_, made.symm⟩
          · exact .inl ⟨_, made.symm⟩
          · next name notDot notDots isLast =>
              split at made
              · exact .inl ⟨_, made.symm⟩
              change EStateM.run (if (tree.get? (directory.child name)).isSome then _ else _) tree =
                result at made
              split at made
              · exact .inl ⟨_, made.symm⟩
              · next free =>
                  exact .inr ⟨directory, name, rfl, isLast, notDot, notDots, by simpa using free,
                    made.symm⟩

theorem getLast?_makingSteps_ne_empty (path : Path) : (makingSteps path).getLast? ≠ some "" := by
  intro isLast
  have isStep := List.mem_of_getLast? isLast
  simp [makingSteps] at isStep

theorem after_makingSteps (path : Path) : path.start.after (makingSteps path) = path.destination :=
  Location.after_filter (by simp) _ _

/-- Without links, making something fails and changes nothing, or puts it at the destination of
its path, where nothing was. -/
theorem make_destination_cases {result : EStateM.Result IoError FileTree Unit}
    (linkFree : tree.LinkFree) (made : make path node tree = result) :
    (∃ error, result = .error error tree) ∨
      (tree.get? path.destination = none ∧
        result = .ok () (tree.put path.destination node)) := by
  rcases make_cases made with fails | ⟨directory, name, held, isLast, notDot, notDots, free, isOk⟩
  · exact .inl fails
  · have down : LeadsDown name :=
      ⟨fun isEmpty => getLast?_makingSteps_ne_empty path (isEmpty ▸ isLast), notDot, notDots⟩
    have isDestination : directory.child name = path.destination := by
      obtain ⟨before, isSteps⟩ := List.getLast?_eq_some_iff.mp isLast
      rw [location_of_holder linkFree held, ← after_makingSteps, isSteps, List.dropLast_concat,
        Location.after_append, ← Location.step_of_leadsDown down]
      rfl
    rw [isDestination] at free isOk
    exact .inr ⟨free, isOk⟩

theorem makeDirectory_grows (linkFree : tree.LinkFree) (path : Path) :
    Grows (· = path.destination) tree (leaves (makeDirectory path) tree) := by
  rw [leaves]
  generalize made : makeDirectory path tree = result
  rcases make_destination_cases linkFree made with ⟨error, rfl⟩ | ⟨free, rfl⟩
  · exact Grows.refl _ tree
  · exact grows_put_directory free

/-- Making directories upward tries to make the first one, then those above it, then the first
one again, and may stop in between. -/
theorem leaves_makeUpward_cons (path : Path) (above : List Path) (tree : FileTree) :
    leaves (makeUpward (path :: above)) tree = leaves (makeDirectory path) tree ∨
      leaves (makeUpward (path :: above)) tree =
        leaves (makeUpward above) (leaves (makeDirectory path) tree) ∨
      leaves (makeUpward (path :: above)) tree = leaves (makeDirectory path)
        (leaves (makeUpward above) (leaves (makeDirectory path) tree)) := by
  cases first : makeDirectory path tree with
  | ok done after =>
      left
      simp only [leaves, makeUpward, first]
  | error error after =>
      by_cases notFound : error = .notFound
      · subst notFound
        right
        cases second : makeUpward above after with
        | error error middle =>
            left
            simp only [leaves, makeUpward, first, second]
        | ok done middle =>
            right
            cases third : makeDirectory path middle with
            | ok done last => simp only [leaves, makeUpward, first, second, third]
            | error error last =>
                cases leads : last.leadsToDirectory path <;>
                  simp [leaves, makeUpward, first, second, third, leads]
      · left
        cases leads : after.leadsToDirectory path <;>
          simp [leaves, makeUpward, first, leads]

/-- The location is the destination of one of the paths. -/
def IsDestination (paths : List Path) (location : Location) : Prop :=
  ∃ path ∈ paths, location = path.destination

/-- Making directories adds directories only, and only at destinations of the paths it is asked
for. -/
theorem makeUpward_grows (linkFree : tree.LinkFree) (paths : List Path) :
    Grows (IsDestination paths) tree (leaves (makeUpward paths) tree) := by
  induction paths generalizing tree with
  | nil => exact Grows.refl _ tree
  | cons path above inductionHypothesis =>
      have onPath : ∀ other : FileTree, other.LinkFree →
          Grows (IsDestination (path :: above)) other (leaves (makeDirectory path) other) :=
        fun other otherLinkFree => (makeDirectory_grows otherLinkFree path).mono
          fun _ same => ⟨path, List.mem_cons_self, same⟩
      have onAbove : ∀ other : FileTree, other.LinkFree →
          Grows (IsDestination (path :: above)) other (leaves (makeUpward above) other) :=
        fun other otherLinkFree => (inductionHypothesis otherLinkFree).mono
          fun _ ⟨higher, isIn, same⟩ => ⟨higher, List.mem_cons_of_mem _ isIn, same⟩
      have first := onPath tree linkFree
      have second := first.trans (onAbove _ (first.linkFree linkFree))
      have third := second.trans (onPath _ (second.linkFree linkFree))
      rcases leaves_makeUpward_cons path above tree with same | same | same
      · exact same ▸ first
      · exact same ▸ second
      · exact same ▸ third

/-! ## Writing files -/

/-- Writing a file fails and changes nothing, or puts the file where its path arrives. -/
theorem write_cases {data : Bytes} {result : EStateM.Result IoError FileTree Unit}
    (written : write path data tree = result) :
    (∃ error, result = .error error tree) ∨
      ∃ arrival, tree.resolve .writeFile path = .ok arrival ∧
        (∀ location, arrival = .found location → tree.isDirectory location = false) ∧
        result = .ok () (tree.put arrival.location (.file data)) := by
  unfold write at written
  rw [ask_bind] at written
  cases resolved : tree.resolve .writeFile path with
  | error error =>
      rw [resolved] at written
      exact .inl ⟨error, written.symm⟩
  | ok arrival =>
      rw [resolved] at written
      cases arrival with
      | missing location => exact .inr ⟨_, rfl, nofun, written.symm⟩
      | found location =>
          change EStateM.run (if tree.isDirectory location then _ else _) tree = result at written
          split at written
          · exact .inl ⟨_, written.symm⟩
          · next notDirectory =>
              refine .inr ⟨_, rfl, ?_, written.symm⟩
              rintro _ ⟨⟩
              simpa using notDirectory

/-- Without links a file is put at the destination of its path, where no directory stands. -/
theorem write_eq_ok {data : Bytes} {after : FileTree} (linkFree : tree.LinkFree)
    (written : write path data tree = .ok () after) :
    ∃ arrival, tree.resolve .writeFile path = .ok arrival ∧
      tree.isDirectory path.destination = false ∧
      after = tree.put path.destination (.file data) := by
  rcases write_cases written with ⟨error, fails⟩ | ⟨arrival, resolved, notDirectory, isOk⟩
  · cases fails
  · cases isOk
    have isDestination := location_of_resolve linkFree resolved
    refine ⟨arrival, resolved, ?_, by rw [isDestination]⟩
    cases arrival with
    | missing location =>
        obtain rfl : location = path.destination := isDestination
        exact not_isDirectory_of_none
          (get?_of_walk_missing ((resolve_eq_ok_iff linkFree).mp resolved).2)
    | found location =>
        obtain rfl : location = path.destination := isDestination
        exact notDirectory _ rfl

section Written

variable {data : Bytes} {after : FileTree}

/-- What was written to a path can be read from it, as long as it is kept. -/
theorem read_of_write {other : FileTree} (linkFree : tree.LinkFree) (otherLinkFree : other.LinkFree)
    (written : write path data tree = .ok () after) (keeps : Keeps after other)
    (isFile : other.get? path.destination = some (.file data)) : other.read path = .ok data := by
  obtain ⟨arrival, resolved, notDirectory, rfl⟩ := write_eq_ok linkFree written
  rw [← location_of_resolve linkFree resolved] at isFile
  exact read_eq_ok_iff.mpr ⟨_, find_of_keeps linkFree otherLinkFree
    ((keeps_put notDirectory _).trans keeps) resolved isFile⟩

/-- A file can only be written to a path whose last piece is a name. -/
theorem leadsDown_of_write {last : String} (written : write path data tree = .ok () after)
    (isLast : path.pieces.getLast? = some last) : LeadsDown last := by
  apply Decidable.byContradiction
  intro notName
  rcases write_cases written with ⟨error, fails⟩ | ⟨arrival, resolved, notDirectory, _⟩
  · cases fails
  · obtain ⟨target, rfl, isDirectory⟩ := found_directory_of_resolve isLast notName resolved
    cases (notDirectory target rfl).symm.trans isDirectory

end Written

end Making

end FileTree

end TeenyC
