import Mathlib
import TeenyC.FileTree.Resolve

/-!
# Walks in trees without links

Without links a path has one destination, which can be read off its pieces: a name goes down,
two dots go up, everything else stays.  A walk that arrives, arrives there.

A walk only asks what stands at the locations on its way.  So it arrives in every other tree
that has directories wherever the first one has: `walk_of_keeps`.
-/

namespace TeenyC

/-! ## Destinations -/

namespace Location

/-- The location to which a step leads. -/
def step (location : Location) (name : String) : Location :=
  if name = "" ∨ name = "." then location
  else if name = ".." then location.up
  else location.child name

/-- The location to which steps lead. -/
def after (location : Location) (names : List String) : Location :=
  names.foldl step location

variable {location : Location} {name : String} {names others : List String}

@[simp]
theorem after_nil (location : Location) : location.after [] = location := rfl

@[simp]
theorem after_cons (location : Location) (name : String) (names : List String) :
    location.after (name :: names) = (location.step name).after names := rfl

theorem after_append (location : Location) (names others : List String) :
    location.after (names ++ others) = (location.after names).after others :=
  List.foldl_append

theorem step_of_idle (idle : name = "" ∨ name = ".") : location.step name = location :=
  if_pos idle

/-- Steps that stay may be left out. -/
theorem after_filter {keeps : String → Bool}
    (idle : ∀ name, keeps name = false → name = "" ∨ name = ".") (location : Location)
    (names : List String) : location.after (names.filter keeps) = location.after names := by
  induction names generalizing location with
  | nil => rfl
  | cons name names inductionHypothesis =>
      cases keeping : keeps name with
      | true => rw [List.filter_cons_of_pos keeping, after_cons, after_cons, inductionHypothesis]
      | false =>
          rw [List.filter_cons_of_neg (by simp [keeping]), after_cons,
            step_of_idle (idle name keeping), inductionHypothesis]

end Location

/-- The name is one that leads down, and not one that a path reads as a step of another kind. -/
def LeadsDown (name : String) : Prop :=
  name ≠ "" ∧ name ≠ "." ∧ name ≠ ".."

instance : DecidablePred LeadsDown := fun _ => inferInstanceAs (Decidable (_ ∧ _ ∧ _))

theorem Location.step_of_leadsDown {location : Location} {name : String} (down : LeadsDown name) :
    location.step name = location.child name := by
  obtain ⟨notEmpty, notDot, notDots⟩ := down
  rw [step, if_neg (not_or.mpr ⟨notEmpty, notDot⟩), if_neg notDots]

theorem Location.after_of_leadsDown {location : Location} {names : List String}
    (down : ∀ name ∈ names, LeadsDown name) :
    location.after names = ⟨location.origin, location.names ++ names⟩ := by
  induction names generalizing location with
  | nil => simp
  | cons name names inductionHypothesis =>
      rw [after_cons, step_of_leadsDown (down name List.mem_cons_self),
        inductionHypothesis fun other isIn => down other (List.mem_cons_of_mem name isIn)]
      simp [child]

/-- The location to which a path leads where no links are. -/
def Path.destination (path : Path) : Location :=
  path.start.after path.pieces

theorem Path.after_steps (path : Path) : path.start.after path.steps = path.destination := by
  have nonempty : path.start.after (path.pieces.filter (· != "")) = path.destination :=
    Location.after_filter (by simp) _ _
  rw [Path.steps, Location.after_append, nonempty]
  split
  · exact Location.step_of_idle (.inl rfl)
  · rfl

/-! ## Walks -/

namespace FileTree

/-- Nowhere in the tree is a link. -/
def LinkFree (tree : FileTree) : Prop :=
  ∀ location target, tree.get? location ≠ some (.link target)

theorem linkFree_of_entries {tree : FileTree}
    (noLink : ∀ entry ∈ tree.entries, ∀ target, entry.2 ≠ .link target) : tree.LinkFree := by
  intro location target isLink
  rw [get?] at isLink
  split at isLink
  · cases isLink
  · obtain ⟨entry, isFound, isTarget⟩ := Option.map_eq_some_iff.mp isLink
    exact noLink entry (List.mem_of_find?_eq_some isFound) target isTarget

/-- The directories of a tree are those of the other as well, and where the tree has something,
the other has something too. -/
structure Keeps (before after : FileTree) : Prop where
  directory : ∀ location, before.isDirectory location = true → after.isDirectory location = true
  present : ∀ location, before.get? location ≠ none → after.get? location ≠ none

theorem Keeps.refl (tree : FileTree) : Keeps tree tree :=
  ⟨fun _ is => is, fun _ is => is⟩

theorem Keeps.trans {before middle after : FileTree} (first : Keeps before middle)
    (second : Keeps middle after) : Keeps before after :=
  ⟨fun location is => second.directory location (first.directory location is),
    fun location is => second.present location (first.present location is)⟩

end FileTree

/-- The location of an arrival. -/
def Arrival.location : Arrival → Location
  | found location => location
  | missing location => location

namespace FileTree

section Walks

variable {tree other : FileTree} {ending : Ending} {location : Location} {step : String}
  {rest steps : List String} {arrival : Arrival}

theorem walk_of_idle (isDirectory : tree.isDirectory location = true)
    (idle : step = "" ∨ step = ".") :
    tree.walk ending location (step :: rest) = tree.walk ending location rest := by
  rw [walk, if_neg (by simp [isDirectory]), if_pos idle]

theorem walk_of_dots (isDirectory : tree.isDirectory location = true) :
    tree.walk ending location (".." :: rest) = tree.walk ending location.up rest := by
  rw [walk, if_neg (by simp [isDirectory]), if_neg (by decide), if_pos rfl]

theorem walk_of_name (isDirectory : tree.isDirectory location = true) (down : LeadsDown step) :
    tree.walk ending location (step :: rest) =
      if ending = .writeFile ∧ rest = [""] then .failed .isADirectory
      else if isTooLong step then .failed .nameTooLong
      else
        match tree.get? (location.child step) with
        | none =>
          if rest.isEmpty then .arrived (.missing (location.child step)) else .failed .notFound
        | some (.link target) =>
          if ending = .keepLink ∧ rest = [] then .arrived (.found (location.child step))
          else
            .redirected (if (Path.ofString target).absolute then .root else location)
              ((Path.ofString target).steps ++ rest)
        | some _ => tree.walk ending (location.child step) rest := by
  rewrite [walk, if_neg (by simp [isDirectory]), if_neg (not_or.mpr ⟨down.1, down.2.1⟩),
    if_neg down.2.2]
  rfl

theorem step_cases (step : String) : (step = "" ∨ step = ".") ∨ step = ".." ∨ LeadsDown step := by
  unfold LeadsDown
  tauto

/-- A walk that arrives has taken its first step: it stands in a directory, and a name leads it
to something or is its last step, to where nothing stands. -/
theorem walk_cons_cases (linkFree : tree.LinkFree)
    (arrived : tree.walk ending location (step :: rest) = .arrived arrival) :
    tree.isDirectory location = true ∧
      (((step = "" ∨ step = ".") ∧ tree.walk ending location rest = .arrived arrival) ∨
        (step = ".." ∧ tree.walk ending location.up rest = .arrived arrival) ∨
        (LeadsDown step ∧ isTooLong step = false ∧
          ((tree.get? (location.child step) ≠ none ∧
              tree.walk ending (location.child step) rest = .arrived arrival) ∨
            (tree.get? (location.child step) = none ∧ rest = [] ∧
              arrival = .missing (location.child step))))) := by
  have isDirectory : tree.isDirectory location = true := by
    apply Decidable.byContradiction
    intro notDirectory
    rw [walk, if_pos (by simpa using notDirectory)] at arrived
    cases arrived
  refine ⟨isDirectory, ?_⟩
  rcases step_cases step with idle | rfl | down
  · rw [walk_of_idle isDirectory idle] at arrived
    exact .inl ⟨idle, arrived⟩
  · rw [walk_of_dots isDirectory] at arrived
    exact .inr (.inl ⟨rfl, arrived⟩)
  · rw [walk_of_name isDirectory down] at arrived
    split at arrived
    · cases arrived
    split at arrived
    · cases arrived
    next notLong =>
      refine .inr (.inr ⟨down, by simpa using notLong, ?_⟩)
      split at arrived
      · next nothing =>
          split at arrived
          · next isLast =>
              cases arrived
              exact .inr ⟨nothing, List.isEmpty_iff.mp isLast, rfl⟩
          · cases arrived
      · next isLink => exact absurd isLink (linkFree _ _)
      · next isNode => exact .inl ⟨by simp [isNode], arrived⟩

/-- Without links a walk is not redirected. -/
theorem walk_ne_redirected (linkFree : tree.LinkFree) (target : Location) (further : List String) :
    tree.walk ending location steps ≠ .redirected target further := by
  induction steps generalizing location with
  | nil => simp [walk]
  | cons step rest inductionHypothesis =>
      by_cases isDirectory : tree.isDirectory location = true
      · rcases step_cases step with idle | rfl | down
        · rw [walk_of_idle isDirectory idle]
          exact inductionHypothesis
        · rw [walk_of_dots isDirectory]
          exact inductionHypothesis
        · rw [walk_of_name isDirectory down]
          split
          · simp
          split
          · simp
          split
          · split <;> simp
          · next isLink => exact absurd isLink (linkFree _ _)
          · exact inductionHypothesis
      · rw [walk, if_pos (by simpa using isDirectory)]
        simp

/-- Without links a walk arrives where its steps lead. -/
theorem location_of_walk (linkFree : tree.LinkFree)
    (arrived : tree.walk ending location steps = .arrived arrival) :
    arrival.location = location.after steps := by
  induction steps generalizing location with
  | nil =>
      rw [walk] at arrived
      cases arrived
      rfl
  | cons step rest inductionHypothesis =>
      rw [Location.after_cons]
      obtain ⟨_, ⟨idle, further⟩ | ⟨rfl, further⟩ | ⟨down, _, further⟩⟩ :=
        walk_cons_cases linkFree arrived
      · rw [Location.step_of_idle idle]
        exact inductionHypothesis further
      · exact inductionHypothesis further
      · rw [Location.step_of_leadsDown down]
        rcases further with ⟨_, further⟩ | ⟨_, rfl, rfl⟩
        · exact inductionHypothesis further
        · rfl

/-- Nothing stands where a walk misses something. -/
theorem get?_of_walk_missing {target : Location}
    (arrived : tree.walk ending location steps = .arrived (.missing target)) :
    tree.get? target = none := by
  induction steps generalizing location with
  | nil =>
      rw [walk] at arrived
      cases arrived
  | cons step rest inductionHypothesis =>
      by_cases isDirectory : tree.isDirectory location = true
      · rcases step_cases step with idle | rfl | down
        · rw [walk_of_idle isDirectory idle] at arrived
          exact inductionHypothesis arrived
        · rw [walk_of_dots isDirectory] at arrived
          exact inductionHypothesis arrived
        · rw [walk_of_name isDirectory down] at arrived
          split at arrived
          · cases arrived
          split at arrived
          · cases arrived
          split at arrived
          · next nothing =>
              split at arrived
              · cases arrived
                exact nothing
              · cases arrived
          · split at arrived <;> cases arrived
          · exact inductionHypothesis arrived
      · rw [walk, if_pos (by simpa using isDirectory)] at arrived
        cases arrived

/-- A walk arrives as well in a tree that keeps what the first one has, if something stands
where it arrives. -/
theorem walk_of_keeps (linkFree : tree.LinkFree) (otherLinkFree : other.LinkFree)
    (keeps : Keeps tree other) (arrived : tree.walk ending location steps = .arrived arrival)
    (present : other.get? arrival.location ≠ none) :
    other.walk .followLink location steps = .arrived (.found arrival.location) := by
  induction steps generalizing location with
  | nil =>
      rw [walk] at arrived
      cases arrived
      rfl
  | cons step rest inductionHypothesis =>
      obtain ⟨isDirectory, ⟨idle, further⟩ | ⟨rfl, further⟩ | ⟨down, short, further⟩⟩ :=
        walk_cons_cases linkFree arrived
      all_goals have stillDirectory := keeps.directory location isDirectory
      · rw [walk_of_idle stillDirectory idle]
        exact inductionHypothesis further
      · rw [walk_of_dots stillDirectory]
        exact inductionHypothesis further
      · have goesOn : other.get? (location.child step) ≠ none →
            other.walk .followLink location (step :: rest) =
              other.walk .followLink (location.child step) rest := by
          intro something
          rw [walk_of_name stillDirectory down, if_neg (by simp), if_neg (by simp [short])]
          split
          · next nothing => exact absurd nothing something
          · next isLink => exact absurd isLink (otherLinkFree _ _)
          · rfl
        rcases further with ⟨something, further⟩ | ⟨_, rfl, rfl⟩
        · rw [goesOn (keeps.present _ something)]
          exact inductionHypothesis further
        · rw [goesOn present]
          rfl

/-! ## Walks that end in a directory -/

/-- On the way to the location there are directories only. -/
def Reachable (tree : FileTree) (location : Location) : Prop :=
  ∀ count < location.names.length,
    tree.isDirectory ⟨location.origin, location.names.take count⟩ = true

theorem Reachable.child (reachable : tree.Reachable location)
    (isDirectory : tree.isDirectory location = true) (name : String) :
    tree.Reachable (location.child name) := by
  intro count within
  simp only [Location.child, List.length_append, List.length_singleton] at within ⊢
  rw [List.take_append_of_le_length (by omega)]
  by_cases inside : count < location.names.length
  · exact reachable count inside
  · rwa [List.take_of_length_le (by omega)]

theorem isDirectory_origin (tree : FileTree) (origin : Origin) :
    tree.isDirectory ⟨origin, []⟩ = true := by
  simp [isDirectory, get?_origin]

theorem Reachable.up (reachable : tree.Reachable location) :
    tree.isDirectory location.up = true ∧ tree.Reachable location.up := by
  rcases location with ⟨origin, names⟩
  cases names with
  | nil => cases origin <;> exact ⟨isDirectory_origin .., nofun⟩
  | cons name names =>
      have isUp : Location.up ⟨origin, name :: names⟩ =
          ⟨origin, (name :: names).take names.length⟩ := by
        rw [← Nat.add_sub_cancel (n := names.length) (m := 1), ← List.length_cons (a := name),
          ← List.dropLast_eq_take]
        rfl
      rw [isUp]
      refine ⟨reachable names.length (by simp), ?_⟩
      intro count within
      rw [List.length_take] at within
      simp only [List.take_take]
      rw [Nat.min_eq_left (by omega)]
      exact reachable count (by simp only [List.length_cons] at within ⊢; omega)

theorem reachable_start (tree : FileTree) (path : Path) : tree.Reachable path.start := by
  unfold Path.start
  split <;> exact nofun

/-- A walk whose last step is not a name arrives in a directory, or is sent on by a link to go
this last step from elsewhere. -/
theorem walk_concat_cases {last : String} (reachable : tree.Reachable location)
    (notName : ¬ LeadsDown last) :
    (∀ arrival, tree.walk ending location (steps ++ [last]) = .arrived arrival →
      ∃ target, arrival = .found target ∧ tree.isDirectory target = true) ∧
    (∀ target further, tree.walk ending location (steps ++ [last]) = .redirected target further →
      tree.Reachable target ∧ ∃ before, further = before ++ [last]) := by
  induction steps generalizing location with
  | nil =>
      rw [List.nil_append]
      by_cases isDirectory : tree.isDirectory location = true
      · rcases step_cases last with idle | rfl | down
        · rw [walk_of_idle isDirectory idle, walk]
          refine ⟨?_, by simp⟩
          rintro _ ⟨⟩
          exact ⟨location, rfl, isDirectory⟩
        · rw [walk_of_dots isDirectory, walk]
          refine ⟨?_, by simp⟩
          rintro _ ⟨⟩
          exact ⟨location.up, rfl, reachable.up.1⟩
        · exact absurd down notName
      · rw [walk, if_pos (by simpa using isDirectory)]
        simp
  | cons step steps inductionHypothesis =>
      rw [List.cons_append]
      by_cases isDirectory : tree.isDirectory location = true
      · rcases step_cases step with idle | rfl | down
        · rw [walk_of_idle isDirectory idle]
          exact inductionHypothesis reachable
        · rw [walk_of_dots isDirectory]
          exact inductionHypothesis reachable.up.2
        · rw [walk_of_name isDirectory down]
          split
          · simp
          split
          · simp
          split
          · rw [if_neg (by simp)]
            simp
          · next target _ =>
              -- Steps remain behind the name, so the link is followed.
              rw [if_neg (by simp)]
              refine ⟨by simp, ?_⟩
              rintro _ _ ⟨⟩
              refine ⟨?_, (Path.ofString target).steps ++ steps, by rw [List.append_assoc]⟩
              split
              · intro count within
                exact absurd within (Nat.not_lt_zero count)
              · exact reachable
          · exact inductionHypothesis (reachable.child isDirectory step)
      · rw [walk, if_pos (by simpa using isDirectory)]
        simp

/-- Following steps of which the last is not a name leads to a directory only. -/
theorem found_directory_of_follow {links : Nat} {last : String}
    (reachable : tree.Reachable location) (notName : ¬ LeadsDown last)
    (followed : tree.follow ending links location (steps ++ [last]) = .ok arrival) :
    ∃ target, arrival = .found target ∧ tree.isDirectory target = true := by
  induction links generalizing location steps with
  | zero =>
      rw [follow] at followed
      split at followed
      · next arrived =>
          cases followed
          exact (walk_concat_cases reachable notName).1 _ arrived
      · cases followed
      · cases followed
  | succ links inductionHypothesis =>
      rw [follow] at followed
      split at followed
      · next arrived =>
          cases followed
          exact (walk_concat_cases reachable notName).1 _ arrived
      · cases followed
      · next target further redirected =>
          obtain ⟨reachableTarget, before, rfl⟩ :=
            (walk_concat_cases reachable notName).2 _ _ redirected
          exact inductionHypothesis reachableTarget followed

/-! ## Paths -/

variable {path : Path} {node : Node} {target : Location}

theorem follow_eq_ok_iff {links : Nat} (linkFree : tree.LinkFree) :
    tree.follow ending links location steps = .ok arrival ↔
      tree.walk ending location steps = .arrived arrival := by
  unfold follow
  cases walked : tree.walk ending location steps with
  | arrived reached => simp
  | failed error => simp
  | redirected target further => exact absurd walked (walk_ne_redirected linkFree target further)

theorem resolve_eq_ok_iff_follow :
    tree.resolve ending path = .ok arrival ↔
      checkPath path = .ok () ∧
        tree.follow ending linkLimit path.start path.steps = .ok arrival := by
  rw [resolve]
  cases checkPath path with
  | error error => exact ⟨nofun, fun both => nomatch both.1⟩
  | ok checked => exact ⟨fun resolved => ⟨rfl, resolved⟩, fun both => both.2⟩

theorem resolve_eq_ok_iff (linkFree : tree.LinkFree) :
    tree.resolve ending path = .ok arrival ↔
      checkPath path = .ok () ∧ tree.walk ending path.start path.steps = .arrived arrival := by
  rw [resolve_eq_ok_iff_follow, follow_eq_ok_iff linkFree]

/-- Without links a path is resolved to its destination. -/
theorem location_of_resolve (linkFree : tree.LinkFree)
    (resolved : tree.resolve ending path = .ok arrival) : arrival.location = path.destination := by
  rw [location_of_walk linkFree ((resolve_eq_ok_iff linkFree).mp resolved).2, Path.after_steps]

theorem get?_of_follow_missing {links : Nat}
    (followed : tree.follow ending links location steps = .ok (.missing target)) :
    tree.get? target = none := by
  fun_induction follow tree ending links location steps with
  | case1 links location steps reached walked =>
      cases followed
      exact get?_of_walk_missing walked
  | case2 => cases followed
  | case3 => cases followed
  | case4 location steps elsewhere further walked links inductionHypothesis =>
      exact inductionHypothesis followed

/-- Nothing stands where a path leads to something missing. -/
theorem get?_of_resolve_missing (resolved : tree.resolve ending path = .ok (.missing target)) :
    tree.get? target = none :=
  get?_of_follow_missing (resolve_eq_ok_iff_follow.mp resolved).2

theorem find_eq_ok_iff :
    tree.find path = .ok (location, node) ↔
      tree.resolve .followLink path = .ok (.found location) ∧
        tree.get? location = some node := by
  rw [find]
  cases tree.resolve .followLink path with
  | error error => simp [bind, Except.bind]
  | ok arrival =>
      cases arrival with
      | missing target => simp [bind, Except.bind]
      | found target =>
          dsimp only [bind, Except.bind]
          cases here : tree.get? target with
          | none =>
              constructor
              · simp
              · rintro ⟨⟨⟩, there⟩
                cases here.symm.trans there
          | some other =>
              constructor
              · rintro ⟨⟩
                exact ⟨rfl, here⟩
              · rintro ⟨⟨⟩, there⟩
                cases here.symm.trans there
                rfl

theorem read_eq_ok_iff {data : Bytes} :
    tree.read path = .ok data ↔ ∃ location, tree.find path = .ok (location, .file data) := by
  rw [read]
  rcases tree.find path with error | ⟨location, node⟩
  · exact ⟨nofun, fun ⟨_, never⟩ => nomatch never⟩
  · cases node with
    | file other =>
        constructor
        · rintro ⟨⟩
          exact ⟨location, rfl⟩
        · rintro ⟨_, ⟨⟩⟩
          rfl
    | directory => exact ⟨nofun, fun ⟨_, never⟩ => nomatch never⟩
    | link target => exact ⟨nofun, fun ⟨_, never⟩ => nomatch never⟩

/-- A path that is resolved in a tree finds, in a tree that keeps what the first one has, what
stands there. -/
theorem find_of_keeps (linkFree : tree.LinkFree) (otherLinkFree : other.LinkFree)
    (keeps : Keeps tree other) (resolved : tree.resolve ending path = .ok arrival)
    (isNode : other.get? arrival.location = some node) :
    other.find path = .ok (arrival.location, node) := by
  obtain ⟨checked, walked⟩ := (resolve_eq_ok_iff linkFree).mp resolved
  have present : other.get? arrival.location ≠ none := by simp [isNode]
  exact find_eq_ok_iff.mpr ⟨(resolve_eq_ok_iff otherLinkFree).mpr
    ⟨checked, walk_of_keeps linkFree otherLinkFree keeps walked present⟩, isNode⟩

/-- A file that is still there is still read, in a tree that keeps what the first one has. -/
theorem read_of_keeps {data : Bytes} (linkFree : tree.LinkFree) (otherLinkFree : other.LinkFree)
    (keeps : Keeps tree other) (isData : tree.read path = .ok data)
    (stays : other.get? path.destination = tree.get? path.destination) :
    other.read path = .ok data := by
  obtain ⟨location, found⟩ := read_eq_ok_iff.mp isData
  obtain ⟨resolved, isFile⟩ := find_eq_ok_iff.mp found
  obtain rfl : location = path.destination := location_of_resolve linkFree resolved
  exact read_eq_ok_iff.mpr ⟨_, find_of_keeps linkFree otherLinkFree keeps resolved
    (stays.trans isFile)⟩

/-- Where a file is read something stands. -/
theorem get?_of_read {data : Bytes} (linkFree : tree.LinkFree)
    (isData : tree.read path = .ok data) : tree.get? path.destination = some (.file data) := by
  obtain ⟨location, found⟩ := read_eq_ok_iff.mp isData
  obtain ⟨resolved, isFile⟩ := find_eq_ok_iff.mp found
  obtain rfl : location = path.destination := location_of_resolve linkFree resolved
  exact isFile

theorem isEmpty_of_checkPath (checked : checkPath path = .ok ()) : path.isEmpty = false := by
  rw [checkPath] at checked
  split at checked
  · cases checked
  split at checked
  · cases checked
  split at checked
  · cases checked
  · next notEmpty => simpa using notEmpty

/-- A path whose last piece is not a name is resolved to a directory only. -/
theorem found_directory_of_resolve {last : String}
    (isLast : path.pieces.getLast? = some last) (notName : ¬ LeadsDown last)
    (resolved : tree.resolve ending path = .ok arrival) :
    ∃ target, arrival = .found target ∧ tree.isDirectory target = true := by
  rcases resolve_eq_ok_iff_follow.mp resolved with ⟨checked, followed⟩
  have reachable := reachable_start tree path
  obtain ⟨before, isPieces⟩ := List.getLast?_eq_some_iff.mp isLast
  have slash : path.endsInSlash = (last == "") := by
    rw [Path.endsInSlash, isEmpty_of_checkPath checked, isPieces]
    simp
  rw [Path.steps, slash, isPieces, List.filter_append] at followed
  by_cases isEmpty : last = ""
  · subst isEmpty
    exact found_directory_of_follow reachable notName followed
  · rw [List.filter_cons_of_pos (by simpa using isEmpty), List.filter_nil,
      if_neg (by simpa using isEmpty), List.append_nil] at followed
    exact found_directory_of_follow reachable notName followed

end Walks

end FileTree

end TeenyC
