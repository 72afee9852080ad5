import TeenyC.Proofs.FileTree.Rooted

/-!
# Paths that go on

A path that is continued leads first to where it leads by itself, and on from there with the
links that are left.  So what is below a directory is asked for as if from that directory, unless
the whole path is too long, a name on the way is, or the links that lead to the directory leave
too few for those behind it.
-/

namespace TeenyC

/-- Names behind a path are steps behind its steps; a slash at its end is not taken twice. -/
theorem Path.steps_join {root : Path} {names : List String} (notEmpty : root.isEmpty = false)
    (nonempty : names ≠ []) (down : ∀ name ∈ names, LeadsDown name) :
    (root.join ⟨false, names⟩).start = root.start ∧
      ∃ front, (root.join ⟨false, names⟩).steps = front ++ names ∧
        (root.steps = front ∨ root.steps = front ++ [""]) := by
  rcases (List.eq_nil_or_concat' names).resolve_left nonempty with ⟨above, last, rfl⟩
  have kept : (above ++ [last]).filter (· != "") = above ++ [last] := by
    apply List.filter_eq_self.mpr
    intro name isIn
    simpa using (down name isIn).1
  have lastDown : last ≠ "" := (down last List.mem_concat_self).1
  have noSlash : ∀ (absolute : Bool) (front : List String),
      (⟨absolute, front ++ (above ++ [last])⟩ : Path).endsInSlash = false := by
    intro absolute front
    rw [endsInSlash, ← List.append_assoc]
    simp [lastDown]
  rw [join, notEmpty, Bool.or_false, if_neg (by simp)]
  split
  · next slash =>
      refine ⟨rfl, root.pieces.dropLast.filter (· != ""), ?_, .inr ?_⟩
      · rw [steps, noSlash, List.filter_append, kept]
        simp
      · have isLast : root.pieces.getLastD "" = "" := by
          rw [endsInSlash, notEmpty] at slash
          simpa using slash
        rw [steps, slash]
        rcases List.eq_nil_or_concat' root.pieces with isNil | ⟨front, piece, isPieces⟩
        · rw [isNil]
          rfl
        · obtain rfl : piece = "" := by simpa [isPieces] using isLast
          simp [isPieces]
  · next noSlashThere =>
      refine ⟨rfl, root.pieces.filter (· != ""), ?_, .inl ?_⟩
      · rw [steps, noSlash, List.filter_append, kept]
        simp
      · rw [steps, if_neg noSlashThere, List.append_nil]

namespace FileTree

section Continuation

variable {tree : FileTree} {ending : Ending} {location directory place : Location}
  {steps above more : List String} {name : String} {arrival : Arrival} {links : Nat}
  {root : Path} {node : Node}

/-! ## Walks that go on -/

/-- What a step does does not depend on the steps behind it, but that a walk may only end where
nothing stands. -/
theorem walk_step_cases (tree : FileTree) (location : Location) (step : String) :
    (∃ error, ∀ rest, tree.walk .followLink location (step :: rest) = .failed error) ∨
    (∀ rest, tree.walk .followLink location (step :: rest) =
      if rest.isEmpty then .arrived (.missing (location.child step)) else .failed .notFound) ∨
    (∃ target before, ∀ rest, tree.walk .followLink location (step :: rest) =
      .redirected target (before ++ rest)) ∨
    (∃ next, ∀ rest, tree.walk .followLink location (step :: rest) =
      tree.walk .followLink next rest) := by
  by_cases isDirectory : tree.isDirectory location = true
  · rcases step_cases step with idle | rfl | down
    · exact .inr (.inr (.inr ⟨location, fun rest => walk_of_idle isDirectory idle⟩))
    · exact .inr (.inr (.inr ⟨location.up, fun rest => walk_of_dots isDirectory⟩))
    · simp only [walk_of_name isDirectory down, reduceCtorEq, false_and, if_false]
      split
      · exact .inl ⟨.nameTooLong, fun _ => rfl⟩
      · split
        · exact .inr (.inl fun _ => rfl)
        · exact .inr (.inr (.inl ⟨_, _, fun _ => rfl⟩))
        · exact .inr (.inr (.inr ⟨_, fun _ => rfl⟩))
  · refine .inl ⟨.notADirectory, fun rest => ?_⟩
    rw [walk, if_pos (by simpa using isDirectory)]

/-- A walk that goes on behind its last step goes on where it arrived, or is sent on by the same
link. -/
theorem walk_append (more : List String) :
    (∀ place, tree.walk .followLink location steps = .arrived (.found place) →
      tree.walk .followLink location (steps ++ more) = tree.walk .followLink place more) ∧
    (∀ target further, tree.walk .followLink location steps = .redirected target further →
      tree.walk .followLink location (steps ++ more) = .redirected target (further ++ more)) := by
  induction steps generalizing location with
  | nil =>
      rw [walk, List.nil_append]
      refine ⟨?_, by simp⟩
      rintro _ ⟨⟩
      rfl
  | cons step rest inductionHypothesis =>
      rw [List.cons_append]
      rcases walk_step_cases tree location step with
        ⟨error, fails⟩ | misses | ⟨target, before, redirects⟩ | ⟨next, goesOn⟩
      · simp [fails]
      · cases rest <;> simp [misses]
      · simp only [redirects, reduceCtorEq, false_implies, implies_true, true_and]
        rintro _ _ ⟨⟩
        rw [List.append_assoc]
      · rw [goesOn, goesOn]
        exact inductionHypothesis

theorem follow_of_arrived (arrived : tree.walk ending location steps = .arrived arrival) :
    tree.follow ending links location steps = .ok arrival := by
  rw [follow, arrived]

theorem follow_of_redirected {target : Location} {further : List String}
    (redirected : tree.walk ending location steps = .redirected target further) :
    tree.follow ending (links + 1) location steps = tree.follow ending links target further := by
  rw [follow, redirected]

/-- Where walks are the same, so is what becomes of them. -/
theorem follow_congr {other : Location} {others : List String}
    (same : tree.walk ending location steps = tree.walk ending other others) :
    tree.follow ending links location steps = tree.follow ending links other others := by
  rw [follow, follow, same]

/-- Steps that lead somewhere leave some of the links for the steps behind them. -/
theorem follow_append
    (followed : tree.follow .followLink links location steps = .ok (.found place)) :
    ∃ left ≤ links, ∀ more, tree.follow .followLink links location (steps ++ more) =
      tree.follow .followLink left place more := by
  fun_induction follow tree .followLink links location steps with
  | case1 links location steps reached arrived =>
      cases followed
      refine ⟨links, le_refl links, fun more => ?_⟩
      exact follow_congr ((walk_append more).1 _ arrived)
  | case2 => cases followed
  | case3 => cases followed
  | case4 location steps target further redirected links inductionHypothesis =>
      rcases inductionHypothesis followed with ⟨left, fewer, goesOn⟩
      refine ⟨left, fewer.trans (Nat.le_succ links), fun more => ?_⟩
      rw [follow_of_redirected ((walk_append more).2 _ _ redirected)]
      exact goesOn more

/-- A slash makes no difference in front of further steps. -/
theorem walk_skip (tree : FileTree) (location : Location) (steps : List String)
    (nonempty : more ≠ []) :
    tree.walk .followLink location (steps ++ "" :: more) =
        tree.walk .followLink location (steps ++ more) ∨
      ∃ target before,
        tree.walk .followLink location (steps ++ "" :: more) =
          .redirected target (before ++ "" :: more) ∧
        tree.walk .followLink location (steps ++ more) = .redirected target (before ++ more) := by
  induction steps generalizing location with
  | nil =>
      left
      by_cases isDirectory : tree.isDirectory location = true
      · exact walk_of_idle isDirectory (.inl rfl)
      · rcases List.exists_cons_of_ne_nil nonempty with ⟨name, rest, rfl⟩
        rw [List.nil_append, List.nil_append, walk, if_pos (by simpa using isDirectory), walk,
          if_pos (by simpa using isDirectory)]
  | cons step rest inductionHypothesis =>
      rw [List.cons_append, List.cons_append]
      rcases walk_step_cases tree location step with
        ⟨error, fails⟩ | misses | ⟨target, before, redirects⟩ | ⟨next, goesOn⟩
      · exact .inl (by rw [fails, fails])
      · exact .inl (by simp [misses, nonempty])
      · refine .inr ⟨target, before ++ rest, ?_, ?_⟩
        · rw [redirects, List.append_assoc]
        · rw [redirects, List.append_assoc]
      · rw [goesOn, goesOn]
        exact inductionHypothesis next

theorem follow_skip (nonempty : more ≠ []) :
    tree.follow .followLink links location (steps ++ "" :: more) =
      tree.follow .followLink links location (steps ++ more) := by
  induction links generalizing location steps with
  | zero =>
      rcases walk_skip tree location steps nonempty with same | ⟨target, before, first, second⟩
      · exact follow_congr same
      · rw [follow, follow, first, second]
  | succ links inductionHypothesis =>
      rcases walk_skip tree location steps nonempty with same | ⟨target, before, first, second⟩
      · exact follow_congr same
      · rw [follow_of_redirected first, follow_of_redirected second]
        exact inductionHypothesis

/-! ## Links -/

/-- More links than are needed do no harm. -/
theorem follow_mono {many : Nat} (followed : tree.follow ending links location steps = .ok arrival)
    (enough : links ≤ many) : tree.follow ending many location steps = .ok arrival := by
  fun_induction follow tree ending links location steps generalizing many with
  | case1 links location steps reached arrived =>
      cases followed
      exact follow_of_arrived arrived
  | case2 => cases followed
  | case3 => cases followed
  | case4 location steps target further redirected links inductionHypothesis =>
      rcases Nat.exists_eq_add_of_le enough with ⟨extra, rfl⟩
      rw [Nat.succ_add, follow_of_redirected redirected]
      exact inductionHypothesis followed (Nat.le_add_right links extra)

/-- A walk that keeps the last link arrives at this link, or is the same as one that follows it. -/
theorem walk_keepLink_cases (tree : FileTree) (location : Location) (steps : List String) :
    tree.walk .keepLink location steps = tree.walk .followLink location steps ∨
      ∃ place, tree.walk .keepLink location steps = .arrived (.found place) := by
  induction steps generalizing location with
  | nil => exact .inl rfl
  | cons step rest inductionHypothesis =>
      by_cases isDirectory : tree.isDirectory location = true
      · rcases step_cases step with idle | rfl | down
        · rw [walk_of_idle isDirectory idle, walk_of_idle isDirectory idle]
          exact inductionHypothesis location
        · rw [walk_of_dots isDirectory, walk_of_dots isDirectory]
          exact inductionHypothesis location.up
        · simp only [walk_of_name isDirectory down, reduceCtorEq, false_and, if_false, true_and]
          split
          · exact .inl rfl
          · split
            · exact .inl rfl
            · split
              · exact .inr ⟨_, rfl⟩
              · exact .inl rfl
            · exact inductionHypothesis _
      · left
        rw [walk, if_pos (by simpa using isDirectory), walk,
          if_pos (by simpa using isDirectory)]

/-- Steps that lead somewhere also lead somewhere if the last link is kept. -/
theorem follow_keepLink
    (followed : tree.follow .followLink links location steps = .ok (.found place)) :
    ∃ other, tree.follow .keepLink links location steps = .ok (.found other) := by
  fun_induction follow tree .followLink links location steps with
  | case1 links location steps reached arrived =>
      cases followed
      rcases walk_keepLink_cases tree location steps with same | ⟨other, arrivedThere⟩
      · exact ⟨place, follow_of_arrived (same.trans arrived)⟩
      · exact ⟨other, follow_of_arrived arrivedThere⟩
  | case2 => cases followed
  | case3 => cases followed
  | case4 location steps target further redirected links inductionHypothesis =>
      rcases walk_keepLink_cases tree location steps with same | ⟨other, arrivedThere⟩
      · rw [follow_of_redirected (same.trans redirected)]
        exact inductionHypothesis followed
      · exact ⟨other, follow_of_arrived arrivedThere⟩

/-! ## What is below a directory -/

/-- Names lead down through directories, unless one of them is too long. -/
theorem walk_down
    (directories : ∀ front, front <+: above → tree.isDirectory (directory.down front) = true)
    (down : ∀ name ∈ above, LeadsDown name) (more : List String) :
    tree.walk .followLink directory (above ++ more) =
        tree.walk .followLink (directory.down above) more ∨
      tree.walk .followLink directory (above ++ more) = .failed .nameTooLong := by
  induction above generalizing directory with
  | nil => exact .inl (by rw [List.nil_append, Location.down_nil])
  | cons name rest inductionHypothesis =>
      rcases List.forall_mem_cons.mp down with ⟨nameDown, restDown⟩
      have isDirectory : tree.isDirectory directory = true := by
        simpa using directories [] List.nil_prefix
      have isChild : tree.get? (directory.child name) = some .directory := by
        have there := directories [name] (List.prefix_append [name] rest)
        rwa [Location.down_cons, Location.down_nil, FileTree.isDirectory,
          decide_eq_true_iff] at there
      rw [List.cons_append, walk_of_name isDirectory nameDown, isChild, Location.down_cons]
      simp only [reduceCtorEq, false_and, if_false]
      split
      · exact .inr rfl
      · apply inductionHypothesis _ restDown
        intro front isFront
        rw [← Location.down_cons]
        exact directories (name :: front) (List.prefix_cons_inj name |>.mpr isFront)

/-- What leads somewhere also leads somewhere if a last link is kept. -/
theorem resolve_keepLink (found : tree.find root = .ok (place, node)) :
    ∃ other, tree.resolve .keepLink root = .ok (.found other) := by
  rcases resolve_eq_ok_iff_follow.mp (find_eq_ok_iff.mp found).1 with ⟨checked, followed⟩
  rcases follow_keepLink followed with ⟨other, kept⟩
  exact ⟨other, resolve_eq_ok_iff_follow.mpr ⟨checked, kept⟩⟩

/-- The name leads to this, asked for in the directory; links are followed. -/
def LeadsTo (tree : FileTree) (directory : Location) (name : String) (node : Node) : Prop :=
  ∃ place, tree.follow .followLink linkLimit directory [name] = .ok (.found place) ∧
    tree.get? place = some node

theorem LeadsTo.unique {other : Node} (leads : tree.LeadsTo directory name node)
    (otherLeads : tree.LeadsTo directory name other) : node = other := by
  rcases leads with ⟨place, followed, isNode⟩
  rcases otherLeads with ⟨otherPlace, otherFollowed, isOther⟩
  cases followed.symm.trans otherFollowed
  exact Option.some.inj (isNode.symm.trans isOther)

/-- What is asked for by the whole path is what the last name leads to in its directory. -/
theorem Rooted.leadsTo_of_find {there : Node} (rooted : tree.Rooted)
    (isRoot : tree.find root = .ok (directory, .directory))
    (isNode : tree.get? (directory.down (above ++ [name])) = some node)
    (found : tree.find (root.join ⟨false, above ++ [name]⟩) = .ok (place, there)) :
    tree.LeadsTo (directory.down above) name there := by
  rcases find_eq_ok_iff.mp found with ⟨resolved, isThere⟩
  refine ⟨place, ?_, isThere⟩
  have down := rooted.wellFormed.leadsDown_of_get? isNode
  rcases resolve_eq_ok_iff_follow.mp (find_eq_ok_iff.mp isRoot).1 with ⟨checked, toRoot⟩
  rcases resolve_eq_ok_iff_follow.mp resolved with ⟨_, followed⟩
  rcases Path.steps_join (isEmpty_of_checkPath checked) (by simp) down with
    ⟨sameStart, front, isSteps, slash⟩
  rw [sameStart, isSteps] at followed
  -- The way to the directory takes some of the links, whether it ends in a slash or not.
  have fromDirectory : ∃ left ≤ linkLimit,
      tree.follow .followLink left directory (above ++ [name]) = .ok (.found place) := by
    rcases follow_append toRoot with ⟨left, fewer, goesOn⟩
    refine ⟨left, fewer, ?_⟩
    rw [← goesOn, ← followed]
    rcases slash with isFront | isFront
    · rw [isFront]
    · rw [isFront, List.append_assoc]
      exact follow_skip (by simp)
  rcases fromDirectory with ⟨left, fewer, fromDirectory⟩
  have directories : ∀ front, front <+: above →
      tree.isDirectory (directory.down front) = true := by
    intro front isFront
    apply rooted.isDirectory_down isNode (isFront.trans (List.prefix_append above [name]))
    rw [List.length_append]
    exact Nat.lt_succ_of_le isFront.length_le
  have aboveDown : ∀ name ∈ above, LeadsDown name :=
    fun name isIn => down name (List.mem_append_left _ isIn)
  rcases walk_down directories aboveDown [name] with same | fails
  · rw [follow_congr same] at fromDirectory
    exact follow_mono fromDirectory fewer
  · rw [follow, fails] at fromDirectory
    cases fromDirectory

end Continuation

end FileTree

end TeenyC
