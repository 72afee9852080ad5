import TeenyC.Proofs.BuildProducts

/-!
# Input of the C compiler

A C file is built next to itself, as its own path without the extension.  That is never the path
of the C file again, not even when the file has no extension, when cutting leaves `..` over, or
when the path is written with slashes and dots that mean nothing.  So no run tells the C compiler
to put its result in place of its input: `executable_spares_input`.
-/

namespace TeenyC

/-! ## File names -/

namespace Path

variable {path : Path} {name other stem extension : String}

theorem filter_dropIdleEnd (pieces : List String) :
    (dropIdleEnd pieces).filter (fun piece => !isIdle piece) =
      pieces.filter fun piece => !isIdle piece := by
  induction pieces using List.reverseRecOn with
  | nil => rfl
  | append_singleton pieces last inductionHypothesis =>
      by_cases idle : isIdle last = true
      · have dropped : dropIdleEnd (pieces ++ [last]) = dropIdleEnd pieces :=
          List.rdropWhile_concat_pos isIdle pieces last idle
        rw [dropped, inductionHypothesis]
        simp [idle]
      · have kept : dropIdleEnd (pieces ++ [last]) = pieces ++ [last] :=
          List.rdropWhile_concat_neg isIdle pieces last idle
        rw [kept]

/-- Cutting off an end that means nothing keeps the names of a path. -/
theorem names_trim (path : Path) : path.trim.names = path.names := by
  obtain ⟨absolute, pieces⟩ := path
  cases pieces with
  | nil => rfl
  | cons first rest =>
      have sameEnd := filter_dropIdleEnd rest
      simp only [trim]
      split
      · next isNil =>
          rw [isNil] at sameEnd
          by_cases idleFirst : isIdleFirst ⟨absolute, first :: rest⟩ first = true
          · rw [if_pos idleFirst]
            simp only [names, idleFirst, if_true, ← sameEnd]
            rfl
          · rw [if_neg idleFirst]
            simp only [names, ← sameEnd, List.filter_nil]
            rfl
      · simp only [names, sameEnd]
        rfl

/-- The end that is left of a path is not empty. -/
theorem getLast?_trim_ne_empty (path : Path) : path.trim.pieces.getLast? ≠ some "" := by
  intro isEmpty
  unfold trim at isEmpty
  split at isEmpty
  · next isNil => simp [isNil] at isEmpty
  · next first rest isPieces =>
      split at isEmpty
      · dsimp only at isEmpty
        split at isEmpty
        · simp at isEmpty
        · next notIdle =>
            obtain rfl : first = "" := by simpa using isEmpty
            exact notIdle rfl
      · next nonempty =>
          rw [List.getLast?_cons_of_ne_nil nonempty, List.getLast?_eq_some_getLast nonempty,
            Option.some.injEq] at isEmpty
          have notIdle := List.rdropWhile_last_not isIdle rest nonempty
          have isLast : (rest.rdropWhile isIdle).getLast nonempty = "" := isEmpty
          rw [isLast] at notIdle
          exact notIdle rfl

/-- A path with a file name ends in it, but for an end that means nothing. -/
theorem exists_trim_of_fileName? (isName : path.fileName? = some name) :
    ∃ front, path.trim.pieces = front ++ [name] ∧ LeadsDown name := by
  rw [fileName?] at isName
  split at isName
  · next last isLast =>
      split at isName
      · cases isName
      · next notDots =>
          cases isName
          simp only [Bool.or_eq_true, beq_iff_eq, not_or] at notDots
          obtain ⟨front, isPieces⟩ := List.getLast?_eq_some_iff.mp isLast
          refine ⟨front, isPieces, ?_, notDots⟩
          rintro rfl
          exact getLast?_trim_ne_empty path isLast
  · cases isName

/-- The names of a path with one more piece: what it had, and the piece unless that means
nothing. -/
theorem names_concat_cases (absolute : Bool) (front : List String) (last : String) :
    (⟨absolute, front ++ [last]⟩ : Path).names = (⟨absolute, front⟩ : Path).names ++ [last] ∨
      (⟨absolute, front ++ [last]⟩ : Path).names = (⟨absolute, front⟩ : Path).names := by
  cases front with
  | nil =>
      simp only [names, List.nil_append, List.filter_nil, List.append_nil]
      split
      · exact .inr rfl
      · exact .inl rfl
  | cons first rest =>
      simp only [names, List.cons_append, List.filter_append, List.append_assoc]
      cases idle : isIdle last with
      | true =>
          right
          simp [idle]
          rfl
      | false =>
          left
          simp [idle]
          rfl

/-- With another file name a path is not the same any more. -/
theorem same_withFileName (isName : path.fileName? = some name) (differs : other ≠ name) :
    (path.withFileName other).same path = false := by
  obtain ⟨front, isPieces, down⟩ := exists_trim_of_fileName? isName
  have saying : ∀ piece ∈ [name], isIdle piece = false := by
    simpa using isIdle_eq_false_iff.mpr ⟨down.1, down.2.1⟩
  have trimmed : path.trim = ⟨path.trim.absolute, front ++ [name]⟩ := by rw [← isPieces]
  have replaced : path.withFileName other = ⟨path.trim.absolute, front ++ [other]⟩ := by
    rw [withFileName, isPieces, List.dropLast_concat]
  have isNames : path.names = (⟨path.trim.absolute, front⟩ : Path).names ++ [name] := by
    rw [← names_trim, trimmed, names_append saying]
  have apart : (path.withFileName other).names ≠ path.names := by
    rw [replaced, isNames]
    rcases names_concat_cases path.trim.absolute front other with isMore | isSame
    · rw [isMore]
      simpa using differs
    · rw [isSame]
      simp
  rw [same, beq_eq_false_iff_ne.mpr apart, Bool.and_false]

/-! ## Executables -/

theorem length_lt_extended (name extension : String) :
    name.length < (name ++ "." ++ extension).length := by
  rw [String.length_append, String.length_append]
  change name.length < name.length + 1 + extension.length
  omega

/-- What stands in front of the last dot of a file name is another name, and so are the two dots
that are left over of a name like `..c`. -/
theorem same_withExtension_empty (isName : path.fileName? = some name)
    (splits : splitExtension? name = some (stem, extension)) :
    (path.withExtension "").same path = false := by
  obtain ⟨_, noDot, isWhole⟩ := splitExtension?_eq_some_iff.mp splits
  obtain ⟨_, _, down⟩ := exists_trim_of_fileName? isName
  have longer : stem.length < name.length := isWhole ▸ length_lt_extended stem extension
  have stem_ne : addExtension stem "" ≠ name := by
    rintro rfl
    exact Nat.lt_irrefl _ longer
  rw [withExtension, isName]
  simp only [splits]
  split
  · exact same_withFileName isName down.2.2.symm
  · exact same_withFileName isName stem_ne

/-- A path with a file name never is the executable built from it. -/
theorem same_executable (isName : path.fileName? = some name) :
    path.executable.same path = false := by
  rw [executable]
  split
  · next keeps =>
      cases splits : splitExtension? name with
      | none =>
          have replaced : path.withExtension "out" = path.withFileName (name ++ "." ++ "out") := by
            rw [withExtension, isName]
            simp only [splits]
            rfl
          have longer : name ++ "." ++ "out" ≠ name := by
            intro isSame
            exact Nat.lt_irrefl _ (isSame ▸ length_lt_extended name "out")
          rw [replaced]
          exact same_withFileName isName longer
      | some parts => cases keeps.symm.trans (same_withExtension_empty isName splits)
  · next differs => exact Bool.eq_false_iff.mpr differs

end Path

/-! ## Runs -/

/-- A file can only be written to a path that has a file name. -/
theorem FileTree.fileName?_of_write {tree after : FileTree} {path : Path} {data : Bytes}
    (written : write path data tree = .ok () after) : ∃ name, path.fileName? = some name := by
  rcases List.eq_nil_or_concat path.pieces with isNil | ⟨front, last, isPieces⟩
  · rcases write_cases written with ⟨error, fails⟩ | ⟨arrival, resolved, notDirectory, _⟩
    · cases fails
    · obtain ⟨checked, followed⟩ := resolve_eq_ok_iff_follow.mp resolved
      have isSteps : path.steps = [] ++ [""] := by
        rw [Path.steps, Path.endsInSlash, isEmpty_of_checkPath checked, isNil]
        rfl
      rw [isSteps] at followed
      obtain ⟨target, rfl, isDirectory⟩ :=
        found_directory_of_follow (reachable_start tree path) (by simp [LeadsDown]) followed
      cases (notDirectory target rfl).symm.trans isDirectory
  · rw [List.concat_eq_append] at isPieces
    have isLast : path.pieces.getLast? = some last := by simp [isPieces]
    exact ⟨last, Path.fileName?_of_last isPieces (leadsDown_of_write written isLast)⟩

theorem World.fileName?_of_writeOutput {world after : World} {path : Path} {text : String}
    (ran : Command.perform world (Command.writeOutput path text) = (.ok (), after)) :
    ∃ name, path.fileName? = some name := by
  obtain ⟨middle, _, written⟩ := Command.fileHost_world.exists_write_of_writeOutput ran
  exact FileTree.fileName?_of_write written

/-- The invocation names a C file and its executable, and they are not the same. -/
def SparesInput (entry : String × List String) : Prop :=
  ∃ input : Path, (∃ name, input.fileName? = some name) ∧
    entry.2 = [input.text, "-o", input.executable.text] ∧ input.executable.same input = false

namespace Journal

variable {journal : Journal} (options : Options)

theorem follows_readSource {allowed : String × List String → Prop} :
    Follows allowed journal (Command.readSource options) (Command.readSource options) := by
  unfold Command.readSource
  split <;> exact ⟨rfl, fun _ => .inl⟩

/-- What is built was written before, so it has a file name. -/
theorem follows_writeAndBuild (output : Path) (text note : String) :
    Follows SparesInput journal
      (do
        Command.writeOutput output text
        Command.progress options note
        Command.buildOutput options output)
      (do
        Command.writeOutput output text
        Command.progress options note
        Command.buildOutput options output) := by
  apply (follows_writeOutput _ _).bind
  intro _ written wrote
  apply (follows_progress options _).bind
  intro _ noted _
  apply follows_buildOutput
  intro compiler _ _
  obtain ⟨name, isName⟩ := World.fileName?_of_writeOutput wrote
  exact ⟨output, ⟨name, isName⟩, rfl, Path.same_executable isName⟩

theorem follows_run_spares (world : World) :
    Follows SparesInput ⟨world, []⟩ (Command.run options) (Command.run options) := by
  unfold Command.run
  split
  · apply (follows_readSources _).bind
    intro sources searched _
    apply (follows_attempt_pure _ _).bind
    intro outputs rendered _
    apply Follows.bind
    · apply follows_forM
      intro output _ journal
      exact follows_writeAndBuild options output.1 output.2 ("wrote " ++ output.1.text)
    · intro _ finished _
      exact follows_progress options _
  · apply (follows_readSource options).bind
    intro source searched _
    apply (follows_attempt_pure _ _).bind
    intro text rendered _
    exact follows_writeAndBuild options (.ofString options.output) text _

end Journal

/-- A path with a file name is never the executable that is built from it.  So a run, which is
the same with a journal, tells the C compiler nothing but to build a file with a file name into
something else. -/
theorem executable_spares_input :
    (∀ (path : Path) (name : String), path.fileName? = some name →
      path.executable.same path = false) ∧
    ∀ (world : World) (options : Options),
      ((Journal.run world options).1, (Journal.run world options).2.world) = world.run options ∧
      ∀ entry ∈ (Journal.run world options).2.invocations, SparesInput entry := by
  constructor
  · intro path name
    exact Path.same_executable
  · intro world options
    have follows := Journal.follows_run_spares options world
    refine ⟨follows.same, ?_⟩
    intro entry isEntry
    rcases follows.entries entry isEntry with isEarlier | spares
    · cases isEarlier
    · exact spares

/-- Of a file `..c` nothing but dots is left without the extension, and behind slashes the name
is not cut there. -/
theorem executable_spares_input_dots :
    (Path.ofString "x/..c").fileName? = some "..c" ∧
      (Path.ofString "x/..c").executable = ⟨false, ["x", ".."]⟩ ∧
      (Path.ofString "x/..c").executable.same (.ofString "x/..c") = false ∧
      (Path.ofString "x/..c/.").executable = ⟨false, ["x", "."]⟩ ∧
      (Path.ofString "x/..c/.").executable.same (.ofString "x/..c/.") = false := by
  have isName : (Path.ofString "x/..c").fileName? = some "..c" := by decide +kernel
  have isNameBehind : (Path.ofString "x/..c/.").fileName? = some "..c" := by decide +kernel
  have isParent : (Path.ofString "x/..c").executable = ⟨false, ["x", ".."]⟩ := by decide +kernel
  have isDot : (Path.ofString "x/..c/.").executable = ⟨false, ["x", "."]⟩ := by decide +kernel
  exact ⟨isName, isParent, executable_spares_input.1 (.ofString "x/..c") "..c" isName, isDot,
    executable_spares_input.1 (.ofString "x/..c/.") "..c" isNameBehind⟩

end TeenyC
