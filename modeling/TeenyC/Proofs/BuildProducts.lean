import TeenyC.Proofs.Command.Journal
import TeenyC.Proofs.DirectoryRun

/-!
# Executables among output files

A run on a directory with a C compiler builds an executable next to every C file, with the same
name but for the extension.  The executable never takes the place of its own C file.  But it may
take the place of another one: a program `a.c.teeny` is written to `a.c.c` and built as `a.c`,
which is where a program `a.teeny` of the same directory is written to.  There is no other way
for an executable to meet an output file: `run_directory_builds_over_iff`.
-/

namespace TeenyC

/-! ## Paths of executables -/

namespace Path

variable {path : Path} {absolute : Bool} {front more others : List String} {name : String}

/-- Behind the same pieces, different pieces that say something make a difference. -/
theorem same_append_iff (saying : ∀ piece ∈ more, isIdle piece = false)
    (othersSaying : ∀ piece ∈ others, isIdle piece = false) :
    (⟨absolute, front ++ more⟩ : Path).same ⟨absolute, front ++ others⟩ = true ↔
      more = others := by
  rw [same, names_append saying, names_append othersSaying]
  simp

/-- The executable of a C file is its path without the extension. -/
theorem executable_of_last (isPieces : path.pieces = front ++ [name ++ "." ++ "c"])
    (notEmpty : name ≠ "") (notDot : name ≠ ".") :
    path.executable = { path with pieces := front ++ [name] } := by
  obtain ⟨absolute, pieces⟩ := path
  obtain rfl : pieces = front ++ [name ++ "." ++ "c"] := isPieces
  have stripped : (⟨absolute, front ++ [name ++ "." ++ "c"]⟩ : Path).withExtension "" =
      ⟨absolute, front ++ [name]⟩ := by
    rw [withExtension_of_last rfl notEmpty (by decide) (by decide), if_neg notDot]
    rfl
  have differs : ¬ (⟨absolute, front ++ [name]⟩ : Path).same
      ⟨absolute, front ++ [name ++ "." ++ "c"]⟩ = true := by
    have down : LeadsDown (name ++ "." ++ "c") := leadsDown_of_extension notEmpty (by decide)
    rw [same_append_iff]
    · intro same
      have sameLength := congrArg String.length (List.singleton_inj.mp same)
      rw [String.length_append, String.length_append] at sameLength
      change name.length = name.length + 1 + 1 at sameLength
      omega
    · intro piece isIn
      rw [List.mem_singleton.mp isIn]
      exact isIdle_eq_false_iff.mpr ⟨notEmpty, notDot⟩
    · intro piece isIn
      rw [List.mem_singleton.mp isIn]
      exact isIdle_eq_false_iff.mpr ⟨down.1, down.2.1⟩
  rw [executable, stripped, if_neg differs]

end Path

/-! ## Programs that meet -/

/-- The first program has the name of the C file of the second, with the extension of programs
behind it. -/
def NamedAfter (first second : SourceFile) : Prop :=
  ∃ above name, second.path.withExtension "c" = ⟨false, above ++ [name]⟩ ∧
    first.path = ⟨false, above ++ [name ++ ".teeny"]⟩

section Programs

variable {options : Options} {source first second : SourceFile} {stem : Stem}
  {above : List String} {name : String}

theorem namedAfter_iff (isStem : first.path = stem.path "teeny")
    (isRelative : second.path.withExtension "c" = ⟨false, above ++ [name]⟩) :
    NamedAfter first second ↔ stem.above ++ [stem.name] = above ++ [name] := by
  constructor
  · rintro ⟨otherAbove, otherName, isOther, isFirst⟩
    rw [isRelative, Path.mk.injEq] at isOther
    rw [isStem, Stem.path, Path.mk.injEq] at isFirst
    rcases List.append_inj' isFirst.2 rfl with ⟨sameAbove, sameLast⟩
    rw [isOther.2, sameAbove]
    simpa [String.append_assoc] using sameLast
  · intro same
    rcases List.append_inj' same rfl with ⟨rfl, sameName⟩
    cases sameName
    refine ⟨stem.above, stem.name, isRelative, ?_⟩
    rw [isStem, Stem.path, String.append_assoc]
    rfl

/-- The C file of a program below a directory has a name, or leads out of its directory. -/
theorem exists_saying (proper : stem.Proper) (isStem : source.path = stem.path "teeny") :
    ∃ above name, source.path.withExtension "c" = ⟨false, above ++ [name]⟩ ∧
      ∀ piece ∈ above ++ [name], Path.isIdle piece = false := by
  have down : ∀ piece ∈ (stem.path "c").pieces, LeadsDown piece := proper.leadsDown (by decide)
  have saying : ∀ {piece : String}, LeadsDown piece → Path.isIdle piece = false :=
    fun leads => Path.isIdle_eq_false_iff.mpr ⟨leads.1, leads.2.1⟩
  rw [isStem, proper.withExtension (by decide) (by decide) (by decide)]
  split
  · refine ⟨stem.above, "..", rfl, ?_⟩
    intro piece isIn
    rcases List.mem_append.mp isIn with isAbove | isLast
    · exact saying (proper.above piece isAbove)
    · rw [List.mem_singleton.mp isLast]
      rfl
  · exact ⟨stem.above, _, rfl, fun piece isIn => saying (down piece isIn)⟩

/-- Where the extension could not be replaced the output file was not written. -/
theorem name_ne_dot_of_written (proper : stem.Proper) (isStem : source.path = stem.path "teeny")
    (written : ∀ last, (outputFile options source).pieces.getLast? = some last →
      LeadsDown last) : stem.name ≠ "." := by
  intro isDot
  have replaced : source.path.withExtension (Command.outputExtension options.format) =
      ⟨false, stem.above ++ [".."]⟩ := by
    rw [isStem, proper.withExtension (by decide) (by decide) (outputExtension_ne_empty _),
      if_pos isDot]
  have isLast : (outputFile options source).pieces.getLast? = some ".." := by
    rw [outputFile, replaced, Path.getLast?_join (by simp)]
    simp
  exact absurd (written ".." isLast) (by decide)

/-- An executable that is built takes the place of an output file exactly if its program is
named after the C file. -/
theorem executable_same_iff (isC : options.format = "c") (proper : stem.Proper)
    (isStem : first.path = stem.path "teeny")
    (written : ∀ last, (outputFile options first).pieces.getLast? = some last → LeadsDown last)
    (isSecond : second.path = .ofString "" ∨
      ∃ other : Stem, other.Proper ∧ second.path = other.path "teeny") :
    (outputFile options first).executable.same (outputFile options second) = true ↔
      NamedAfter first second := by
  have notDot := name_ne_dot_of_written proper isStem written
  rcases Path.exists_join (Path.ofString options.output) with ⟨absolute, front, joins⟩
  have isOutput : ∀ source : SourceFile, outputFile options source =
      (Path.ofString options.output).join (source.path.withExtension "c") := by
    intro source
    rw [outputFile, isC]
    rfl
  have isFile : outputFile options first =
      ⟨absolute, front ++ stem.above ++ [stem.name ++ "." ++ "c"]⟩ := by
    rw [isOutput, isStem, proper.withExtension (by decide) (by decide) (by decide), if_neg notDot,
      Stem.path, joins, List.append_assoc]
  have isExecutable : (outputFile options first).executable =
      ⟨absolute, front ++ (stem.above ++ [stem.name])⟩ := by
    rw [isFile, Path.executable_of_last rfl proper.name notDot]
    simp only [List.append_assoc]
  have saying : ∀ piece ∈ stem.above ++ [stem.name], Path.isIdle piece = false := by
    intro piece isIn
    apply Path.isIdle_eq_false_iff.mpr
    rcases List.mem_append.mp isIn with isAbove | isLast
    · exact ⟨(proper.above piece isAbove).1, (proper.above piece isAbove).2.1⟩
    · rw [List.mem_singleton.mp isLast]
      exact ⟨proper.name, notDot⟩
  rw [isExecutable, isOutput second]
  rcases isSecond with isRoot | ⟨other, otherProper, isOther⟩
  · have isRelative : second.path.withExtension "c" = ⟨false, [] ++ [""]⟩ := by
      rw [isRoot]
      rfl
    have idle : (⟨absolute, front ++ ([] ++ [""])⟩ : Path).names =
        (⟨absolute, front⟩ : Path).names := by
      cases front <;> simp [Path.names, Path.isIdle, Path.isIdleFirst]
    rw [isRelative, joins, namedAfter_iff isStem isRelative]
    constructor
    · intro same
      rw [Path.same, Path.names_append saying, idle] at same
      simp at same
    · intro same
      rcases List.append_inj' same rfl with ⟨_, sameName⟩
      exact absurd (List.singleton_inj.mp sameName) proper.name
  · rcases exists_saying otherProper isOther with ⟨above, name, isRelative, otherSaying⟩
    rw [isRelative, joins, Path.same_append_iff saying otherSaying,
      namedAfter_iff isStem isRelative]

end Programs

/-- A file was written at the path only if its last piece is a name. -/
theorem World.leadsDown_of_writeOutput {world after : World} {path : Path} {text last : String}
    (ran : Command.perform world (Command.writeOutput path text) = (.ok (), after))
    (isLast : path.pieces.getLast? = some last) : LeadsDown last := by
  obtain ⟨middle, _, written⟩ := Command.fileHost_world.exists_write_of_writeOutput ran
  exact FileTree.leadsDown_of_write written isLast

/-! ## Whole runs -/

/-- A program has an output file that can be written to, and the invocation builds it. -/
def Builds (options : Options) (sources : List SourceFile) (entry : String × List String) : Prop :=
  ∃ source ∈ sources,
    (∀ last, (outputFile options source).pieces.getLast? = some last → LeadsDown last) ∧
      ∃ compiler, options.compiler = some compiler ∧ options.format = "c" ∧
        entry = (compiler,
          [(outputFile options source).text, "-o", (outputFile options source).executable.text])

namespace Journal

variable {allowed : String × List String → Prop} {journal : Journal} {world : World}
  {options : Options} {sources : List SourceFile}

theorem follows_writeRendered {output : Path × String}
    (isAllowed : (∀ last, output.1.pieces.getLast? = some last → LeadsDown last) →
      ∀ compiler, options.compiler = some compiler → options.format = "c" →
        allowed (compiler, [output.1.text, "-o", output.1.executable.text])) :
    Follows allowed journal (Command.writeRendered options output)
      (Command.writeRendered options output) := by
  apply (follows_writeOutput _ _).bind
  intro _ written wrote
  apply (follows_progress options _).bind
  intro _ noted _
  apply follows_buildOutput
  apply isAllowed
  intro last isLast
  exact World.leadsDown_of_writeOutput wrote isLast

/-- A run on a directory invokes the C compiler only, for output files that it has written. -/
theorem follows_run {directory : String} (isDirectory : options.inputDirectory = some directory)
    (found : world.files.sources (.ofString directory) = .ok sources) :
    Follows (Builds options sources) ⟨world, []⟩ (Command.run options)
      (Command.run options) := by
  simp only [Command.run, isDirectory]
  apply (follows_readSources _).bind
  intro programs searched read
  rw [World.perform_readSources, found] at read
  cases World.eq_ok_of_programsIn (Prod.mk.inj read).1
  apply (follows_attempt_pure _ _).bind
  intro outputs rendered renders
  rw [Command.perform_attempt_pure] at renders
  have mapped : sources.mapM (Command.renderSource options) = .ok outputs := by
    cases results : sources.mapM (Command.renderSource options) with
    | error failure =>
        rw [results] at renders
        cases renders
    | ok rest =>
        rw [results] at renders
        exact (Prod.mk.inj renders).1
  apply Follows.bind
  · apply follows_forM
    intro output isIn journal
    apply follows_writeRendered
    intro written compiler isCompiler isC
    rcases exists_value_of_mapM mapped isIn with ⟨source, isSource, isOk⟩
    rcases renderSource_eq_ok_iff.mp isOk with ⟨text, _, rfl⟩
    exact ⟨source, isSource, written, compiler, isCompiler, isC, rfl⟩
  · intro _ finished _
    exact follows_progress options _

end Journal

/-- A run on a directory with a C compiler is the same with a journal, and in this journal there is
nothing but builds of output files.  An executable that is built has the path of an output file
exactly if its program is named after that file. -/
theorem run_directory_builds_over_iff {world : World} {options : Options}
    {directory compiler : String} {sources : List SourceFile}
    (isDirectory : options.inputDirectory = some directory) (isC : options.format = "c")
    (isCompiler : options.compiler = some compiler) (wellFormed : world.files.WellFormed)
    (found : world.files.sources (.ofString directory) = .ok sources) :
    ((Journal.run world options).1, (Journal.run world options).2.world) = world.run options ∧
      ∀ entry ∈ (Journal.run world options).2.invocations, ∃ first ∈ sources,
        entry = (compiler,
          [(outputFile options first).text, "-o", (outputFile options first).executable.text]) ∧
        ∀ second ∈ sources,
          (outputFile options first).executable.same (outputFile options second) = true ↔
            NamedAfter first second := by
  have follows := Journal.follows_run isDirectory found
  apply And.intro follows.same
  intro entry isEntry
  have builds : Builds options sources entry := by
    rcases follows.entries entry isEntry with isEarlier | builds
    · cases isEarlier
    · exact builds
  rcases builds with ⟨first, isFirst, written, given, isGiven, _, rfl⟩
  cases isCompiler.symm.trans isGiven
  rcases exists_holds_of_written wellFormed found isFirst written with ⟨stem, holds, _⟩
  refine ⟨first, isFirst, rfl, ?_⟩
  intro second isSecond
  apply executable_same_iff isC holds.proper holds.path written
  rcases wellFormed.holds_sources found isSecond with isRoot | ⟨other, otherHolds⟩
  · exact .inl isRoot
  · exact .inr ⟨other, otherHolds.proper, otherHolds.path⟩

/-- Two programs of one directory, of which one is named after the C file of the other:

```text
s/a.c.teeny
s/a.teeny
```
-/
def namesake : World where
  files := ⟨[(⟨.above 0, ["s"]⟩, .directory),
    (⟨.above 0, ["s", "a.c.teeny"]⟩, .file (.ofString "print 1")),
    (⟨.above 0, ["s", "a.teeny"]⟩, .file (.ofString "print 2"))]⟩

/-- The two programs in the order in which they are translated. -/
def namesakePrograms : List SourceFile :=
  [⟨⟨false, ["a.c.teeny"]⟩, "print 1"⟩, ⟨⟨false, ["a.teeny"]⟩, "print 2"⟩]

theorem sources_namesake : namesake.files.sources (.ofString "s") = .ok namesakePrograms := by
  have found : namesake.files.filesBelow (.ofString "s") isSourcePath =
      .ok [⟨⟨false, ["a.c.teeny"]⟩, .ofString "print 1"⟩,
        ⟨⟨false, ["a.teeny"]⟩, .ofString "print 2"⟩] := rfl
  refine sources_eq_ok_iff.mpr
    ⟨_, found, sourcesOf_eq_ok_iff.mpr ⟨namesakePrograms, ?_, ?_⟩⟩
  · rw [mapM_eq_ok_iff]
    simp [FoundFile.source, namesakePrograms]
  · rw [namesakePrograms, mergeSort_pair, if_pos (by decide)]

/-- Translate everything in `s` to `o`, with a compiler that prints what it is given. -/
def buildAll : Options := ⟨none, some "s", "o", "c", some "echo", false⟩

theorem run_namesake : (Journal.run namesake buildAll).1 = .ok () ∧
    (Journal.run namesake buildAll).2.invocations =
      [("echo", ["o/a.c.c", "-o", "o/a.c"]), ("echo", ["o/a.c", "-o", "o/a"])] := by
  have follows : Journal.Follows (fun _ => False) ⟨namesake, []⟩
      (Command.readSources (.ofString "s")) (Command.readSources (.ofString "s")) :=
    Journal.follows_readSources _
  have read : Command.perform (⟨namesake, []⟩ : Journal) (Command.readSources (.ofString "s")) =
      (.ok namesakePrograms, ⟨namesake, []⟩) := by
    rw [follows.perform_eq, World.perform_readSources, sources_namesake]
    rfl
  change (Command.perform (⟨namesake, []⟩ : Journal) (Command.runDirectory buildAll _)).1 = _ ∧
    (Command.perform (⟨namesake, []⟩ : Journal) (Command.runDirectory buildAll _)).2.invocations = _
  rw [Command.runDirectory, Command.perform_bind, read]
  constructor
  · decide +kernel
  · decide +kernel

/-- The run succeeds, and has the first program built where the second is written to. -/
theorem run_directory_builds_over :
    namesake.files.sources (.ofString "s") = .ok namesakePrograms ∧
      (Journal.run namesake buildAll).1 = .ok () ∧
      ∃ first ∈ namesakePrograms, ∃ second ∈ namesakePrograms,
        ("echo", [(outputFile buildAll first).text, "-o",
            (outputFile buildAll first).executable.text]) ∈
          (Journal.run namesake buildAll).2.invocations ∧
        (outputFile buildAll first).executable.same (outputFile buildAll second) = true := by
  refine ⟨sources_namesake, run_namesake.1, _, List.mem_cons_self, _,
    List.mem_cons_of_mem _ List.mem_cons_self, ?_, ?_⟩
  · rw [run_namesake.2]
    decide +kernel
  · decide +kernel

theorem run_directory_builds_over_iff_namesake :
    namesake.files.sources (.ofString "s") = .ok namesakePrograms ∧
      ("echo", ["o/a.c.c", "-o", "o/a.c"]) ∈ (Journal.run namesake buildAll).2.invocations ∧
      ∃ first ∈ namesakePrograms,
        ("echo", ["o/a.c.c", "-o", "o/a.c"]) = ("echo",
          [(outputFile buildAll first).text, "-o", (outputFile buildAll first).executable.text]) ∧
        ∀ second ∈ namesakePrograms,
          (outputFile buildAll first).executable.same (outputFile buildAll second) = true ↔
            NamedAfter first second := by
  have invoked : ("echo", ["o/a.c.c", "-o", "o/a.c"]) ∈
      (Journal.run namesake buildAll).2.invocations := by
    rw [run_namesake.2]
    exact List.mem_cons_self
  have wellFormed : namesake.files.WellFormed := ⟨by decide, by decide⟩
  exact ⟨sources_namesake, invoked,
    (run_directory_builds_over_iff rfl rfl rfl wellFormed sources_namesake).2 _ invoked⟩

end TeenyC
