import TeenyC.Proofs.DirectoryRun
import TeenyC.Proofs.FailedRun

/-!
# Runs on a directory that stop while they write

A run on a directory that fails while it writes or builds has written the programs up to the one
where it fails, and has not touched the output files of those that come later:
`run_directory_stops`.  This holds on every host whose files are a file tree without links, whatever
the C compiler answers, as long as it changes no files.

Not touched means that no file was created or changed there.  A directory may have been made:
writing `a.c/b.c` makes the directory `a.c`, where the program `a.teeny` cannot be written later on.
A program `..teeny` has no output file of its own, as a path that ends in two dots leads to
directories only, even where a file was written at the place that its names lead to.
-/

namespace TeenyC

/-! ## Untouched files -/

/-- A file that stood at the path is still there, and a file that stands there was there before. -/
structure Untouched (before after : FileTree) (path : Path) : Prop where
  kept : ∀ location data, before.find path = .ok (location, .file data) →
    after.find path = .ok (location, .file data)
  old : ∀ location data, after.find path = .ok (location, .file data) →
    before.get? location = some (.file data)

namespace FileTree

variable {tree before after : FileTree} {path : Path} {location : Location} {data : Bytes}
  {made : Location → Prop}

/-- Files are only found at paths whose last piece is a name. -/
theorem leadsDown_of_find (found : tree.find path = .ok (location, .file data)) (last : String)
    (isLast : path.pieces.getLast? = some last) : LeadsDown last := by
  apply Decidable.byContradiction
  intro notName
  obtain ⟨resolved, isFile⟩ := find_eq_ok_iff.mp found
  obtain ⟨_, ⟨⟩, isDirectory⟩ := found_directory_of_resolve isLast notName resolved
  simp [FileTree.isDirectory, isFile] at isDirectory

/-- A path is untouched if the tree only grows where the path leads, in case its last piece is a
name. -/
theorem untouched_of_growsAt (linkFree : before.LinkFree) (afterLinkFree : after.LinkFree)
    (keeps : Keeps before after)
    (growsAt : (∀ last, path.pieces.getLast? = some last → LeadsDown last) →
      GrowsAt made before after path.destination) : Untouched before after path where
  kept := by
    intro location data found
    obtain ⟨resolved, isFile⟩ := find_eq_ok_iff.mp found
    obtain rfl : location = path.destination := location_of_resolve linkFree resolved
    have stays := (growsAt (leadsDown_of_find found)).get?_eq (by simp [isFile])
    exact find_of_keeps linkFree afterLinkFree keeps resolved (stays.trans isFile)
  old := by
    intro location data found
    obtain ⟨resolved, isFile⟩ := find_eq_ok_iff.mp found
    obtain rfl : location = path.destination := location_of_resolve afterLinkFree resolved
    rcases growsAt (leadsDown_of_find found) with same | ⟨_, isDirectory, _⟩
    · exact same.symm.trans isFile
    · cases isFile.symm.trans isDirectory

end FileTree

/-! ## Runs that were stopped -/

/-- What a run on a directory leaves behind that fails at one of its programs. -/
structure StopsCleanly (options : Options) (earlier : List SourceFile) (stopped : SourceFile)
    (later : List SourceFile) (failure : Failure) (before after : FileTree) : Prop where
  /-- The output files of the earlier programs hold what these are rendered to. -/
  written : ∀ source ∈ earlier, ∃ text, render source.contents options.format = .ok text ∧
    after.read (outputFile options source) = .ok (.ofString text)
  /-- So does that of the program where the run fails, if it fails to build. -/
  unbuilt : failure.isOfBuilding = true → ∃ text,
    render stopped.contents options.format = .ok text ∧
      after.read (outputFile options stopped) = .ok (.ofString text)
  /-- If it fails to write, then the output file is untouched. -/
  unwritten : failure.isOfBuilding = false → Untouched before after (outputFile options stopped)
  /-- The output files of the later programs are untouched. -/
  later : ∀ source ∈ later, Untouched before after (outputFile options source)
  /-- Everything else is as it was, but for directories that were missing in front of the output
  files. -/
  others : ∀ location,
    (∀ source ∈ earlier, location ≠ (outputFile options source).destination) →
    (failure.isOfBuilding = true → location ≠ (outputFile options stopped).destination) →
      after.get? location = before.get? location ∨
        (before.get? location = none ∧ after.get? location = some .directory ∧
          ∃ source ∈ earlier ++ [stopped], ∃ above : Path,
            above.Above (outputFile options source) ∧ location = above.destination)

namespace DirectoryRun

variable {options : Options} {root : Path} {sources written earlier later : List SourceFile}
  {outputs : List (Path × String)} {before middle after : FileTree} {source stopped : SourceFile}
  {made : Location → Prop} {failure : Failure}

section Grown

variable (run : DirectoryRun options root sources written outputs before middle)
  (grows : FileTree.Grows made middle after)
include run grows

/-- What was written stays when directories are made. -/
theorem read_of_grows (isIn : source ∈ written) :
    ∃ text, render source.contents options.format = .ok text ∧
      after.read (outputFile options source) = .ok (.ofString text) := by
  obtain ⟨text, isText, isThere, isRead⟩ := run.read_outputFile isIn
  have middleLinkFree := run.writes.linkFree_after run.linkFree
  have stays := (grows (outputFile options source).destination).get?_eq (by simp [isThere])
  exact ⟨text, isText, FileTree.read_of_keeps middleLinkFree (grows.linkFree middleLinkFree)
    grows.keeps isRead stays⟩

variable (within : ∀ location, FileTree.IsAbove (written.map (outputFile options)) location →
  made location)
include within

theorem growsAt_of_grows {location : Location}
    (elsewhere : ∀ source ∈ written, location ≠ (outputFile options source).destination) :
    FileTree.GrowsAt made before after location :=
  ((run.growsAt elsewhere).mono within).trans (grows location)

/-- The output files of programs that were not written are untouched. -/
theorem untouched_of_grows {rest : List SourceFile} (isSplit : sources = written ++ rest)
    (isIn : source ∈ rest) : Untouched before after (outputFile options source) := by
  have middleLinkFree := run.writes.linkFree_after run.linkFree
  have distinct := run.wellFormed.distinct_sources run.found
  rw [isSplit] at distinct
  have isSource : source ∈ sources := isSplit ▸ List.mem_append_right written isIn
  apply FileTree.untouched_of_growsAt run.linkFree (grows.linkFree middleLinkFree)
    ((run.writes.keeps run.linkFree).trans grows.keeps)
  intro down
  apply run.growsAt_of_grows grows within
  intro other isWritten
  have differ := (List.pairwise_append.mp distinct).2.2 other isWritten source isIn
  exact (run.destination_ne isWritten isSource down differ).symm

end Grown

/-- A run that fails to write one of its programs, after it has written the earlier ones. -/
theorem stopsCleanly_of_unwritten
    (run : DirectoryRun options root (earlier ++ stopped :: later) earlier outputs before middle)
    (grows : FileTree.Grows (FileTree.IsAbove [outputFile options stopped]) middle after)
    (isOfWriting : failure.isOfBuilding = false) :
    StopsCleanly options earlier stopped later failure before after := by
  have within : ∀ location, FileTree.IsAbove (earlier.map (outputFile options)) location →
      FileTree.IsAbove ((earlier ++ [stopped]).map (outputFile options)) location :=
    fun _ isAbove => isAbove.mono (by simp)
  have growsWithin : FileTree.Grows
      (FileTree.IsAbove ((earlier ++ [stopped]).map (outputFile options))) middle after :=
    grows.mono fun _ isAbove => isAbove.mono (by simp)
  refine ⟨?_, ?_, ?_, ?_, ?_⟩
  · intro source isIn
    exact run.read_of_grows grows isIn
  · intro building
    cases isOfWriting.symm.trans building
  · intro _
    exact run.untouched_of_grows growsWithin within rfl List.mem_cons_self
  · intro source isIn
    exact run.untouched_of_grows growsWithin within rfl (List.mem_cons_of_mem _ isIn)
  · intro location elsewhere _
    exact others_of_growsAt (run.growsAt_of_grows growsWithin within elsewhere)

/-- A run that fails to build one of its programs, after it has written it and the earlier ones. -/
theorem stopsCleanly_of_unbuilt
    (run : DirectoryRun options root (earlier ++ stopped :: later) (earlier ++ [stopped]) outputs
      before after)
    (isOfBuilding : failure.isOfBuilding = true) :
    StopsCleanly options earlier stopped later failure before after := by
  have grows := FileTree.Grows.refl
    (FileTree.IsAbove ((earlier ++ [stopped]).map (outputFile options))) after
  refine ⟨?_, ?_, ?_, ?_, ?_⟩
  · intro source isIn
    exact run.read_of_grows grows (List.mem_append_left _ isIn)
  · intro _
    exact run.read_of_grows grows List.mem_concat_self
  · intro writing
    cases isOfBuilding.symm.trans writing
  · intro source isIn
    exact run.untouched_of_grows grows (fun _ => id) (List.append_cons ..) isIn
  · intro location elsewhere apart
    have notWritten : ∀ source ∈ earlier ++ [stopped],
        location ≠ (outputFile options source).destination := by
      intro source isIn
      rcases List.mem_append.mp isIn with isEarlier | isStopped
      · exact elsewhere source isEarlier
      · rw [List.mem_singleton.mp isStopped]
        exact apart isOfBuilding
    exact others_of_growsAt (run.growsAt_of_grows grows (fun _ => id) notWritten)

end DirectoryRun

/-! ## Whole runs -/

namespace Command

variable {σ : Type} [Host (StateM σ)] {files : σ → FileTree} {state after : σ} {options : Options}
  {directory : String} {sources earlier later : List SourceFile} {stopped : SourceFile}
  {failure : Failure}

/-- A run on a directory reads its programs, renders all, writes and builds the earlier ones, and
fails when it writes and builds the next. -/
def FailsAt (options : Options) (directory : String) (state : σ) (earlier : List SourceFile)
    (stopped : SourceFile) (later : List SourceFile) (failure : Failure) (after : σ) : Prop :=
  ∃ outputs output others searched middle,
    perform state (readSources (.ofString directory)) =
      (.ok (earlier ++ stopped :: later), searched) ∧
    earlier.mapM (renderSource options) = .ok outputs ∧
    renderSource options stopped = .ok output ∧
    later.mapM (renderSource options) = .ok others ∧
    perform searched (outputs.forM (writeRendered options)) = (.ok (), middle) ∧
    perform middle (writeRendered options output) = (.error failure, after)

theorem perform_progress (state : σ) (text : String) :
    (perform state (progress options text)).1 = .ok () := by
  unfold progress
  split <;> rfl

/-- A run on a directory whose programs can all be rendered, and that fails, fails at one of
them. -/
theorem exists_failsAt (host : FileHost files)
    (isDirectory : options.inputDirectory = some directory)
    (found : (files state).sources (.ofString directory) = .ok sources) (notNil : sources ≠ [])
    (renders : ∀ source ∈ sources, ∃ text, render source.contents options.format = .ok text)
    (fails : perform state (run options) = (.error failure, after)) :
    ∃ earlier stopped later, sources = earlier ++ stopped :: later ∧
      FailsAt options directory state earlier stopped later failure after := by
  obtain ⟨searched, read, _⟩ := host.perform_readSources (.ofString directory) state
  have programs : World.programsIn (.ofString directory) (.ok sources) = .ok sources := by
    obtain ⟨first, rest, rfl⟩ := List.exists_cons_of_ne_nil notNil
    rfl
  rw [found, programs] at read
  have rendersAll : ∀ source ∈ sources, ∃ output, renderSource options source = .ok output := by
    intro source isIn
    obtain ⟨text, isText⟩ := renders source isIn
    exact renderSource_of_ok isText
  obtain ⟨outputs, mapped⟩ := exists_results_iff.mpr rendersAll
  have rendered : perform searched
      (attempt (m := StateM σ) id (pure (sources.mapM (renderSource options)))) =
        (.ok outputs, searched) := by
    rw [mapped]
    rfl
  rw [run, isDirectory] at fails
  change perform state (runDirectory options (.ofString directory)) = _ at fails
  rw [runDirectory, perform_bind_of_ok read, perform_bind_of_ok rendered] at fails
  rcases perform_bind_eq_error_iff.mp fails with stops | ⟨_, middle, _, progressFails⟩
  · obtain ⟨earlierOutputs, output, laterOutputs, middle, rfl, succeeded, stopsHere⟩ :=
      exists_of_perform_forM_error stops
    obtain ⟨earlier, stopped, later, rfl, isEarlier, isOutput, isLater⟩ :=
      exists_split_of_mapM mapped
    exact ⟨earlier, stopped, later, rfl, earlierOutputs, output, laterOutputs, searched, middle,
      read, isEarlier, isOutput, isLater, succeeded, stopsHere⟩
  · have never := congrArg Prod.fst progressFails
    rw [perform_progress] at never
    cases never

/-- A run that fails at one of its programs stops cleanly. -/
theorem FailsAt.stopsCleanly
    (failsAt : FailsAt options directory state earlier stopped later failure after)
    (host : FileHost files) (wellFormed : (files state).WellFormed)
    (linkFree : (files state).LinkFree) :
    StopsCleanly options earlier stopped later failure (files state) (files after) := by
  obtain ⟨outputs, output, others, searched, middle, read, mapped, isOutput, _, succeeded, stops⟩ :=
    failsAt
  obtain ⟨_, programs, same⟩ := host.perform_readSources (.ofString directory) state
  obtain ⟨isFound, rfl⟩ := Prod.mk.inj (programs.symm.trans read)
  have found := World.eq_ok_of_programsIn isFound
  obtain ⟨text, _, rfl⟩ := renderSource_eq_ok_iff.mp isOutput
  have writes := host.writesFiles_of_forM (same ▸ linkFree) succeeded
  rw [same] at writes
  rcases host.writeRendered_cases (writes.linkFree_after linkFree) stops with
    ⟨isOfWriting, grows⟩ | ⟨isOfBuilding, wrote⟩
  · have run : DirectoryRun options (.ofString directory) (earlier ++ stopped :: later) earlier
        outputs (files state) (files middle) :=
      ⟨wellFormed, linkFree, found, List.sublist_append_left .., mapped, writes⟩
    exact run.stopsCleanly_of_unwritten grows isOfWriting
  · have part : (earlier ++ [stopped]).Sublist (earlier ++ stopped :: later) :=
      (List.append_sublist_append_left earlier).mpr (by simp)
    have run : DirectoryRun options (.ofString directory) (earlier ++ stopped :: later)
        (earlier ++ [stopped]) (outputs ++ [(outputFile options stopped, text)]) (files state)
        (files after) :=
      ⟨wellFormed, linkFree, found, part, mapM_concat_of_ok mapped isOutput, writes.concat wrote⟩
    exact run.stopsCleanly_of_unbuilt isOfBuilding

end Command

/-- A run on a directory of a tree without links, whose programs can all be rendered, stops at a
clean prefix where it fails.  It fails when it writes or builds one of the programs, in their order.
The output files of those before it hold what they are rendered to, and so does its own if building
fails; and at the output files of those behind it no file is created or changed.  The host may be
any that has its files in a file tree, so the C compiler may do and answer what it likes, but for
changing files. -/
theorem run_directory_stops {σ : Type} [Host (StateM σ)] {files : σ → FileTree}
    (host : Command.FileHost files) {state : σ} {options : Options} {directory : String}
    {sources : List SourceFile} {failure : Failure}
    (isDirectory : options.inputDirectory = some directory)
    (wellFormed : (files state).WellFormed) (linkFree : (files state).LinkFree)
    (found : (files state).sources (.ofString directory) = .ok sources) (notNil : sources ≠ [])
    (renders : ∀ source ∈ sources, ∃ text, render source.contents options.format = .ok text)
    (fails : (Command.perform state (Command.run options)).1 = .error failure) :
    ∃ earlier stopped later, sources = earlier ++ stopped :: later ∧
      (sources.Pairwise fun first second => first.path.UpTo second.path) ∧
      Command.FailsAt options directory state earlier stopped later failure
        (Command.perform state (Command.run options)).2 ∧
      StopsCleanly options earlier stopped later failure (files state)
        (files (Command.perform state (Command.run options)).2) := by
  have ran : Command.perform state (Command.run options) = (.error failure, _) :=
    Prod.ext fails rfl
  obtain ⟨earlier, stopped, later, isSplit, failsAt⟩ :=
    Command.exists_failsAt host isDirectory found notNil renders ran
  exact ⟨earlier, stopped, later, isSplit, pairwise_upTo_of_sources found, failsAt,
    failsAt.stopsCleanly host wellFormed linkFree⟩

/-- Three programs, and a directory where the second is to be written:

```text
s/a.teeny: print 1
s/b.teeny: print 2
s/c.teeny
o/b.c/
```
-/
def secondBlocked : World where
  files := ⟨[(⟨.above 0, ["s"]⟩, .directory),
    (⟨.above 0, ["s", "a.teeny"]⟩, .file (.ofString "print 1")),
    (⟨.above 0, ["s", "b.teeny"]⟩, .file (.ofString "print 2")),
    (⟨.above 0, ["s", "c.teeny"]⟩, .file (.ofString "")),
    (⟨.above 0, ["o"]⟩, .directory), (⟨.above 0, ["o", "b.c"]⟩, .directory)]⟩

/-- Translate everything in `s` to `o`, with a compiler that prints what it is given. -/
def echoBuilds : Options := ⟨none, some "s", "o", "c", some "echo", false⟩

/-- The three programs in the order in which they are translated. -/
def threePrograms : List SourceFile :=
  [⟨⟨false, ["a.teeny"]⟩, "print 1"⟩, ⟨⟨false, ["b.teeny"]⟩, "print 2"⟩,
    ⟨⟨false, ["c.teeny"]⟩, ""⟩]

theorem sources_secondBlocked :
    secondBlocked.files.sources (.ofString "s") = .ok threePrograms := by
  have found : secondBlocked.files.filesBelow (.ofString "s") isSourcePath =
      .ok [⟨⟨false, ["a.teeny"]⟩, .ofString "print 1"⟩, ⟨⟨false, ["b.teeny"]⟩, .ofString "print 2"⟩,
        ⟨⟨false, ["c.teeny"]⟩, .ofString ""⟩] := rfl
  refine sources_eq_ok_iff.mpr
    ⟨_, found, sourcesOf_eq_ok_iff.mpr ⟨threePrograms, ?_, ?_⟩⟩
  · rw [mapM_eq_ok_iff]
    simp [FoundFile.source, threePrograms]
  · exact List.mergeSort_of_pairwise (by decide)

/-- The run stops at the second program, after the first was built. -/
theorem run_directory_stops_secondBlocked :
    (secondBlocked.run echoBuilds).1 = .error (.writeFile ⟨false, ["o", "b.c"]⟩ .isADirectory) ∧
      (secondBlocked.run echoBuilds).2.output = "o/a.c -o o/a\n" ∧
      ∃ earlier stopped later, threePrograms = earlier ++ stopped :: later ∧
        StopsCleanly echoBuilds earlier stopped later
          (.writeFile ⟨false, ["o", "b.c"]⟩ .isADirectory) secondBlocked.files
          (secondBlocked.run echoBuilds).2.files := by
  have read := World.perform_readSources secondBlocked (.ofString "s")
  rw [sources_secondBlocked] at read
  have isRun : secondBlocked.run echoBuilds =
      Command.perform secondBlocked (Command.runDirectory echoBuilds (.ofString "s")) := rfl
  rw [Command.runDirectory, Command.perform_bind_of_ok read] at isRun
  have fails : (secondBlocked.run echoBuilds).1 =
      .error (.writeFile ⟨false, ["o", "b.c"]⟩ .isADirectory) := by
    rw [isRun]
    decide +kernel
  have prints : (secondBlocked.run echoBuilds).2.output = "o/a.c -o o/a\n" := by
    rw [isRun]
    decide +kernel
  have linkFree : secondBlocked.files.LinkFree := by
    refine FileTree.linkFree_of_entries ?_
    simp [secondBlocked]
  have renders : ∀ source ∈ threePrograms, ∃ text, render source.contents "c" = .ok text := by
    simp only [threePrograms, List.forall_mem_cons]
    exact ⟨⟨_, by cbv⟩, ⟨_, by cbv⟩, ⟨_, by cbv⟩, by simp⟩
  obtain ⟨earlier, stopped, later, isSplit, _, _, stops⟩ :=
    run_directory_stops Command.fileHost_world rfl ⟨by decide, by decide⟩ linkFree
      sources_secondBlocked (by decide) renders fails
  exact ⟨fails, prints, earlier, stopped, later, isSplit, stops⟩

end TeenyC
