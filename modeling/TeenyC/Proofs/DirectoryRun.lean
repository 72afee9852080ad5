import TeenyC.Proofs.Command.FileHost
import TeenyC.Proofs.FileTree.Search

/-!
# Runs on a directory

A run on a directory that succeeds writes exactly one output file for every program below the
directory, and each holds what its program is rendered to: `run_directory_translates`.

The output files may stand among the programs.  No two of them meet, because programs that
differ do so in front of their common extension; and none meets a program, because its own
extension is another one.  Where the extension cannot be replaced, in a file that is searched
itself and in one whose name is a dot in front of its extension, no file name is left to be
written to, and the run fails.
-/

namespace TeenyC

/-! ## What a run writes -/

section Outputs

variable {options : Options} {source : SourceFile} {output : Path × String}

/-- The output file of a program. -/
def outputFile (options : Options) (source : SourceFile) : Path :=
  (Path.ofString options.output).join
    (source.path.withExtension (Command.outputExtension options.format))

theorem renderSource_eq_ok_iff :
    Command.renderSource options source = .ok output ↔
      ∃ text, render source.contents options.format = .ok text ∧
        output = (outputFile options source, text) := by
  rw [Command.renderSource]
  cases render source.contents options.format with
  | error error => exact ⟨nofun, fun ⟨_, rendered, _⟩ => nomatch rendered⟩
  | ok text =>
      constructor
      · rintro ⟨⟩
        exact ⟨text, rfl, rfl⟩
      · rintro ⟨_, ⟨⟩, rfl⟩
        rfl

theorem outputExtension_cases (formatName : String) :
    Command.outputExtension formatName = "c" ∨ Command.outputExtension formatName = "tokens" := by
  rw [Command.outputExtension]
  cases (Format.ofName? formatName).getD .c
  · exact .inl rfl
  · exact .inr rfl

theorem outputExtension_ne_empty (formatName : String) :
    Command.outputExtension formatName ≠ "" := by
  rcases outputExtension_cases formatName with isC | isTokens
  · rw [isC]
    decide
  · rw [isTokens]
    decide

/-- A file below a directory is where its names lead from there. -/
theorem destination_join_stem {stem : Stem} (proper : stem.Proper) (base : Path)
    {extension : String} (extension_ne : extension ≠ "") :
    (base.join (stem.path extension)).destination =
      Location.child ⟨base.destination.origin, base.destination.names ++ stem.above⟩
        (stem.name ++ "." ++ extension) := by
  rw [Path.destination_join rfl, Location.after_of_leadsDown (proper.leadsDown extension_ne)]
  simp [Stem.path, Location.child]

theorem stem_eq_of_destination_eq {stem other : Stem} (proper : stem.Proper)
    (otherProper : other.Proper) {base : Path} {extension : String} (extension_ne : extension ≠ "")
    (same : (base.join (stem.path extension)).destination =
      (base.join (other.path extension)).destination) : stem = other := by
  rw [Path.destination_join rfl, Path.destination_join rfl,
    Location.after_of_leadsDown (proper.leadsDown extension_ne),
    Location.after_of_leadsDown (otherProper.leadsDown extension_ne), Location.mk.injEq] at same
  exact Stem.eq_of_path_eq (List.append_cancel_left same.2)

/-- An output file is nowhere where a name has the extension of programs. -/
theorem destination_ne_program {stem : Stem} (proper : stem.Proper) (base : Path)
    (formatName name : String) (directory : Location) :
    directory.child (name ++ ".teeny") ≠
      (base.join (stem.path (Command.outputExtension formatName))).destination := by
  rw [destination_join_stem proper base (outputExtension_ne_empty _)]
  intro same
  have sameName : name ++ ".teeny" =
      stem.name ++ "." ++ Command.outputExtension formatName := by
    simpa [Location.child] using congrArg (fun location => location.names.getLast?) same
  have sameEnd := congrArg (fun text => text.toList.getLast?) sameName
  rcases outputExtension_cases formatName with isC | isTokens
  · simp [isC] at sameEnd
  · simp [isTokens] at sameEnd

/-- An output file that could be written has the path of its program, with another extension. -/
theorem outputFile_eq_join {stem : Stem} (proper : stem.Proper)
    (isStem : source.path = stem.path "teeny")
    (written : ∀ last, (outputFile options source).pieces.getLast? = some last →
      LeadsDown last) :
    outputFile options source = (Path.ofString options.output).join
      (stem.path (Command.outputExtension options.format)) := by
  have replaced : source.path.withExtension (Command.outputExtension options.format) =
      if stem.name = "." then ⟨false, stem.above ++ [".."]⟩
      else stem.path (Command.outputExtension options.format) := by
    rw [isStem]
    exact proper.withExtension (by decide) (by decide) (outputExtension_ne_empty _)
  rw [outputFile, replaced] at written ⊢
  split
  · next isDot =>
      rw [if_pos isDot, Path.getLast?_join (by simp)] at written
      exact absurd (written ".." (by simp)) (by decide)
  · rfl

/-- A program that was written to its output file was held below the path that was searched. -/
theorem exists_holds_of_written {tree : FileTree} {root : Path} {sources : List SourceFile}
    (wellFormed : tree.WellFormed) (found : tree.sources root = .ok sources)
    (isIn : source ∈ sources)
    (written : ∀ last, (outputFile options source).pieces.getLast? = some last →
      LeadsDown last) :
    ∃ stem, tree.Holds root source stem ∧
      outputFile options source = (Path.ofString options.output).join
        (stem.path (Command.outputExtension options.format)) := by
  rcases wellFormed.holds_sources found isIn with isRoot | ⟨stem, holds⟩
  · -- A program at the path itself has no file name to be written to.
    have kept : (Path.ofString "").withExtension (Command.outputExtension options.format) =
        ⟨false, [""]⟩ := rfl
    rw [outputFile, isRoot, kept, Path.getLast?_join (by simp)] at written
    exact absurd (written "" rfl) (by decide)
  · exact ⟨stem, holds, outputFile_eq_join holds.proper holds.path written⟩

end Outputs

/-! ## The result of a run -/

/-- What a run on a directory makes of a file tree in which it has found some programs. -/
structure Translates (options : Options) (root : Path) (sources : List SourceFile)
    (before after : FileTree) : Prop where
  /-- No two programs have output files that mean the same or lead to the same place. -/
  distinct : sources.Pairwise fun first second =>
    (outputFile options first).same (outputFile options second) = false ∧
      (outputFile options first).destination ≠ (outputFile options second).destination
  /-- The output file of a program has its path below the output directory, with the extension
  of the format, and holds what the program is rendered to. -/
  written : ∀ source ∈ sources, ∃ (stem : Stem) (text : String),
    source.path = stem.path "teeny" ∧
      outputFile options source = (Path.ofString options.output).join
        (stem.path (Command.outputExtension options.format)) ∧
      render source.contents options.format = .ok text ∧
      after.read (outputFile options source) = .ok (.ofString text) ∧
      after.get? (outputFile options source).destination = some (.file (.ofString text))
  /-- Every program can still be read from its file. -/
  kept : ∀ source ∈ sources, ∃ data, data.text? = some source.contents ∧
    before.read (root.join source.path) = .ok data ∧
    after.read (root.join source.path) = .ok data
  /-- Whatever has a name with the extension of programs is still there. -/
  programs : ∀ (above : Location) (name : String),
    before.get? (above.child (name ++ ".teeny")) ≠ none →
      after.get? (above.child (name ++ ".teeny")) = before.get? (above.child (name ++ ".teeny"))
  /-- Everything else is as it was, but for directories that were missing in front of the output
  files. -/
  others : ∀ location,
    (∀ source ∈ sources, location ≠ (outputFile options source).destination) →
      after.get? location = before.get? location ∨
        (before.get? location = none ∧ after.get? location = some .directory ∧
          ∃ source ∈ sources, ∃ above : Path, above.Above (outputFile options source) ∧
            location = above.destination)

/-- Where a tree grows in front of the output files of some programs, it stays as it is or gets a
directory above one of them. -/
theorem others_of_growsAt {options : Options} {programs : List SourceFile}
    {before after : FileTree} {location : Location}
    (grows : FileTree.GrowsAt (FileTree.IsAbove (programs.map (outputFile options))) before after
      location) :
    after.get? location = before.get? location ∨
      (before.get? location = none ∧ after.get? location = some .directory ∧
        ∃ source ∈ programs, ∃ above : Path, above.Above (outputFile options source) ∧
          location = above.destination) := by
  refine grows.imp_right ?_
  rintro ⟨nothing, isDirectory, path, isPath, above, isAbove, same⟩
  obtain ⟨source, isIn, rfl⟩ := List.mem_map.mp isPath
  exact ⟨nothing, isDirectory, source, isIn, above, isAbove, same⟩

/-- A run on a directory of a tree without links: what it has found, which of that it has written,
all of it if it succeeded, what that was rendered to, and the trees before and after the output
files were written. -/
structure DirectoryRun (options : Options) (root : Path) (sources written : List SourceFile)
    (outputs : List (Path × String)) (before after : FileTree) : Prop where
  wellFormed : before.WellFormed
  linkFree : before.LinkFree
  found : before.sources root = .ok sources
  part : written.Sublist sources
  rendered : written.mapM (Command.renderSource options) = .ok outputs
  writes : FileTree.WritesFiles outputs before after

namespace DirectoryRun

variable {options : Options} {root : Path} {sources written : List SourceFile}
  {outputs : List (Path × String)} {before after : FileTree} {source other : SourceFile}
  (run : DirectoryRun options root sources written outputs before after)
include run

theorem map_fst_outputs : outputs.map Prod.fst = written.map (outputFile options) := by
  refine map_eq_map_of_mapM run.rendered ?_
  intro source output isOk
  obtain ⟨text, _, rfl⟩ := renderSource_eq_ok_iff.mp isOk
  rfl

theorem exists_output (isIn : source ∈ written) :
    ∃ text, render source.contents options.format = .ok text ∧
      (outputFile options source, text) ∈ outputs := by
  obtain ⟨output, isOutput, isOk⟩ := exists_result_of_mapM run.rendered isIn
  obtain ⟨text, isText, rfl⟩ := renderSource_eq_ok_iff.mp isOk
  exact ⟨text, isText, isOutput⟩

theorem leadsDown (isIn : source ∈ written) (last : String)
    (isLast : (outputFile options source).pieces.getLast? = some last) : LeadsDown last := by
  obtain ⟨text, _, isOutput⟩ := run.exists_output isIn
  exact run.writes.leadsDown isOutput isLast

theorem exists_holds (isIn : source ∈ written) :
    ∃ stem, before.Holds root source stem ∧
      outputFile options source = (Path.ofString options.output).join
        (stem.path (Command.outputExtension options.format)) :=
  exists_holds_of_written run.wellFormed run.found (run.part.subset isIn) (run.leadsDown isIn)

/-- Another program whose output file has a name has it in another place. -/
theorem destination_ne (isIn : source ∈ written) (isOther : other ∈ sources)
    (down : ∀ last, (outputFile options other).pieces.getLast? = some last → LeadsDown last)
    (differ : source.path ≠ other.path) :
    (outputFile options source).destination ≠ (outputFile options other).destination := by
  intro same
  obtain ⟨stem, holds, isFile⟩ := run.exists_holds isIn
  obtain ⟨otherStem, otherHolds, isOtherFile⟩ :=
    exists_holds_of_written run.wellFormed run.found isOther down
  rw [isFile, isOtherFile] at same
  have equal := stem_eq_of_destination_eq holds.proper otherHolds.proper
    (outputExtension_ne_empty _) same
  exact differ (by rw [holds.path, otherHolds.path, equal])

/-- Different programs have output files in different places. -/
theorem distinct_outputFiles : written.Pairwise fun first second =>
    (outputFile options first).destination ≠ (outputFile options second).destination := by
  refine ((run.wellFormed.distinct_sources run.found).sublist run.part).imp_of_mem ?_
  intro first second isFirst isSecond differ
  exact run.destination_ne isFirst (run.part.subset isSecond) (run.leadsDown isSecond) differ

theorem distinct_outputs :
    outputs.Pairwise fun first second => first.1.destination ≠ second.1.destination := by
  have distinct : (outputs.map Prod.fst).Pairwise fun first second =>
      first.destination ≠ second.destination := by
    rw [run.map_fst_outputs]
    exact List.pairwise_map.mpr run.distinct_outputFiles
  exact (List.pairwise_map (f := Prod.fst)).mp distinct

/-- Every output file that was written holds its text. -/
theorem read_outputFile (isIn : source ∈ written) :
    ∃ text, render source.contents options.format = .ok text ∧
      after.get? (outputFile options source).destination = some (.file (.ofString text)) ∧
      after.read (outputFile options source) = .ok (.ofString text) := by
  obtain ⟨text, isText, isOutput⟩ := run.exists_output isIn
  exact ⟨text, isText, run.writes.holds run.linkFree run.distinct_outputs isOutput⟩

theorem growsAt {location : Location}
    (elsewhere : ∀ source ∈ written, location ≠ (outputFile options source).destination) :
    FileTree.GrowsAt (FileTree.IsAbove (written.map (outputFile options))) before after
      location := by
  have paths := run.map_fst_outputs
  rw [← paths]
  refine run.writes.growsAt run.linkFree ?_
  intro output isOutput
  obtain ⟨source, isIn, same⟩ := List.mem_map.mp (paths ▸ List.mem_map_of_mem isOutput)
  exact same ▸ elsewhere source isIn

theorem get?_program (above : Location) (name : String)
    (present : before.get? (above.child (name ++ ".teeny")) ≠ none) :
    after.get? (above.child (name ++ ".teeny")) =
      before.get? (above.child (name ++ ".teeny")) := by
  refine (run.growsAt ?_).get?_eq present
  intro source isIn
  obtain ⟨stem, holds, isFile⟩ := run.exists_holds isIn
  rw [isFile]
  exact destination_ne_program holds.proper _ _ _ _

end DirectoryRun

/-- A run that has written all programs translates them. -/
theorem DirectoryRun.translates {options : Options} {root : Path} {sources : List SourceFile}
    {outputs : List (Path × String)} {before after : FileTree}
    (run : DirectoryRun options root sources sources outputs before after) :
    Translates options root sources before after where
  distinct := by
    refine run.distinct_outputFiles.imp ?_
    intro first second differ
    exact ⟨Bool.eq_false_iff.mpr fun isSame => differ (Path.destination_eq_of_same isSame), differ⟩
  written := by
    intro source isIn
    obtain ⟨stem, holds, isFile⟩ := run.exists_holds isIn
    obtain ⟨text, isText, isThere, isRead⟩ := run.read_outputFile isIn
    exact ⟨stem, text, holds.path, isFile, isText, isRead, isThere⟩
  kept := by
    intro source isIn
    obtain ⟨stem, holds, _⟩ := run.exists_holds isIn
    obtain ⟨data, isData, isText⟩ := holds.contents
    refine ⟨data, isText, isData, ?_⟩
    have present := FileTree.get?_of_read run.linkFree isData
    refine FileTree.read_of_keeps run.linkFree (run.writes.linkFree_after run.linkFree)
      (run.writes.keeps run.linkFree) isData ?_
    rw [holds.path, destination_join_stem holds.proper root (by decide), String.append_assoc]
      at present ⊢
    exact run.get?_program _ stem.name fun nothing => nomatch present.symm.trans nothing
  programs := run.get?_program
  others := by
    intro location elsewhere
    exact others_of_growsAt (run.growsAt elsewhere)

end TeenyC
