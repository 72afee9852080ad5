import TeenyC.Proofs.FileTree.WellFormed
import TeenyC.Proofs.Paths
import TeenyC.Proofs.SourceOrder

/-!
# What a search finds

The programs below a directory of a well-formed tree: each is found once, at the names that
lead down to it, and is read from there.
-/

namespace TeenyC

/-- A location is below a directory if names lead down to it. -/
theorem Location.below?_eq_some_iff {directory location : Location} {names : List String} :
    directory.below? location = some names ↔
      names ≠ [] ∧ location = ⟨directory.origin, directory.names ++ names⟩ := by
  obtain ⟨origin, above⟩ := directory
  obtain ⟨otherOrigin, all⟩ := location
  simp only [below?, Location.mk.injEq]
  constructor
  · intro isBelow
    split at isBelow
    · next conditions =>
        obtain ⟨rfl, begins, shorter⟩ := conditions
        obtain ⟨rest, rfl⟩ := List.isPrefixOf_iff_prefix.mp begins
        obtain rfl : rest = names := by simpa using isBelow
        refine ⟨?_, rfl, rfl⟩
        rintro rfl
        simp at shorter
    · cases isBelow
  · rintro ⟨nonempty, rfl, rfl⟩
    have longer := List.length_pos_iff.mpr nonempty
    rw [if_pos]
    · simp
    · refine ⟨rfl, by simp, ?_⟩
      rw [List.length_append]
      omega

namespace FileTree

section Search

variable {tree : FileTree} {root relative : Path} {directory : Location} {node : Node}
  {selects : Path → Bool} {files : List FoundFile} {file : FoundFile}

theorem below_entry_eq_some_iff {entry : Location × Node} {found : Path × Node} :
    ((directory.below? entry.1).map fun names => ((⟨false, names⟩ : Path), entry.2)) =
        some found ↔
      found.1.absolute = false ∧ found.1.pieces ≠ [] ∧
        entry = (⟨directory.origin, directory.names ++ found.1.pieces⟩, found.2) := by
  obtain ⟨location, node⟩ := entry
  obtain ⟨⟨absolute, pieces⟩, foundNode⟩ := found
  simp only [Option.map_eq_some_iff, Location.below?_eq_some_iff, Prod.mk.injEq, Path.mk.injEq]
  constructor
  · rintro ⟨names, ⟨nonempty, rfl⟩, ⟨rfl, rfl⟩, rfl⟩
    exact ⟨rfl, nonempty, rfl, rfl⟩
  · rintro ⟨rfl, nonempty, rfl, rfl⟩
    exact ⟨pieces, ⟨nonempty, rfl⟩, ⟨rfl, rfl⟩, rfl⟩

/-- What is below a directory is met at a path of names that lead down. -/
theorem WellFormed.leadsDown_below (wellFormed : tree.WellFormed)
    (isIn : (relative, node) ∈ tree.below directory) :
    relative.absolute = false ∧ relative.pieces ≠ [] ∧
      ∀ name ∈ relative.pieces, LeadsDown name := by
  obtain ⟨entry, isEntry, isBelow⟩ := List.mem_filterMap.mp isIn
  obtain ⟨isRelative, nonempty, rfl⟩ := below_entry_eq_some_iff.mp isBelow
  exact ⟨isRelative, nonempty, fun name isName =>
    wellFormed.proper _ isEntry name (List.mem_append_right _ isName)⟩

/-- Nothing below a directory is met twice. -/
theorem WellFormed.distinct_below (wellFormed : tree.WellFormed) (directory : Location) :
    (tree.below directory).Pairwise fun first second => first.1 ≠ second.1 := by
  refine wellFormed.distinct.filterMap _ ?_
  rintro entry other differ found isFound otherFound isOther same
  obtain ⟨_, _, rfl⟩ := below_entry_eq_some_iff.mp isFound
  obtain ⟨_, _, rfl⟩ := below_entry_eq_some_iff.mp isOther
  exact differ (by rw [same])

theorem fileAt?_eq_some_iff {data : Bytes} : tree.fileAt? root = some data ↔
    tree.read root = .ok data := by
  rw [read_eq_ok_iff, fileAt?]
  rcases tree.find root with error | ⟨location, node⟩
  · simp
  · cases node <;> simp

theorem mem_filesBelowDirectory_iff :
    file ∈ tree.filesBelowDirectory root directory selects ↔
      (∃ node, (file.relative, node) ∈ tree.below directory) ∧
        selects file.relative = true ∧ tree.read (root.join file.relative) = .ok file.data := by
  obtain ⟨relative, data⟩ := file
  simp only [filesBelowDirectory, List.mem_filterMap, Prod.exists, ← fileAt?_eq_some_iff]
  constructor
  · rintro ⟨other, node, isIn, found⟩
    split at found
    · next selected =>
        obtain ⟨_, isData, same⟩ := Option.map_eq_some_iff.mp found
        cases same
        exact ⟨⟨node, isIn⟩, selected, isData⟩
    · cases found
  · rintro ⟨⟨node, isIn⟩, selected, isData⟩
    exact ⟨relative, node, isIn, by rw [if_pos selected, isData]; rfl⟩

/-- No file below a directory is found twice. -/
theorem WellFormed.distinct_filesBelowDirectory (wellFormed : tree.WellFormed) (root : Path)
    (directory : Location) (selects : Path → Bool) :
    (tree.filesBelowDirectory root directory selects).Pairwise fun first second =>
      first.relative ≠ second.relative := by
  refine (wellFormed.distinct_below directory).filterMap _ ?_
  rintro ⟨relative, node⟩ ⟨otherRelative, otherNode⟩ differ file found other otherFound
  have isRelative : ∀ {path : Path} {met : FoundFile},
      (if selects path then (tree.fileAt? (root.join path)).map fun data =>
        (⟨path, data⟩ : FoundFile) else none) = some met → met.relative = path := by
    intro path met isMet
    split at isMet
    · obtain ⟨_, _, rfl⟩ := Option.map_eq_some_iff.mp isMet
      rfl
    · cases isMet
  rw [isRelative found, isRelative otherFound]
  exact differ

/-- The files that are found at a path are those below a directory, or one at the path itself. -/
theorem filesBelow_cases (found : tree.filesBelow root selects = .ok files) :
    (∃ directory, files = tree.filesBelowDirectory root directory selects) ∨
      (∃ data, files = [⟨.ofString "", data⟩]) ∨ files = [] := by
  rw [filesBelow] at found
  split at found
  · cases found
  · cases found
  · split at found
    · cases found
    · next directory _ =>
        split at found
        · cases found
        · cases found
          exact .inl ⟨directory, rfl⟩
    · next data _ =>
        cases found
        split
        · exact .inr (.inl ⟨data, rfl⟩)
        · exact .inr (.inr rfl)
    · cases found
      exact .inr (.inr rfl)

end Search

/-! ## Programs -/

section Programs

variable {tree : FileTree} {root : Path} {sources : List SourceFile} {files : List FoundFile}

theorem source_eq_ok_iff {file : FoundFile} {source : SourceFile} :
    file.source = .ok source ↔
      source.path = file.relative ∧ file.data.text? = some source.contents := by
  obtain ⟨path, contents⟩ := source
  rw [FoundFile.source]
  cases file.data.text? with
  | none => simp
  | some text => simp [eq_comm]

/-- The programs in some files are the contents of those files. -/
theorem exists_file_of_sourcesOf (read : sourcesOf files = .ok sources) {source : SourceFile}
    (isIn : source ∈ sources) :
    ∃ file ∈ files, source.path = file.relative ∧ file.data.text? = some source.contents := by
  obtain ⟨programs, mapped, rfl⟩ := sourcesOf_eq_ok_iff.mp read
  obtain ⟨file, isFile, isSource⟩ := exists_value_of_mapM mapped (List.mem_mergeSort.mp isIn)
  exact ⟨file, isFile, source_eq_ok_iff.mp isSource⟩

theorem distinct_sourcesOf (read : sourcesOf files = .ok sources)
    (distinct : files.Pairwise fun first second => first.relative ≠ second.relative) :
    sources.Pairwise fun first second => first.path ≠ second.path := by
  obtain ⟨programs, mapped, rfl⟩ := sourcesOf_eq_ok_iff.mp read
  have paths : programs.map SourceFile.path = files.map FoundFile.relative :=
    map_eq_map_of_mapM mapped fun file source isSource => (source_eq_ok_iff.mp isSource).1
  have nodup : (programs.map SourceFile.path).Nodup := by
    rw [paths]
    exact List.pairwise_map.mpr distinct
  refine ((List.mergeSort_perm programs _).pairwise_iff fun differ => Ne.symm differ).mpr ?_
  exact List.pairwise_map.mp nodup

/-- A program below a path of a tree: it is read from a file with the extension of programs, to
which names lead down. -/
structure Holds (tree : FileTree) (root : Path) (source : SourceFile) (stem : Stem) : Prop where
  proper : stem.Proper
  path : source.path = stem.path "teeny"
  contents : ∃ data, tree.read (root.join source.path) = .ok data ∧
    data.text? = some source.contents

/-- The programs of a path are found at different paths. -/
theorem WellFormed.distinct_sources (wellFormed : tree.WellFormed)
    (found : tree.sources root = .ok sources) :
    sources.Pairwise fun first second => first.path ≠ second.path := by
  obtain ⟨files, isFound, read⟩ := sources_eq_ok_iff.mp found
  refine distinct_sourcesOf read ?_
  rcases filesBelow_cases isFound with ⟨directory, rfl⟩ | ⟨data, rfl⟩ | rfl
  · exact wellFormed.distinct_filesBelowDirectory root directory isSourcePath
  · exact List.pairwise_singleton ..
  · exact .nil

/-- A path of names that lead down is that of a program if its last name has the extension of
programs. -/
theorem exists_stem_of_isSourcePath {path : Path} (isRelative : path.absolute = false)
    (nonempty : path.pieces ≠ []) (down : ∀ name ∈ path.pieces, LeadsDown name)
    (isSource : isSourcePath path = true) :
    ∃ stem : Stem, stem.Proper ∧ path = stem.path "teeny" := by
  obtain ⟨absolute, pieces⟩ := path
  obtain rfl : absolute = false := isRelative
  obtain ⟨above, name, rfl⟩ := (List.eq_nil_or_concat' pieces).resolve_left nonempty
  rw [isSourcePath, Path.extension?, Path.fileName?_of_last rfl (down name List.mem_concat_self),
    beq_iff_eq] at isSource
  obtain ⟨⟨stem, extension⟩, splits, rfl⟩ := Option.map_eq_some_iff.mp isSource
  obtain ⟨notEmpty, _, rfl⟩ := Path.splitExtension?_eq_some_iff.mp splits
  exact ⟨⟨above, stem⟩, ⟨fun name isIn => down name (List.mem_append_left _ isIn), notEmpty⟩, rfl⟩

/-- The programs of a path are the path itself, if it leads to a program, or are held below it. -/
theorem WellFormed.holds_sources (wellFormed : tree.WellFormed)
    (found : tree.sources root = .ok sources) {source : SourceFile} (isIn : source ∈ sources) :
    source.path = .ofString "" ∨ ∃ stem, tree.Holds root source stem := by
  obtain ⟨files, isFound, read⟩ := sources_eq_ok_iff.mp found
  obtain ⟨file, isFile, isPath, isText⟩ := exists_file_of_sourcesOf read isIn
  rcases filesBelow_cases isFound with ⟨directory, rfl⟩ | ⟨data, rfl⟩ | rfl
  · obtain ⟨⟨node, isBelow⟩, selected, isData⟩ := mem_filesBelowDirectory_iff.mp isFile
    obtain ⟨isRelative, nonempty, down⟩ := wellFormed.leadsDown_below isBelow
    obtain ⟨stem, proper, isStem⟩ :=
      exists_stem_of_isSourcePath isRelative nonempty down selected
    exact .inr ⟨stem, proper, isPath.trans isStem, file.data, isPath ▸ isData, isText⟩
  · rw [List.mem_singleton.mp isFile] at isPath
    exact .inl isPath
  · cases isFile

end Programs

end FileTree

end TeenyC
