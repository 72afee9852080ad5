import TeenyC.Proofs.FileTree.Continuation

/-!
# The search for programs

A search finds the programs at or below a path: files, and links to files, that have the extension
of programs.  It succeeds if all directories below the path can be asked for and all programs that
it meets have a text, and gives them in the strict order of their paths, whatever the order of the
directories.

A program below a directory is asked for by a path that starts where the search starts.  This path
may be too long, and the links on the way to the directory may leave too few for those behind it.
Then the program is passed over without an error, while a directory is not.  So the search finds
all programs exactly if they all can be asked for.
-/

namespace TeenyC

/-! ## The order of paths -/

/-- What comes no later in the order of paths comes earlier, or is the same. -/
theorem lt_of_namesUpTo {first second : List String} (upTo : namesUpTo first second = true)
    (differ : first ≠ second) : first < second := by
  induction first generalizing second with
  | nil =>
      cases second with
      | nil => exact absurd rfl differ
      | cons other others => exact .nil
  | cons name rest inductionHypothesis =>
      cases second with
      | nil => simp [namesUpTo] at upTo
      | cons other others =>
          rw [namesUpTo] at upTo
          split at upTo
          · next same =>
              subst same
              apply List.Lex.cons
              apply inductionHypothesis upTo
              rintro rfl
              exact differ rfl
          · exact .rel (of_decide_eq_true upTo)

/-- The programs come in the strict order of their paths, compared name by name. -/
def Increasing (sources : List SourceFile) : Prop :=
  sources.Pairwise fun first second => first.path.names < second.path.names

/-- There is one way only to put the same programs into order. -/
theorem Increasing.eq_of_mem_iff {sources others : List SourceFile}
    (increasing : Increasing sources) (otherIncreasing : Increasing others)
    (same : ∀ source, source ∈ sources ↔ source ∈ others) : sources = others := by
  have nodup : ∀ {list : List SourceFile}, Increasing list → list.Nodup := by
    intro list ordered
    apply ordered.imp
    rintro source _ less rfl
    exact List.lt_irrefl _ less
  have perm := (List.perm_ext_iff_of_nodup (nodup increasing) (nodup otherIncreasing)).mpr same
  apply List.Perm.eq_of_pairwise _ increasing otherIncreasing perm
  intro first second _ _ less greater
  exact absurd greater (List.lt_asymm less)

namespace FileTree

/-! ## What there is to find -/

/-- The path can be asked for. -/
def Answers (tree : FileTree) (path : Path) : Prop :=
  ∃ found, tree.find path = .ok found

/-- The path by which a search asks for what it meets. -/
def askedPath (root relative : Path) : Path :=
  if relative.isEmpty then root else root.join relative

/-- The search can be carried through: the path leads somewhere, and all directories below it can
be asked for. -/
structure Walkable (tree : FileTree) (root : Path) : Prop where
  starts : tree.Answers root
  enters : ∀ ⦃directory : Location⦄ ⦃names : List String⦄,
    tree.find root = .ok (directory, .directory) → names ≠ [] →
      tree.get? (directory.down names) = some .directory →
        tree.Answers (root.join ⟨false, names⟩)

/-- What a search is for: at this path from where it starts there is a program with this data. -/
inductive IsProgram (tree : FileTree) (root : Path) : Path → Bytes → Prop
  /-- The search starts at a program. -/
  | atStart {place : Location} {data : Bytes} : tree.find root = .ok (place, .file data) →
      isSourcePath root = true → IsProgram tree root (.ofString "") data
  /-- The search starts at a directory, and below it names lead down through directories to a
  program, or to a link that leads to one from the directory it stands in. -/
  | below {directory : Location} {above : List String} {name : String} {node : Node}
      {data : Bytes} : tree.find root = .ok (directory, .directory) →
      tree.get? (directory.down (above ++ [name])) = some node →
      tree.LeadsTo (directory.down above) name (.file data) →
      isSourcePath ⟨false, above ++ [name]⟩ = true →
      IsProgram tree root ⟨false, above ++ [name]⟩ data

section Search

variable {tree other : FileTree} {root relative : Path} {directory place : Location}
  {data : Bytes} {files : List FoundFile} {sources : List SourceFile} {names : List String}

/-! ## Files that are met -/

theorem filesBelow_of_opened {selects : Path → Bool}
    (isRoot : tree.find root = .ok (directory, .directory))
    (opened : tree.firstClosed? root directory = none) :
    tree.filesBelow root selects = .ok (tree.filesBelowDirectory root directory selects) := by
  rcases resolve_keepLink isRoot with ⟨there, resolved⟩
  simp only [filesBelow, resolved, isRoot, opened]

theorem filesBelow_of_closed {selects : Path → Bool} {path : Path} {error : IoError}
    (isRoot : tree.find root = .ok (directory, .directory))
    (closed : tree.firstClosed? root directory = some (path, error)) :
    tree.filesBelow root selects = .error (.walk path error) := by
  rcases resolve_keepLink isRoot with ⟨there, resolved⟩
  simp only [filesBelow, resolved, isRoot, closed]

theorem filesBelow_of_file {selects : Path → Bool}
    (isRoot : tree.find root = .ok (place, .file data)) :
    tree.filesBelow root selects = .ok (if selects root then [⟨.ofString "", data⟩] else []) := by
  rcases resolve_keepLink isRoot with ⟨there, resolved⟩
  simp only [filesBelow, resolved, isRoot]

theorem filesBelow_of_link {selects : Path → Bool} {target : String}
    (isRoot : tree.find root = .ok (place, .link target)) :
    tree.filesBelow root selects = .ok [] := by
  rcases resolve_keepLink isRoot with ⟨there, resolved⟩
  simp only [filesBelow, resolved, isRoot]

theorem answers_of_filesBelow {selects : Path → Bool}
    (found : tree.filesBelow root selects = .ok files) : tree.Answers root := by
  rw [filesBelow] at found
  split at found
  · cases found
  · cases found
  · cases isRoot : tree.find root with
    | error error =>
        rw [isRoot] at found
        cases found
    | ok there => exact ⟨there, isRoot⟩

/-- The directories below another can be asked for, or one of them is reported. -/
theorem firstClosed?_eq_none_iff (wellFormed : tree.WellFormed) :
    tree.firstClosed? root directory = none ↔
      ∀ ⦃names : List String⦄, names ≠ [] →
        tree.get? (directory.down names) = some .directory →
          tree.Answers (root.join ⟨false, names⟩) := by
  rw [firstClosed?, List.findSome?_eq_none_iff]
  constructor
  · intro opened names nonempty isDirectory
    have isBelow := wellFormed.mem_below_iff.mpr
      (⟨rfl, nonempty, isDirectory⟩ : (⟨false, names⟩ : Path).absolute = false ∧ _)
    have isOpen := opened _ isBelow
    simp only [if_true] at isOpen
    split at isOpen
    · next found isFound => exact ⟨found, isFound⟩
    · cases isOpen
  · rintro answers ⟨⟨absolute, pieces⟩, node⟩ isBelow
    rcases wellFormed.mem_below_iff.mp isBelow with ⟨isRelative, nonempty, isNode⟩
    obtain rfl : absolute = false := isRelative
    dsimp only
    split
    · next isDirectory =>
        rw [isDirectory] at isNode
        rcases answers nonempty isNode with ⟨found, isFound⟩
        rw [isFound]
    · rfl

/-- A search meets files unless it cannot be carried through. -/
theorem exists_filesBelow_iff (wellFormed : tree.WellFormed) :
    (∃ files, tree.filesBelow root isSourcePath = .ok files) ↔ tree.Walkable root := by
  constructor
  · rintro ⟨files, found⟩
    refine ⟨answers_of_filesBelow found, ?_⟩
    intro directory names isRoot nonempty isDirectory
    cases closed : tree.firstClosed? root directory with
    | some first =>
        rw [filesBelow_of_closed isRoot closed] at found
        cases found
    | none => exact (firstClosed?_eq_none_iff wellFormed).mp closed nonempty isDirectory
  · rintro ⟨⟨⟨place, node⟩, isRoot⟩, enters⟩
    cases node with
    | file data => exact ⟨_, filesBelow_of_file isRoot⟩
    | link target => exact ⟨_, filesBelow_of_link isRoot⟩
    | directory =>
        have opened := (firstClosed?_eq_none_iff wellFormed).mpr fun names => enters isRoot
        exact ⟨_, filesBelow_of_opened isRoot opened⟩

/-! ## Programs that are met -/

theorem askedPath_of_nonempty {name : String} (down : LeadsDown name) (above : List String) :
    askedPath root ⟨false, above ++ [name]⟩ = root.join ⟨false, above ++ [name]⟩ := by
  rw [askedPath, if_neg]
  simp [Path.isEmpty, down.1]

/-- The files that a search meets are the programs that can be asked for. -/
theorem Rooted.mem_filesBelow_iff (rooted : tree.Rooted)
    (found : tree.filesBelow root isSourcePath = .ok files) :
    ⟨relative, data⟩ ∈ files ↔
      tree.IsProgram root relative data ∧ tree.Answers (askedPath root relative) := by
  rcases answers_of_filesBelow found with ⟨⟨place, node⟩, isRoot⟩
  cases node with
  | file other =>
      rw [filesBelow_of_file isRoot] at found
      cases found
      constructor
      · intro isIn
        split at isIn
        · next isSource =>
            cases List.mem_singleton.mp isIn
            exact ⟨.atStart isRoot isSource, ⟨_, isRoot⟩⟩
        · cases isIn
      · rintro ⟨isProgram, _⟩
        cases isProgram with
        | atStart isFile isSource =>
            cases isRoot.symm.trans isFile
            rw [if_pos isSource]
            exact List.mem_cons_self
        | below isDirectory => cases isRoot.symm.trans isDirectory
  | link target =>
      rw [filesBelow_of_link isRoot] at found
      cases found
      constructor
      · intro isIn
        cases isIn
      · rintro ⟨isProgram, _⟩
        cases isProgram with
        | atStart isFile => cases isRoot.symm.trans isFile
        | below isDirectory => cases isRoot.symm.trans isDirectory
  | directory =>
      have opened : tree.firstClosed? root place = none := by
        cases closed : tree.firstClosed? root place with
        | none => rfl
        | some first =>
            rw [filesBelow_of_closed isRoot closed] at found
            cases found
      rw [filesBelow_of_opened isRoot opened] at found
      cases found
      rw [mem_filesBelowDirectory_iff]
      constructor
      · rintro ⟨⟨node, isBelow⟩, isSource, isData⟩
        rcases relative with ⟨absolute, pieces⟩
        rcases rooted.wellFormed.mem_below_iff.mp isBelow with ⟨isRelative, nonempty, isNode⟩
        obtain rfl : absolute = false := isRelative
        rcases (List.eq_nil_or_concat' pieces).resolve_left nonempty with ⟨above, name, rfl⟩
        rcases read_eq_ok_iff.mp isData with ⟨there, isFound⟩
        have down := rooted.wellFormed.leadsDown_of_get? isNode name List.mem_concat_self
        refine ⟨.below isRoot isNode (rooted.leadsTo_of_find isRoot isNode isFound) isSource, ?_⟩
        rw [askedPath_of_nonempty down]
        exact ⟨_, isFound⟩
      · rintro ⟨isProgram, answers⟩
        cases isProgram with
        | atStart isFile => cases isRoot.symm.trans isFile
        | @below start above name node data isStart isNode leads isSource =>
            cases isRoot.symm.trans isStart
            have down := rooted.wellFormed.leadsDown_of_get? isNode name List.mem_concat_self
            rw [askedPath_of_nonempty down] at answers
            rcases answers with ⟨⟨there, what⟩, isFound⟩
            refine ⟨⟨node, ?_⟩, isSource, ?_⟩
            · exact rooted.wellFormed.mem_below_iff.mpr ⟨rfl, by simp, isNode⟩
            · obtain rfl := (rooted.leadsTo_of_find isRoot isNode isFound).unique leads
              exact read_eq_ok_iff.mpr ⟨there, isFound⟩

/-! ## Programs that are found -/

/-- A search finds programs if it can be carried through and what it meets has a text. -/
theorem Rooted.exists_sources_iff (rooted : tree.Rooted) :
    (∃ sources, tree.sources root = .ok sources) ↔
      tree.Walkable root ∧ ∀ relative data, tree.IsProgram root relative data →
        tree.Answers (askedPath root relative) → ∃ contents, data.text? = some contents := by
  have texts : ∀ {files : List FoundFile}, tree.filesBelow root isSourcePath = .ok files →
      ((∃ sources, sourcesOf files = .ok sources) ↔
        ∀ relative data, tree.IsProgram root relative data →
          tree.Answers (askedPath root relative) → ∃ contents, data.text? = some contents) := by
    intro files found
    have reads : (∃ sources, sourcesOf files = .ok sources) ↔
        ∃ read, files.mapM FoundFile.source = .ok read := by
      simp only [sourcesOf_eq_ok_iff]
      exact ⟨fun ⟨_, read, mapped, _⟩ => ⟨read, mapped⟩,
        fun ⟨read, mapped⟩ => ⟨_, read, mapped, rfl⟩⟩
    rw [reads, exists_results_iff]
    constructor
    · intro succeeds relative data isProgram answers
      rcases succeeds _ ((rooted.mem_filesBelow_iff found).mpr ⟨isProgram, answers⟩) with
        ⟨source, isSource⟩
      exact ⟨source.contents, (source_eq_ok_iff.mp isSource).2⟩
    · rintro haveTexts ⟨relative, data⟩ isIn
      rcases (rooted.mem_filesBelow_iff found).mp isIn with ⟨isProgram, answers⟩
      rcases haveTexts relative data isProgram answers with ⟨contents, isText⟩
      exact ⟨⟨relative, contents⟩, source_eq_ok_iff.mpr ⟨rfl, isText⟩⟩
  rw [← exists_filesBelow_iff rooted.wellFormed]
  simp only [sources_eq_ok_iff]
  constructor
  · rintro ⟨sources, files, found, read⟩
    exact ⟨⟨files, found⟩, (texts found).mp ⟨sources, read⟩⟩
  · rintro ⟨⟨files, found⟩, haveTexts⟩
    rcases (texts found).mpr haveTexts with ⟨sources, read⟩
    exact ⟨sources, files, found, read⟩

/-- The programs that are found are the texts of those that can be asked for. -/
theorem Rooted.mem_sources_iff (rooted : tree.Rooted) (found : tree.sources root = .ok sources)
    {source : SourceFile} :
    source ∈ sources ↔
      ∃ data, tree.IsProgram root source.path data ∧
        tree.Answers (askedPath root source.path) ∧ data.text? = some source.contents := by
  rcases sources_eq_ok_iff.mp found with ⟨files, isFound, read⟩
  constructor
  · intro isIn
    rcases exists_file_of_sourcesOf read isIn with ⟨⟨relative, data⟩, isFile, samePath, isText⟩
    rw [samePath]
    rcases (rooted.mem_filesBelow_iff isFound).mp isFile with ⟨isProgram, answers⟩
    exact ⟨data, isProgram, answers, isText⟩
  · rintro ⟨data, isProgram, answers, isText⟩
    have isFile := (rooted.mem_filesBelow_iff isFound).mpr ⟨isProgram, answers⟩
    rcases sourcesOf_eq_ok_iff.mp read with ⟨programs, mapped, rfl⟩
    rcases exists_result_of_mapM mapped isFile with ⟨other, isOther, isSource⟩
    rcases source_eq_ok_iff.mp isSource with ⟨samePath, sameText⟩
    obtain rfl : other = source := by
      rcases other with ⟨path, contents⟩
      rcases source with ⟨otherPath, otherContents⟩
      cases samePath
      cases isText.symm.trans sameText
      rfl
    exact List.mem_mergeSort.mpr isOther

/-- A program is found where the search starts, or at the names that lead down to it. -/
theorem Rooted.path_cases (rooted : tree.Rooted) (isProgram : tree.IsProgram root relative data) :
    relative = .ofString "" ∨ relative = ⟨false, relative.names⟩ ∧ relative.names ≠ [] := by
  cases isProgram with
  | atStart => exact .inl rfl
  | @below directory above name node data isRoot isNode =>
      have saying : ∀ piece ∈ above ++ [name], Path.isIdle piece = false := by
        intro piece isIn
        have down := rooted.wellFormed.leadsDown_of_get? isNode piece isIn
        exact Path.isIdle_eq_false_iff.mpr ⟨down.1, down.2.1⟩
      have isNames : (⟨false, [] ++ (above ++ [name])⟩ : Path).names = above ++ [name] :=
        Path.names_append saying
      rw [List.nil_append] at isNames
      right
      rw [isNames]
      exact ⟨rfl, by simp⟩

theorem Rooted.increasing_sources (rooted : tree.Rooted)
    (found : tree.sources root = .ok sources) : Increasing sources := by
  have differ := rooted.wellFormed.distinct_sources found
  apply ((pairwise_upTo_of_sources found).and differ).imp_of_mem
  rintro first second isFirst isSecond ⟨upTo, different⟩
  apply lt_of_namesUpTo upTo
  intro sameNames
  apply different
  rcases (rooted.mem_sources_iff found).mp isFirst with ⟨_, firstProgram, _⟩
  rcases (rooted.mem_sources_iff found).mp isSecond with ⟨_, secondProgram, _⟩
  rcases rooted.path_cases firstProgram with isStart | ⟨isFirstPath, firstNamed⟩
  · rcases rooted.path_cases secondProgram with isSecondStart | ⟨_, secondNamed⟩
    · rw [isStart, isSecondStart]
    · rw [← sameNames, isStart] at secondNamed
      exact absurd rfl secondNamed
  · rcases rooted.path_cases secondProgram with isSecondStart | ⟨isSecondPath, _⟩
    · rw [sameNames, isSecondStart] at firstNamed
      exact absurd rfl firstNamed
    · rw [isFirstPath, isSecondPath, sameNames]

/-! ## The order of entries -/

theorem IsProgram.of_get?_eq (isProgram : tree.IsProgram root relative data)
    (same : other.get? = tree.get?) : other.IsProgram root relative data := by
  cases isProgram with
  | atStart isFile isSource => exact .atStart (by rwa [find_of_get?_eq same]) isSource
  | below isRoot isNode leads isSource =>
      rcases leads with ⟨place, followed, isFile⟩
      refine .below (by rwa [find_of_get?_eq same]) (by rwa [same]) ⟨place, ?_, ?_⟩ isSource
      · rwa [follow_of_get?_eq same]
      · rwa [same]

theorem Answers.of_get?_eq {path : Path} (answers : tree.Answers path)
    (same : other.get? = tree.get?) : other.Answers path := by
  rwa [Answers, find_of_get?_eq same]

theorem Walkable.of_get?_eq (walkable : tree.Walkable root) (same : other.get? = tree.get?) :
    other.Walkable root where
  starts := walkable.starts.of_get?_eq same
  enters directory names isRoot nonempty isDirectory := by
    rw [find_of_get?_eq same] at isRoot
    rw [same] at isDirectory
    exact (walkable.enters isRoot nonempty isDirectory).of_get?_eq same

/-- The order in which entries are kept has no effect on the programs that are found. -/
theorem Rooted.sources_of_perm (rooted : tree.Rooted) (perm : tree.entries.Perm other.entries)
    (found : tree.sources root = .ok sources) : other.sources root = .ok sources := by
  have same := rooted.wellFormed.get?_of_perm perm
  have otherRooted := rooted.of_perm perm
  rcases rooted.exists_sources_iff.mp ⟨sources, found⟩ with ⟨walkable, haveTexts⟩
  have succeeds : ∃ others, other.sources root = .ok others := by
    apply otherRooted.exists_sources_iff.mpr
    refine ⟨walkable.of_get?_eq same, ?_⟩
    intro relative data isProgram answers
    exact haveTexts relative data (isProgram.of_get?_eq same.symm) (answers.of_get?_eq same.symm)
  rcases succeeds with ⟨others, otherFound⟩
  rw [otherFound, (otherRooted.increasing_sources otherFound).eq_of_mem_iff
    (rooted.increasing_sources found)]
  intro source
  rw [otherRooted.mem_sources_iff otherFound, rooted.mem_sources_iff found]
  constructor
  · rintro ⟨data, isProgram, answers, isText⟩
    exact ⟨data, isProgram.of_get?_eq same.symm, answers.of_get?_eq same.symm, isText⟩
  · rintro ⟨data, isProgram, answers, isText⟩
    exact ⟨data, isProgram.of_get?_eq same, answers.of_get?_eq same, isText⟩

/-! ## The whole search -/

/-- What a search for programs gives: in strict order, and whatever the order of the entries, the
texts of all programs that can be asked for. -/
structure Collects (tree : FileTree) (root : Path) (sources : List SourceFile) : Prop where
  increasing : Increasing sources
  exact : ∀ source, source ∈ sources ↔
    ∃ data, tree.IsProgram root source.path data ∧
      tree.Answers (askedPath root source.path) ∧ data.text? = some source.contents
  anyOrder : ∀ other : FileTree, tree.entries.Perm other.entries →
    other.sources root = .ok sources
  /-- Nothing is passed over exactly if all programs can be asked for. -/
  complete : (∀ relative data, tree.IsProgram root relative data →
      ∃ contents, data.text? = some contents ∧ ⟨relative, contents⟩ ∈ sources) ↔
    ∀ relative data, tree.IsProgram root relative data → tree.Answers (askedPath root relative)

/-- A search succeeds exactly if it can be carried through and the programs that it can ask for
have texts, and it then collects these programs. -/
theorem sources_collects (rooted : tree.Rooted) (root : Path) :
    ((∃ sources, tree.sources root = .ok sources) ↔
      tree.Walkable root ∧ ∀ relative data, tree.IsProgram root relative data →
        tree.Answers (askedPath root relative) → ∃ contents, data.text? = some contents) ∧
    ∀ sources, tree.sources root = .ok sources → tree.Collects root sources := by
  refine ⟨rooted.exists_sources_iff, ?_⟩
  intro sources found
  refine ⟨rooted.increasing_sources found, fun source => rooted.mem_sources_iff found,
    fun other perm => rooted.sources_of_perm perm found, ?_⟩
  have haveTexts := (rooted.exists_sources_iff.mp ⟨sources, found⟩).2
  constructor
  · intro complete relative data isProgram
    rcases complete relative data isProgram with ⟨contents, _, isIn⟩
    rcases (rooted.mem_sources_iff found).mp isIn with ⟨_, _, answers, _⟩
    exact answers
  · intro allAnswer relative data isProgram
    have answers := allAnswer relative data isProgram
    rcases haveTexts relative data isProgram answers with ⟨contents, isText⟩
    exact ⟨contents, isText, (rooted.mem_sources_iff found).mpr ⟨data, isProgram, answers, isText⟩⟩

end Search

/-! ## Links -/

/-- Two programs behind a link, and much that is none:

```text
r -> s
s/a.teeny -> notes.txt
s/a/b.teeny
s/back.teeny -> .
s/lost.teeny -> nowhere
s/notes.txt
s/x.teeny/
s/.teeny
```
-/
def linked : FileTree :=
  ⟨[(⟨.above 0, ["r"]⟩, .link "s"), (⟨.above 0, ["s"]⟩, .directory),
    (⟨.above 0, ["s", "a.teeny"]⟩, .link "notes.txt"), (⟨.above 0, ["s", "a"]⟩, .directory),
    (⟨.above 0, ["s", "a", "b.teeny"]⟩, .file (.ofString "print 1")),
    (⟨.above 0, ["s", "back.teeny"]⟩, .link "."),
    (⟨.above 0, ["s", "lost.teeny"]⟩, .link "nowhere"),
    (⟨.above 0, ["s", "notes.txt"]⟩, .file (.ofString "print 2")),
    (⟨.above 0, ["s", "x.teeny"]⟩, .directory),
    (⟨.above 0, ["s", ".teeny"]⟩, .file (.ofString "print 3"))]⟩

/-- The two programs in the order of their paths, in which `a` comes before `a.teeny`. -/
def linkedPrograms : List SourceFile :=
  [⟨⟨false, ["a", "b.teeny"]⟩, "print 1"⟩, ⟨⟨false, ["a.teeny"]⟩, "print 2"⟩]

theorem sources_linked : linked.sources (.ofString "r") = .ok linkedPrograms := by
  have found : linked.filesBelow (.ofString "r") isSourcePath =
      .ok [⟨⟨false, ["a.teeny"]⟩, .ofString "print 2"⟩,
        ⟨⟨false, ["a", "b.teeny"]⟩, .ofString "print 1"⟩] := rfl
  refine sources_eq_ok_iff.mpr ⟨_, found, sourcesOf_eq_ok_iff.mpr
    ⟨[⟨⟨false, ["a.teeny"]⟩, "print 2"⟩, ⟨⟨false, ["a", "b.teeny"]⟩, "print 1"⟩], ?_, ?_⟩⟩
  · rw [mapM_eq_ok_iff]
    simp [FoundFile.source]
  · rw [mergeSort_pair, if_neg (by decide)]
    rfl

theorem sources_collects_linked :
    linked.Rooted ∧ linked.sources (.ofString "r") = .ok linkedPrograms ∧
      linked.Walkable (.ofString "r") ∧ linked.Collects (.ofString "r") linkedPrograms := by
  have rooted : linked.Rooted := ⟨⟨by decide, by decide⟩, by decide, by decide⟩
  have found := sources_linked
  exact ⟨rooted, found, ((sources_collects rooted _).1.mp ⟨_, found⟩).1,
    (sources_collects rooted _).2 _ found⟩

/-- A program behind forty links, which is itself a link:

```text
r0 -> r1
r1 -> r2
...
r39 -> d
d/f.teeny -> plain.txt
d/plain.txt
```
-/
def behindLinks : FileTree :=
  ⟨[(⟨.above 0, ["d"]⟩, .directory),
    (⟨.above 0, ["d", "plain.txt"]⟩, .file (.ofString "print 7")),
    (⟨.above 0, ["d", "f.teeny"]⟩, .link "plain.txt")] ++
    (List.range 40).map fun n =>
      (⟨.above 0, ["r" ++ toString n]⟩, .link (if n = 39 then "d" else "r" ++ toString (n + 1)))⟩

/-- The links that lead to the directory leave none for the one in it, so that the search succeeds
without the program. -/
theorem sources_overlooks :
    behindLinks.Rooted ∧ behindLinks.Walkable (.ofString "r0") ∧
      behindLinks.IsProgram (.ofString "r0") ⟨false, ["f.teeny"]⟩ (.ofString "print 7") ∧
      (Bytes.ofString "print 7").text? = some "print 7" ∧
      behindLinks.sources (.ofString "r0") = .ok [] := by
  have rooted : behindLinks.Rooted :=
    ⟨⟨by decide +kernel, by decide +kernel⟩, by decide +kernel, by decide +kernel⟩
  have found : behindLinks.sources (.ofString "r0") = .ok [] := by decide +kernel
  have isRoot : behindLinks.find (.ofString "r0") = .ok (⟨.above 0, ["d"]⟩, .directory) := by
    decide +kernel
  have isLink : behindLinks.get? ⟨.above 0, ["d", "f.teeny"]⟩ = some (.link "plain.txt") := by
    decide +kernel
  have leads : behindLinks.LeadsTo ⟨.above 0, ["d"]⟩ "f.teeny" (.file (.ofString "print 7")) :=
    ⟨⟨.above 0, ["d", "plain.txt"]⟩, by decide +kernel, by decide +kernel⟩
  have isSource : isSourcePath ⟨false, ["f.teeny"]⟩ = true := by decide
  refine ⟨rooted, (rooted.exists_sources_iff.mp ⟨_, found⟩).1, ?_, by simp, found⟩
  exact @IsProgram.below _ _ _ [] _ _ _ isRoot isLink leads isSource

end FileTree

end TeenyC
