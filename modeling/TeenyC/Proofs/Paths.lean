import Mathlib.Data.List.DropRight
import TeenyC.Proofs.FileTree.Walk

/-!
# What becomes of paths

Paths are joined, cut at their end and given other extensions.  Joining continues a path where
it leads; cutting leaves a beginning of it.  A file name with an extension falls apart at its
last dot in one way only, so files that differ in their names still differ after their common
extension was replaced by another.
-/

namespace TeenyC

namespace Path

/-! ## Destinations -/

section Destinations

variable {path first second left right : Path}

theorem destination_of_isEmpty (isEmpty : path.isEmpty = true) : path.destination = .top := by
  obtain ⟨absolute, pieces⟩ := path
  rw [Path.isEmpty] at isEmpty
  simp only [Bool.and_eq_true, Bool.not_eq_true', List.all_eq_true, beq_iff_eq,
    decide_eq_true_eq] at isEmpty
  obtain ⟨⟨rfl, idle⟩, short⟩ := isEmpty
  match pieces, short with
  | [], _ => rfl
  | [piece], _ =>
      obtain rfl := idle piece List.mem_cons_self
      rfl

/-- A relative path that is joined to another goes on where the other leads. -/
theorem destination_join (relative : right.absolute = false) :
    (left.join right).destination = left.destination.after right.pieces := by
  rw [join, relative, Bool.false_or]
  split
  · next isEmpty =>
      rw [destination_of_isEmpty isEmpty, destination, start, relative]
      rfl
  · split
    · next slash =>
        have after_dropLast :
            left.start.after left.pieces.dropLast = left.start.after left.pieces := by
          rcases List.eq_nil_or_concat left.pieces with isNil | ⟨before, last, isPieces⟩
          · rw [isNil]
            rfl
          · rw [List.concat_eq_append] at isPieces
            rw [endsInSlash, Bool.and_eq_true, isPieces, beq_iff_eq] at slash
            obtain rfl : last = "" := by simpa using slash.2
            rw [isPieces, List.dropLast_concat, Location.after_append]
            rfl
        exact (Location.after_append ..).trans (congrArg (·.after right.pieces) after_dropLast)
    · exact Location.after_append ..

theorem getLast?_join (nonempty : right.pieces ≠ []) :
    (left.join right).pieces.getLast? = right.pieces.getLast? := by
  rw [join]
  split
  · rfl
  · split <;> exact List.getLast?_append_of_ne_nil _ nonempty

theorem after_names (path : Path) : path.start.after path.names = path.destination := by
  obtain ⟨absolute, pieces⟩ := path
  cases pieces with
  | nil => rfl
  | cons piece rest =>
      have idle : ∀ name : String, (!isIdle name) = false → name = "" ∨ name = "." := by
        intro name
        rw [isIdle, Bool.not_eq_false', Bool.or_eq_true, beq_iff_eq, beq_iff_eq]
        exact id
      rw [names, Location.after_append, Location.after_filter idle, destination,
        Location.after_cons]
      split
      · next idleFirst =>
          rw [isIdleFirst, Bool.or_eq_true, Bool.and_eq_true, beq_iff_eq, beq_iff_eq] at idleFirst
          rw [Location.after_nil, Location.step_of_idle (idleFirst.imp_right And.left)]
      · rfl

/-- Paths that mean the same lead to the same place. -/
theorem destination_eq_of_same (isSame : first.same second = true) :
    first.destination = second.destination := by
  rw [same, Bool.and_eq_true, beq_iff_eq, beq_iff_eq] at isSame
  rw [← after_names first, ← after_names second, start, start, isSame.1, isSame.2]

end Destinations

/-! ## Beginnings -/

/-- The path is a proper beginning of the other. -/
structure Above (above path : Path) : Prop where
  absolute : above.absolute = path.absolute
  begins : above.pieces <+: path.pieces
  proper : above.pieces.length < path.pieces.length

section Beginnings

variable {path above : Path}

theorem dropIdleEnd_begins (pieces : List String) : dropIdleEnd pieces <+: pieces :=
  List.rdropWhile_prefix isIdle pieces

theorem trim_absolute (path : Path) : path.trim.absolute = path.absolute := by
  unfold trim
  split
  · rfl
  · split <;> rfl

theorem trim_begins (path : Path) : path.trim.pieces <+: path.pieces := by
  unfold trim
  split
  · exact List.prefix_rfl
  · next first rest isPieces =>
      have begins := dropIdleEnd_begins rest
      rw [isPieces]
      split
      · dsimp only
        split
        · exact List.nil_prefix
        · exact ⟨rest, rfl⟩
      · exact (List.prefix_cons_inj first).mpr begins

theorem parent?_above (isParent : path.parent? = some above) : above.Above path := by
  rw [parent?] at isParent
  split at isParent
  · cases isParent
  · next notEmpty =>
      cases isParent
      have begins := trim_begins { path.trim with pieces := path.trim.pieces.dropLast }
      have within := (trim_begins path).length_le
      have positive := List.length_pos_iff.mpr (mt List.isEmpty_iff.mpr notEmpty)
      refine ⟨?_, ?_, ?_⟩
      · rw [trim_absolute, trim_absolute]
      · exact (begins.trans (List.dropLast_prefix _)).trans (trim_begins path)
      · refine Nat.lt_of_le_of_lt begins.length_le ?_
        rw [List.length_dropLast]
        omega

/-- A directory upward of the parent of a path is a proper beginning of the path. -/
theorem above_of_mem_upward {higher : Path} (isParent : path.parent? = some above)
    (isIn : higher ∈ above.upward) : higher.Above path := by
  obtain ⟨absolute, begins, proper⟩ := parent?_above isParent
  obtain ⟨isIn, _⟩ := List.mem_filter.mp isIn
  obtain ⟨length, _, rfl⟩ := List.mem_map.mp isIn
  have further := (List.take_prefix (length + 1) above.trim.pieces).trans (trim_begins above)
  refine ⟨?_, further.trans begins, ?_⟩
  · exact (trim_absolute above).trans absolute
  · exact Nat.lt_of_le_of_lt further.length_le proper

end Beginnings

/-! ## Pieces -/

section Pieces

variable {absolute : Bool} {front more : List String}

/-- Joining relative paths to a path puts the same pieces in front of all of them. -/
theorem exists_join (base : Path) :
    ∃ absolute front, ∀ pieces, base.join ⟨false, pieces⟩ = ⟨absolute, front ++ pieces⟩ := by
  by_cases isEmpty : base.isEmpty = true
  · exact ⟨false, [], fun pieces => by rw [join, isEmpty, Bool.or_true, if_pos rfl]; rfl⟩
  · by_cases slash : base.endsInSlash = true
    · exact ⟨base.absolute, base.pieces.dropLast, fun pieces => by simp [join, isEmpty, slash]⟩
    · exact ⟨base.absolute, base.pieces, fun pieces => by simp [join, isEmpty, slash]⟩

theorem isIdle_eq_false_iff {piece : String} :
    isIdle piece = false ↔ piece ≠ "" ∧ piece ≠ "." := by
  simp [isIdle]

theorem names_append (saying : ∀ piece ∈ more, isIdle piece = false) :
    (⟨absolute, front ++ more⟩ : Path).names = (⟨absolute, front⟩ : Path).names ++ more := by
  have kept : ∀ {pieces : List String}, (∀ piece ∈ pieces, isIdle piece = false) →
      pieces.filter (fun piece => !isIdle piece) = pieces := by
    intro pieces saying
    apply List.filter_eq_self.mpr
    intro piece isIn
    rw [saying piece isIn]
    rfl
  cases front with
  | cons first rest =>
      simp only [names, List.cons_append, List.filter_append, kept saying, List.append_assoc]
      rfl
  | nil =>
      cases more with
      | nil => rfl
      | cons first rest =>
          rcases List.forall_mem_cons.mp saying with ⟨sayingFirst, sayingRest⟩
          have notIdle : ∀ path : Path, path.isIdleFirst first = false := by
            intro path
            simp only [isIdle, Bool.or_eq_false_iff] at sayingFirst
            simp [isIdleFirst, sayingFirst]
          simp only [names, List.nil_append, notIdle, kept sayingRest]
          rfl

end Pieces

/-! ## File names -/

section FileNames

variable {name stem extension : String} {names : List String}

/-- A file name falls apart at its last dot. -/
theorem splitExtension?_eq_some_iff :
    splitExtension? name = some (stem, extension) ↔
      stem ≠ "" ∧ '.' ∉ extension.toList ∧ name = stem ++ "." ++ extension := by
  constructor
  · intro isSplit
    rw [splitExtension?] at isSplit
    have splits := @List.takeWhile_append_dropWhile _ (· != '.') name.toList.reverse
    have isDot := List.head?_dropWhile_not (· != '.') name.toList.reverse
    have noDot := @List.all_takeWhile _ (· != '.') name.toList.reverse
    generalize name.toList.reverse.takeWhile (· != '.') = taken at isSplit splits noDot
    generalize name.toList.reverse.dropWhile (· != '.') = dropped at isSplit splits isDot
    split at isSplit
    · next first c rest =>
        cases isSplit
        obtain rfl : first = '.' := by simpa using isDot
        refine ⟨by simp, ?_, ?_⟩
        · intro isIn
          have isTaken : '.' ∈ taken := by simpa using isIn
          simpa using List.all_eq_true.mp noDot _ isTaken
        · apply String.toList_inj.mp
          rw [← List.reverse_inj, ← splits]
          simp
    · cases isSplit
  · rintro ⟨notEmpty, noDot, rfl⟩
    have backward : (stem ++ "." ++ extension).toList.reverse =
        extension.toList.reverse ++ '.' :: stem.toList.reverse := by
      simp
    have inExtension : ∀ c ∈ extension.toList.reverse, (c != '.') = true := by
      intro c isIn
      rw [bne_iff_ne]
      rintro rfl
      exact noDot (List.mem_reverse.mp isIn)
    obtain ⟨c, rest, isStem⟩ : ∃ c rest, stem.toList.reverse = c :: rest :=
      List.exists_cons_of_ne_nil (by simpa using notEmpty)
    rw [splitExtension?, backward, List.dropWhile_append_of_pos inExtension,
      List.takeWhile_append_of_pos inExtension, isStem]
    change some (String.ofList (c :: rest).reverse, _) = _
    rw [← isStem]
    simp

/-- A path that ends in a name ends in nothing idle. -/
theorem trim_of_last {path : Path} (isPieces : path.pieces = names ++ [name])
    (down : LeadsDown name) : path.trim = path := by
  obtain ⟨absolute, pieces⟩ := path
  obtain rfl : pieces = names ++ [name] := isPieces
  obtain ⟨notEmpty, notDot, _⟩ := down
  cases names with
  | nil =>
      change (⟨absolute, if isIdleFirst _ name then [] else [name]⟩ : Path) = _
      rw [if_neg (by simp [isIdleFirst, notEmpty, notDot])]
      rfl
  | cons first rest =>
      have keeps : dropIdleEnd (rest ++ [name]) = rest ++ [name] := by
        refine List.rdropWhile_eq_self_iff.mpr fun nonempty => ?_
        rw [List.getLast_concat]
        simp [isIdle, notEmpty, notDot]
      rw [List.cons_append, trim]
      dsimp only
      rw [keeps]
      split
      · next isNil => simp at isNil
      · rfl

theorem fileName?_of_last {path : Path} (isPieces : path.pieces = names ++ [name])
    (down : LeadsDown name) : path.fileName? = some name := by
  rw [fileName?, trim_of_last isPieces down, isPieces]
  simp [down.2.1, down.2.2]

theorem leadsDown_of_extension (notEmpty : stem ≠ "") (extension_ne : extension ≠ "") :
    LeadsDown (stem ++ "." ++ extension) := by
  have long : 3 ≤ (stem ++ "." ++ extension).length := by
    have stemLong : stem.length ≠ 0 := by simpa using notEmpty
    have extensionLong : extension.length ≠ 0 := by simpa using extension_ne
    rw [String.length_append, String.length_append]
    change 3 ≤ stem.length + 1 + extension.length
    omega
  refine ⟨?_, ?_, ?_⟩ <;> (intro same; rw [same] at long; exact absurd long (by decide))

/-- The extension of a file is replaced by another, unless only a dot is in front of it. -/
theorem withExtension_of_last {path : Path}
    (isPieces : path.pieces = names ++ [stem ++ "." ++ extension]) (notEmpty : stem ≠ "")
    (noDot : '.' ∉ extension.toList) (extension_ne : extension ≠ "") (given : String) :
    path.withExtension given =
      { path with pieces := names ++ [if stem = "." then ".." else addExtension stem given] } := by
  have down := leadsDown_of_extension notEmpty extension_ne
  have splits : splitExtension? (stem ++ "." ++ extension) = some (stem, extension) :=
    splitExtension?_eq_some_iff.mpr ⟨notEmpty, noDot, rfl⟩
  have trims := trim_of_last isPieces down
  have replaced (other : String) :
      path.withFileName other = { path with pieces := names ++ [other] } := by
    rw [withFileName, trims, isPieces]
    simp
  rw [withExtension, fileName?_of_last isPieces down]
  dsimp only
  rw [splits]
  dsimp only
  rw [trims, replaced, replaced]
  by_cases isDot : stem = "."
  · simp [isDot]
  · simp [isDot]

end FileNames

end Path

/-! ## Files with an extension -/

/-- Where a file is below a directory, without the extension of its name. -/
structure Stem where
  above : List String
  name : String

namespace Stem

/-- The path of the file with an extension. -/
def path (stem : Stem) (extension : String) : Path :=
  ⟨false, stem.above ++ [stem.name ++ "." ++ extension]⟩

section

variable {stem other : Stem} {extension given : String}

theorem eq_of_path_eq (same : (stem.path extension).pieces = (other.path extension).pieces) :
    stem = other := by
  obtain ⟨above, name⟩ := stem
  obtain ⟨otherAbove, otherName⟩ := other
  obtain ⟨rfl, sameLast⟩ := List.append_inj' same rfl
  simpa using sameLast

/-- The file has a name in front of its extension, and all names on the way to it lead down. -/
structure Proper (stem : Stem) : Prop where
  above : ∀ name ∈ stem.above, LeadsDown name
  name : stem.name ≠ ""

theorem Proper.leadsDown (proper : stem.Proper) (given_ne : given ≠ "") :
    ∀ name ∈ (stem.path given).pieces, LeadsDown name := by
  intro name isIn
  rcases List.mem_append.mp isIn with isAbove | isLast
  · exact proper.above name isAbove
  · rw [List.mem_singleton.mp isLast]
    exact Path.leadsDown_of_extension proper.name given_ne

/-- The extension of a file is replaced by another, unless only a dot is in front of it. -/
theorem Proper.withExtension (proper : stem.Proper) (noDot : '.' ∉ extension.toList)
    (extension_ne : extension ≠ "") (given_ne : given ≠ "") :
    (stem.path extension).withExtension given =
      if stem.name = "." then ⟨false, stem.above ++ [".."]⟩ else stem.path given := by
  have isPieces : (stem.path extension).pieces =
      stem.above ++ [stem.name ++ "." ++ extension] := rfl
  rw [Path.withExtension_of_last isPieces proper.name noDot extension_ne]
  split
  · rfl
  · simp [Path.addExtension, given_ne, path]

end

end Stem

end TeenyC
