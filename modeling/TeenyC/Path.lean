/-!
# Paths

A path is kept as it is written, in the pieces between its slashes: empty pieces
and dots stay.  What a path means is read off those pieces.  A piece that is empty
says nothing, and neither does a dot, except as the first piece of a path that
does not start with a slash.
-/

namespace TeenyC

/-- A path, in the pieces between its slashes. -/
structure Path where
  /-- Whether the path starts with a slash, which belongs to no piece. -/
  absolute : Bool
  pieces : List String
  deriving DecidableEq

namespace Path

/-! ## Texts -/

/-- Cut a text at every slash. -/
def cut : List Char → List (List Char)
  | [] => [[]]
  | c :: rest =>
    if c = '/' then
      [] :: cut rest
    else
      match cut rest with
      | [] => [[c]]
      | piece :: pieces => (c :: piece) :: pieces

/-- The path that a text writes. -/
def ofString (text : String) : Path :=
  match text.toList with
  | '/' :: rest => ⟨true, (cut rest).map String.ofList⟩
  | chars => ⟨false, (cut chars).map String.ofList⟩

/-- The text of a path. -/
def text (path : Path) : String :=
  (if path.absolute then "/" else "") ++ "/".intercalate path.pieces

theorem cut_ne_nil (chars : List Char) : cut chars ≠ [] := by
  cases chars with
  | nil => simp [cut]
  | cons c rest =>
      rw [cut]
      split
      · simp
      · split <;> simp

/-- Nothing is lost between the pieces but the slashes. -/
theorem intercalate_cut (chars : List Char) : ['/'].intercalate (cut chars) = chars := by
  induction chars with
  | nil => rfl
  | cons c rest inductionHypothesis =>
      obtain ⟨piece, pieces, cutRest⟩ := List.exists_cons_of_ne_nil (cut_ne_nil rest)
      rw [cutRest] at inductionHypothesis
      rw [cut, cutRest]
      split
      · next slash =>
          rw [List.intercalate_cons_cons, inductionHypothesis, slash]
          rfl
      · rw [← inductionHypothesis]
        cases pieces with
        | nil => simp [List.intercalate]
        | cons next others => simp [List.intercalate_cons_cons]

private theorem toList_intercalate_map (pieces : List (List Char)) :
    ("/".intercalate (pieces.map String.ofList)).toList = ['/'].intercalate pieces := by
  rw [String.toList_intercalate, List.map_map]
  have identity : String.toList ∘ String.ofList = id := by
    funext chars
    exact String.toList_ofList
  rw [identity, List.map_id]
  rfl

/-- A path is written as it was read. -/
@[simp]
theorem text_ofString (text : String) : (ofString text).text = text := by
  apply String.toList_inj.mp
  unfold ofString Path.text
  split
  · next rest start =>
      rw [String.toList_append, toList_intercalate_map, intercalate_cut, start]
      simp
  · rw [String.toList_append, toList_intercalate_map, intercalate_cut]
    simp

/-- The path of the empty text. -/
def isEmpty (path : Path) : Bool :=
  !path.absolute && path.pieces.all (· == "") && path.pieces.length ≤ 1

/-- Whether the text of a path ends in a slash. -/
def endsInSlash (path : Path) : Bool :=
  !path.isEmpty && path.pieces.getLastD "" == ""

/-! ## Meaning -/

/-- Pieces that say nothing after the first piece. -/
def isIdle (piece : String) : Bool :=
  piece == "" || piece == "."

/-- Whether the first piece of a path says nothing. -/
def isIdleFirst (path : Path) (piece : String) : Bool :=
  piece == "" || (piece == "." && path.absolute)

/-- A list without its last members that say nothing. -/
def dropIdleEnd (pieces : List String) : List String :=
  (pieces.reverse.dropWhile isIdle).reverse

/-- The path without the pieces at its end that say nothing. -/
def trim (path : Path) : Path :=
  match path.pieces with
  | [] => path
  | first :: rest =>
    match dropIdleEnd rest with
    | [] => { path with pieces := if path.isIdleFirst first then [] else [first] }
    | rest => { path with pieces := first :: rest }

/-- The pieces that say something. -/
def names (path : Path) : List String :=
  match path.pieces with
  | [] => []
  | first :: rest =>
    (if path.isIdleFirst first then [] else [first]) ++ rest.filter fun piece => !isIdle piece

/-- Two paths mean the same when they start at the same place and their pieces say
the same. -/
def same (first second : Path) : Bool :=
  first.absolute == second.absolute && first.names == second.names

/-! ## Directories -/

/-- The path without its last name. -/
def parent? (path : Path) : Option Path :=
  let trimmed := path.trim
  if trimmed.pieces.isEmpty then
    none
  else
    some { trimmed with pieces := trimmed.pieces.dropLast }.trim

/-- The path and the directories above it, up to the first name, the longest
first. -/
def upward (path : Path) : List Path :=
  let trimmed := path.trim
  let lengths := (List.range trimmed.pieces.length).reverse
  (lengths.map fun length => { trimmed with pieces := trimmed.pieces.take (length + 1) }).filter
    fun above => above.trim = above

/-- A path below another.  A path that starts with a slash is below none. -/
def join (left right : Path) : Path :=
  if right.absolute || left.isEmpty then
    right
  else if left.endsInSlash then
    { left with pieces := left.pieces.dropLast ++ right.pieces }
  else
    { left with pieces := left.pieces ++ right.pieces }

/-! ## File names -/

/-- The last name of a path, unless it is one of the dots that stand for a
directory. -/
def fileName? (path : Path) : Option String :=
  match path.trim.pieces.getLast? with
  | some name => if name == "." || name == ".." then none else some name
  | none => none

/-- A file name in front of and after its last dot.  A name without a dot, or
with only one in front, has no extension. -/
def splitExtension? (name : String) : Option (String × String) :=
  let backward := name.toList.reverse
  match backward.dropWhile (· != '.') with
  | _ :: c :: stem =>
    some (String.ofList (c :: stem).reverse,
      String.ofList (backward.takeWhile (· != '.')).reverse)
  | _ => none

/-- The extension of the file name. -/
def extension? (path : Path) : Option String :=
  (path.fileName?.bind splitExtension?).map (·.2)

/-- A file name with an extension.  The empty extension has no dot. -/
def addExtension (stem extension : String) : String :=
  if extension == "" then stem else stem ++ "." ++ extension

/-- The path with another file name, and nothing after it. -/
def withFileName (path : Path) (name : String) : Path :=
  let trimmed := path.trim
  { trimmed with pieces := trimmed.pieces.dropLast ++ [name] }

/-- The path with another extension.  An extension is first cut off after its dot;
where `..` is left over, that is no file name any more and gets no extension.  A
slash at the end keeps the cut away from the dot. -/
def withExtension (path : Path) (extension : String) : Path :=
  match path.fileName? with
  | none => path
  | some name =>
    match splitExtension? name with
    | none => path.withFileName (addExtension name extension)
    | some (stem, _) =>
      if stem == "." && path.trim = path then
        path.withFileName ".."
      else
        path.withFileName (addExtension stem extension)

/-- The executable that is built from a C file: its path without extension, or
with the extension `out` if it has none to lose. -/
def executable (path : Path) : Path :=
  let stripped := path.withExtension ""
  if stripped.same path then path.withExtension "out" else stripped

end Path

end TeenyC
