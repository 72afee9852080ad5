/-!
# Columns

A text is set into a column by cutting it to a greatest length and filling it up
with spaces to a least width.
-/

namespace TeenyC

/-- Where a text stands in a column that is wider than it. -/
inductive Alignment where
  | left
  | right
  | center
  deriving DecidableEq

/-- The number of spaces before a text that leaves `room` places free.  A centred
text has the odd space after it. -/
def Alignment.before (alignment : Alignment) (room : Nat) : Nat :=
  match alignment with
  | .left => 0
  | .right => room
  | .center => room / 2

/-- A column: its least width, the place of shorter texts, and the number of
characters to which longer texts are cut. -/
structure Column where
  width : Nat := 0
  alignment : Alignment := .left
  greatest : Option Nat := none

namespace Column

/-- The characters of a text that the column keeps. -/
def cut (column : Column) (text : List Char) : List Char :=
  match column.greatest with
  | none => text
  | some length => text.take length

/-- Set a text into the column. -/
def set (column : Column) (text : String) : String :=
  let kept := column.cut text.toList
  let room := column.width - kept.length
  let before := column.alignment.before room
  String.ofList
    (List.replicate before ' ' ++ kept ++ List.replicate (room - before) ' ')

end Column

end TeenyC
