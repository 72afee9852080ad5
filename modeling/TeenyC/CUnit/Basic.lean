/-!
# C units

The C text of a program while it is being built.  C wants the includes first and
every function before its use, but statements come in the order of the source, so
the text is kept in three sections.  The active section receives what is written,
and the sections always stand in the same order in the finished text.
-/

namespace TeenyC

/-- A section of a C unit. -/
inductive Section where
  /-- The includes. -/
  | header
  /-- The functions that the program declares. -/
  | functions
  /-- The function `main`. -/
  | main
  deriving DecidableEq

/-- A C unit under construction. -/
structure CUnit where
  /-- The section that receives what is written. -/
  active : Section := .main
  header : String := ""
  functions : String := ""
  main : String := ""
  deriving DecidableEq

namespace CUnit

/-- The unit in which nothing is written. -/
def empty : CUnit := {}

/-- The text of a section. -/
def text (unit : CUnit) : Section → String
  | .header => unit.header
  | .functions => unit.functions
  | .main => unit.main

/-- Make a section the active one. -/
def select (unit : CUnit) (part : Section) : CUnit :=
  { unit with active := part }

/-- Write at the end of the active section. -/
def write (unit : CUnit) (text : String) : CUnit :=
  match unit.active with
  | .header => { unit with header := unit.header ++ text }
  | .functions => { unit with functions := unit.functions ++ text }
  | .main => { unit with main := unit.main ++ text }

/-- Write a line at the end of the active section. -/
def writeLine (unit : CUnit) (text : String) : CUnit :=
  unit.write (text ++ "\n")

/-- The whole text: header, functions, main. -/
def flatten (unit : CUnit) : String :=
  unit.header ++ unit.functions ++ unit.main

/-! ## What writing does to the sections -/

@[simp]
theorem text_select (unit : CUnit) (part other : Section) :
    (unit.select part).text other = unit.text other := by
  cases other <;> rfl

@[simp]
theorem active_write (unit : CUnit) (text : String) :
    (unit.write text).active = unit.active := by
  rcases unit with ⟨active, header, functions, main⟩
  cases active <;> rfl

/-- Writing appends to the active section and leaves the others alone. -/
theorem text_write (unit : CUnit) (text : String) (part : Section) :
    (unit.write text).text part =
      if part = unit.active then unit.text part ++ text else unit.text part := by
  rcases unit with ⟨active, header, functions, main⟩
  cases active <;> cases part <;> rfl

end CUnit

end TeenyC
