import TeenyC.Proofs.Compile.Expression
import TeenyC.Proofs.Compile.Names

/-!
# What statements do to a session

A statement takes a session to another place in the tokens, adds lines of C, and
records what it does with names.  `advance` is all of that at once.  A session is
`Ready` for statements when its tokens are valid, its tables reflect the events so
far, and the active section is the one for the function that is being compiled.
-/

namespace TeenyC

open Syntax

/-! ## Text in two sections -/

namespace CUnit

/-- The unit with more text in the functions and in the active section. -/
def extend (unit : CUnit) (functions code : String) : CUnit :=
  { unit with functions := unit.functions ++ functions }.write code

@[simp]
theorem active_extend (unit : CUnit) (functions code : String) :
    (unit.extend functions code).active = unit.active :=
  active_write _ code

theorem extend_empty (unit : CUnit) (code : String) : unit.extend "" code = unit.write code := by
  simp [extend]

/-- Texts in two sections can be added in one go, if there is nothing for the functions
while these are active. -/
theorem extend_extend {unit : CUnit} {moreFunctions : String} (functions code moreCode : String)
    (apart : unit.active = .main ∨ moreFunctions = "") :
    (unit.extend functions code).extend moreFunctions moreCode =
      unit.extend (functions ++ moreFunctions) (code ++ moreCode) := by
  rcases unit with ⟨active, header, before, main⟩
  rcases apart with rfl | rfl
  · simp [extend, write, String.append_assoc]
  · cases active <;> simp [extend, write, String.append_assoc]

end CUnit

namespace Session

/-! ## Moving on -/

/-- The tables of a session. -/
def names (session : Session) : Names :=
  ⟨session.table, session.functions, session.labels, session.targets⟩

/-- The session with other tables. -/
def withNames (session : Session) (names : Names) : Session :=
  { session with
    table := names.table
    functions := names.functions
    labels := names.labels
    targets := names.targets }

/-- The session after some tokens: the lines for functions and those for the active
section are added, and the events are recorded. -/
def advance (session : Session) (place : Cursor) (functions code : List Line)
    (occurrences : List Occurrence) : Session :=
  { (session.moveTo place).withNames (session.names.recordAll occurrences) with
    unit := session.unit.extend (render functions) (render code) }

variable {session : Session} {place : Cursor} {functions code : List Line}
  {occurrences : List Occurrence}

@[simp]
theorem function_advance :
    (session.advance place functions code occurrences).function = session.function := rfl

@[simp]
theorem active_advance :
    (session.advance place functions code occurrences).unit.active = session.unit.active :=
  CUnit.active_extend ..

theorem advance_advance {target : Cursor} {moreFunctions : List Line} (moreCode : List Line)
    (moreOccurrences : List Occurrence)
    (apart : session.unit.active = .main ∨ moreFunctions = []) :
    (session.advance place functions code occurrences).advance target moreFunctions moreCode
        moreOccurrences =
      session.advance target (functions ++ moreFunctions) (code ++ moreCode)
        (occurrences ++ moreOccurrences) := by
  have texts := CUnit.extend_extend (render functions) (render code) (render moreCode)
    (apart.imp_right fun none => congrArg render none)
  simp only [advance, names, withNames, moveTo, render_append, texts, Names.recordAll_append]

/-- Going past tokens and writing lines, without names. -/
theorem write_moveTo_eq_advance (session : Session) (place : Cursor) (code : List Line) :
    (session.moveTo place).write (render code) = session.advance place [] code [] := by
  simp only [advance, render, CUnit.extend_empty]
  rfl

theorem moveTo_eq_advance (session : Session) (place : Cursor) :
    session.moveTo place = session.advance place [] [] [] := by
  rw [← write_moveTo_eq_advance, render, write_empty]

/-- Reading variables makes no difference to where a session advances to. -/
theorem advance_uses (owner : String) (read : List String) :
    session.advance place functions code (within owner (read.map .use)) =
      session.advance place functions code [] := by
  simp only [advance, Names.recordAll_uses, Names.recordAll_nil]

/-! ## Functions -/

/-- The session at the start of the body of a function. -/
def enter (session : Session) (name : String) : Session :=
  { session.withNames (session.names.record ⟨mainFunction, .header name⟩) with
    unit := session.unit.select .functions
    function := name }

/-- The session back in the function `main`. -/
def leave (session : Session) : Session :=
  { session with unit := session.unit.select .main, function := mainFunction }

/-- The lines of a body are lines of functions for the session outside. -/
theorem leave_advance_enter {name : String} (atMain : session.function = mainFunction)
    (isActive : session.unit.active = .main) (functionCode : List Line) :
    ((session.enter name).advance place [] functionCode occurrences).leave =
      session.advance place functionCode [] (⟨mainFunction, .header name⟩ :: occurrences) := by
  rcases session with ⟨_, _, _, ⟨active, _, _, _⟩, function, _, _, _, _⟩
  simp only at atMain isActive
  subst atMain isActive
  simp [leave, enter, advance, withNames, names, moveTo, CUnit.extend, CUnit.select, CUnit.write,
    render]

/-! ## Sessions ready for a statement -/

/-- A session that has gone past statements with the given history of events, and
whose function has had the given targets so far. -/
structure Ready (session : Session) (history : List Occurrence) (earlier : List String) :
    Prop where
  valid : session.Valid
  knows : session.names.Knows session.function history earlier
  aligned : session.function = mainFunction ∧ session.unit.active = .main ∨
    session.function ≠ mainFunction ∧ session.unit.active = .functions

variable {history : List Occurrence} {earlier : List String}

/-- Whether the session is in a function can be told from its active section. -/
theorem Ready.active_eq_functions_iff (ready : session.Ready history earlier) :
    session.unit.active = .functions ↔ session.function ≠ mainFunction := by
  rcases ready.aligned with ⟨atMain, isActive⟩ | ⟨inFunction, isActive⟩
  · simp [atMain, isActive]
  · simp [inFunction, isActive]

theorem Ready.active_eq_main (ready : session.Ready history earlier)
    (atMain : session.function = mainFunction) : session.unit.active = .main := by
  rcases ready.aligned with ⟨_, isActive⟩ | ⟨inFunction, _⟩
  · exact isActive
  · exact absurd atMain inFunction

/-- A block that is admitted has lines for functions only outside of them. -/
theorem Ready.apart (ready : session.Ready history earlier) {names : Names} {block : Block}
    (admits : names.Admits (block.occurrences session.function)) :
    session.unit.active = .main ∨ block.functions.flatMap functionLines = [] := by
  rcases ready.aligned with ⟨_, isActive⟩ | ⟨inFunction, _⟩
  · exact .inl isActive
  · rw [admits.functions_eq_nil inFunction]
    exact .inr rfl

theorem Ready.advance (ready : session.Ready history earlier) {tokens : List Token}
    {moreHistory : List Occurrence} {moreEarlier : List String}
    (passes : session.cursor.Passes tokens place)
    (knows : (session.names.recordAll occurrences).Knows session.function moreHistory
      moreEarlier) :
    (session.advance place functions code occurrences).Ready moreHistory moreEarlier where
  valid := passes.valid ready.valid
  knows := knows
  aligned := by
    rw [function_advance, active_advance]
    exact ready.aligned

/-- Tokens without names keep the session ready. -/
theorem Ready.advance_nil (ready : session.Ready history earlier) {tokens : List Token}
    (passes : session.cursor.Passes tokens place) :
    (session.advance place functions code []).Ready history earlier :=
  ready.advance passes ready.knows

theorem Ready.moveTo (ready : session.Ready history earlier) {tokens : List Token}
    (passes : session.cursor.Passes tokens place) :
    (session.moveTo place).Ready history earlier := by
  rw [moveTo_eq_advance]
  exact ready.advance_nil passes

/-- After a function is declared the session is ready for its body. -/
theorem Ready.enter (ready : session.Ready history earlier) {tokens : List Token} {name : String}
    (passes : session.cursor.Passes tokens place)
    (allows : session.names.Allows ⟨session.function, .header name⟩) :
    ((session.moveTo place).enter name).Ready
      (history ++ [⟨mainFunction, .header name⟩]) [] where
  valid := passes.valid ready.valid
  knows := by
    have atMain : session.function = mainFunction := allows.1
    have knows := ready.knows.header allows
    rw [atMain] at knows
    exact knows
  aligned := .inr ⟨allows.2.1, rfl⟩

end Session

end TeenyC
