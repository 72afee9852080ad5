import TeenyC.Proofs.Compile.Inheritance

/-!
# Compiling into a unit that holds text already

A unit may be handed from one pass to the next.  No rule reads the C text, and the one that
reads which section is active comes after the program has selected a section, so what a pass
finds in its unit has no effect on it: its text goes behind the text that is there.

The rules only append, in the sense that earlier text in front of every section stays in front
of every section.  This is inherited by all rules, and holds of a failing rule too.
-/

namespace TeenyC

/-! ## Earlier text -/

namespace CUnit

/-- The unit with the text of another in front of its own, section by section. -/
def onto (unit earlier : CUnit) : CUnit where
  active := unit.active
  header := earlier.header ++ unit.header
  functions := earlier.functions ++ unit.functions
  main := earlier.main ++ unit.main

theorem text_onto (unit earlier : CUnit) (part : Section) :
    (unit.onto earlier).text part = earlier.text part ++ unit.text part := by
  cases part <;> rfl

theorem write_onto (unit earlier : CUnit) (text : String) :
    (unit.onto earlier).write text = (unit.write text).onto earlier := by
  rcases unit with ⟨active, header, functions, main⟩
  cases active <;> simp only [onto, write, String.append_assoc]

end CUnit

/-- The session with earlier text in its unit. -/
def Session.onto (session : Session) (earlier : CUnit) : Session :=
  { session with unit := session.unit.onto earlier }

theorem Session.write_onto (session : Session) (earlier : CUnit) (text : String) :
    (session.onto earlier).write text = (session.write text).onto earlier :=
  congrArg (fun unit => { session with unit }) (session.unit.write_onto earlier text)

namespace Rule

variable {α β : Type}

/-- The outcome of a rule, with earlier text in the unit. -/
def outcomeOnto (earlier : CUnit) :
    EStateM.Result Error Session α → EStateM.Result Error Session α
  | .ok value after => .ok value (after.onto earlier)
  | .error error after => .error error (after.onto earlier)

/-- The rule does the same whatever text is in the unit, and leaves that text in front. -/
def OnlyAppends (rule : Rule α) : Prop :=
  ∀ session earlier, rule (session.onto earlier) = outcomeOnto earlier (rule session)

/-! ## The steps of a pass -/

theorem OnlyAppends.bind {rule : Rule α} {next : α → Rule β} (first : OnlyAppends rule)
    (second : ∀ value, OnlyAppends (next value)) : OnlyAppends (rule >>= next) := by
  intro session earlier
  rw [bind_apply, bind_apply, first]
  cases rule session with
  | ok value after => exact second value after earlier
  | error error after => rfl

/-- A choice that does not depend on the text in the unit; it may depend on the active
section. -/
theorem onlyAppends_look {next : Session → Rule α}
    (blind : ∀ session earlier, next (Session.onto session earlier) = next session)
    (ofNext : ∀ session, OnlyAppends (next session)) : OnlyAppends (get >>= next) := by
  intro session earlier
  rw [get_bind, get_bind, blind]
  exact ofNext session session earlier

theorem onlyAppends_modify {change : Session → Session}
    (commutes : ∀ session earlier,
      change (Session.onto session earlier) = (change session).onto earlier) :
    OnlyAppends (modify change : Rule Unit) := by
  intro session earlier
  rw [modify_apply, modify_apply, commutes]
  rfl

theorem onlyAppends_write (text : String) : OnlyAppends (write text) :=
  onlyAppends_modify fun session earlier => session.write_onto earlier text

theorem onlyAppends_shift : OnlyAppends shift := by
  intro session earlier
  simp only [shift, Session.onto]
  cases session.lexer.next <;> rfl

theorem onlyAppends_declareVariable (name : String) : OnlyAppends (declareVariable name) := by
  intro session earlier
  rw [declareVariable_eq, declareVariable_eq]
  apply congrArg (EStateM.Result.ok ())
  by_cases known : session.table.declares session.function name = true
  · have knownThere : (session.onto earlier).table.declares (session.onto earlier).function name =
        true := known
    rw [if_pos known, if_pos knownThere]
  · have newThere : ¬ (session.onto earlier).table.declares (session.onto earlier).function name =
        true := known
    rw [if_neg known, if_neg newThere]
    exact Session.write_onto
      { session with table := session.table.declare session.function name } earlier _

/-! ## All rules -/

theorem onlyAppends_inherited : Inherited fun _ rule => OnlyAppends rule where
  pure _ _ _ := rfl
  bind := OnlyAppends.bind
  throw _ _ _ := rfl
  look blind := onlyAppends_look fun session earlier =>
    blind session (session.unit.onto earlier) session.lexer rfl
  shift := onlyAppends_shift
  write := onlyAppends_write
  addLabel _ := onlyAppends_modify fun _ _ => rfl
  addTarget _ := onlyAppends_modify fun _ _ => rfl
  declareVariable := onlyAppends_declareVariable

theorem onlyAppends_functionEnd : OnlyAppends functionEnd := by
  apply onlyAppends_modify
  intro session earlier
  rw [Session.write_onto]
  rfl

/-- The declaration of a function looks at the active section, which earlier text does not
change. -/
theorem OnlyAppends.functionDeclaration {inner : Rule Unit} (appends : OnlyAppends inner) :
    OnlyAppends (functionDeclaration inner) := by
  apply onlyAppends_inherited.functionDeclaration _ _ onlyAppends_functionEnd appends
  · intro next blind
    exact onlyAppends_look fun session earlier =>
      blind session (session.unit.onto earlier) session.lexer rfl rfl
  · intro name
    apply onlyAppends_modify
    intro session earlier
    exact Session.write_onto (session.enter name) earlier _

/-- A whole pass leaves earlier text in front of its own. -/
theorem onlyAppends_program : OnlyAppends program := by
  have statements : OnlyAppends statement :=
    onlyAppends_inherited.statement fun _ => .functionDeclaration
  intro session earlier
  have opens : (session.onto earlier).openMain = session.openMain.onto earlier := by
    rw [Session.openMain, Session.openMain, ← Session.write_onto]
    exact congrArg (Session.write · _)
      (congrArg (Session.select · .main) (Session.write_onto (session.select .header) earlier _))
  rw [program_eq, programOver, programOver, opens]
  exact onlyAppends_inherited.programBody (fun _ _ _ => rfl) statements session.openMain earlier

end Rule

/-! ## Whole passes -/

/-- A pass starts with the same tokens and tables whatever its unit holds. -/
theorem Session.start_onto (lexer : Lexer) (unit : CUnit) :
    Session.start lexer unit =
      (Session.start lexer .empty).map fun fresh => (fresh.onto unit).select unit.active := by
  have whole : (CUnit.empty.onto unit).select unit.active = unit := by
    simp only [CUnit.onto, CUnit.empty, CUnit.select, String.append_empty]
  rw [Session.start, Session.start]
  cases lexer.next with
  | error error after => rfl
  | ok current afterFirst =>
      dsimp only
      cases afterFirst.next with
      | error error after => rfl
      | ok lookahead afterSecond => simp only [Except.map, Session.onto, Session.select, whole]

/-- The section that is active at first has no effect, as a program starts with its header. -/
theorem Rule.program_select (session : Session) (part : Section) :
    Rule.program (session.select part) = Rule.program session := rfl

/-- A pass gives the same summary or error whatever its unit holds, and appends to every section
what it writes into an empty unit; the section that is active in the end is the same too, unless
the pass does not even start. -/
theorem run_appends (lexer : Lexer) (unit : CUnit) :
    (run lexer unit).1 = (run lexer .empty).1 ∧
      (∀ part, (run lexer unit).2.text part =
        unit.text part ++ (run lexer .empty).2.text part) ∧
      (run lexer unit).2.active =
        match Session.start lexer unit with
        | .ok _ => (run lexer .empty).2.active
        | .error _ => unit.active := by
  have sameStart := Session.start_onto lexer unit
  simp only [run]
  cases starts : Session.start lexer .empty with
  | error error =>
      rw [starts] at sameStart
      simp only [sameStart, Except.map, true_and, and_true]
      intro part
      cases part <;> exact String.append_empty.symm
  | ok fresh =>
      rw [starts] at sameStart
      have samePass : Rule.program ((fresh.onto unit).select unit.active) =
          Rule.outcomeOnto unit (Rule.program fresh) := by
        rw [Rule.program_select]
        exact Rule.onlyAppends_program fresh unit
      simp only [sameStart, Except.map, samePass]
      cases Rule.program fresh with
      | ok summary after => exact ⟨rfl, after.unit.text_onto unit, rfl⟩
      | error error after => exact ⟨rfl, after.unit.text_onto unit, rfl⟩

end TeenyC
