import Mathlib
import TeenyC.Proofs.Compile.Calls
import TeenyC.Proofs.Compile.Inheritance

/-!
# Coherent sessions

The function that is being compiled is kept in two places: a session names it, and its unit has a
section active.  They are set one after the other, and to fixed values at the end of a function.
Nevertheless they agree whenever the rule for statements is called and whenever it returns, also
in a pass that fails later on, and every statement leaves both as it found them.

The proof is one about rules.  Keeping a session coherent is inherited by all rules, where the
declaration of a function needs an argument of its own: its head takes a session into the function
and its end takes it back.  As no rule sees what the rule for statements does in a session that is
not coherent, that rule is called in coherent sessions only.
-/

namespace TeenyC

/-- The variables of the functions that were open before stay what they are. -/
theorem Variables.of_openFunction {function other : String} (table : Variables)
    (different : other ≠ function) : (table.openFunction function).of other = table.of other := by
  have apart : (function == other) = false := beq_eq_false_iff_ne.mpr (Ne.symm different)
  simp only [openFunction, of, List.find?_cons, apart]

/-! ## Coherence -/

namespace Session

/-- The active section and the tables belong to the current function and the functions that are
declared. -/
structure Coherent (session : Session) : Prop where
  /-- The section for functions is active in a function, and that for `main` otherwise. -/
  active : session.unit.active = if session.function = mainFunction then .main else .functions
  /-- There is an entry for `main` and for every function that is declared, and no other. -/
  entries : ∀ name, name ∈ session.table.functions ↔
    name = mainFunction ∨ name ∈ session.functions
  /-- The current function has an entry. -/
  current : session.function ∈ session.table.functions

/-- The session after a statement is in the scope of the one before, and has changed nothing that
does not belong to that scope. -/
structure Restores (session after : Session) : Prop where
  active : after.unit.active = session.unit.active
  function : after.function = session.function
  header : after.unit.header = session.unit.header
  entries : ∀ name ∈ session.table.functions, name ∈ after.table.functions
  /-- Only the current function has got new variables. -/
  elsewhere : ∀ name ∈ session.table.functions, name ≠ session.function →
    after.table.of name = session.table.of name
  /-- In a function nothing is written but more text of functions. -/
  appends : session.function ≠ mainFunction →
    after.unit.main = session.unit.main ∧
      ∃ text, after.unit.functions = session.unit.functions ++ text

variable {session middle after : Session}

theorem Restores.refl (session : Session) : session.Restores session where
  active := rfl
  function := rfl
  header := rfl
  entries _ isEntry := isEntry
  elsewhere _ _ _ := rfl
  appends _ := ⟨rfl, "", String.append_empty.symm⟩

theorem Restores.trans (first : session.Restores middle) (second : middle.Restores after) :
    session.Restores after where
  active := second.active.trans first.active
  function := second.function.trans first.function
  header := second.header.trans first.header
  entries name isEntry := second.entries name (first.entries name isEntry)
  elsewhere := by
    intro name isEntry other
    rw [← first.elsewhere name isEntry other]
    apply second.elsewhere name (first.entries name isEntry)
    rwa [first.function]
  appends := by
    intro inFunction
    rcases first.appends inFunction with ⟨sameMain, text, appended⟩
    rw [← first.function] at inFunction
    rcases second.appends inFunction with ⟨sameMainAfter, moreText, moreAppended⟩
    apply And.intro (sameMainAfter.trans sameMain)
    exact ⟨text ++ moreText, by rw [moreAppended, appended, String.append_assoc]⟩

namespace Coherent

/-- A step that goes on in the tokens, or records a label. -/
theorem step (coherent : session.Coherent) (sameUnit : after.unit = session.unit)
    (sameFunction : after.function = session.function) (sameTable : after.table = session.table)
    (sameFunctions : after.functions = session.functions) :
    after.Coherent ∧ session.Restores after := by
  constructor
  · constructor
    · rw [sameUnit, sameFunction]
      exact coherent.active
    · rw [sameTable, sameFunctions]
      exact coherent.entries
    · rw [sameFunction, sameTable]
      exact coherent.current
  · have unchanged := Restores.refl session
    constructor
    · rw [sameUnit]
    · exact sameFunction
    · rw [sameUnit]
    · rw [sameTable]
      exact unchanged.entries
    · rw [sameTable]
      exact unchanged.elsewhere
    · rw [sameUnit]
      exact unchanged.appends

theorem not_header (coherent : session.Coherent) : Section.header ≠ session.unit.active := by
  rw [coherent.active]
  split
  · exact nofun
  · exact nofun

theorem active_of_function (coherent : session.Coherent)
    (inFunction : session.function ≠ mainFunction) : session.unit.active = .functions := by
  rw [coherent.active, if_neg inFunction]

theorem write (coherent : session.Coherent) (text : String) :
    (session.write text).Coherent ∧ session.Restores (session.write text) := by
  constructor
  · constructor
    · exact (session.unit.active_write text).trans coherent.active
    · exact coherent.entries
    · exact coherent.current
  · constructor
    · exact session.unit.active_write text
    · rfl
    · exact (session.unit.text_write text .header).trans (if_neg coherent.not_header)
    · exact fun _ isEntry => isEntry
    · exact fun _ _ _ => rfl
    · intro inFunction
      have isActive := coherent.active_of_function inFunction
      constructor
      · apply (session.unit.text_write text .main).trans
        rw [isActive]
        rfl
      · exact ⟨text, (session.unit.text_write text .functions).trans (if_pos isActive.symm)⟩

/-- A variable is entered for the current function. -/
theorem declare (coherent : session.Coherent) (name : String) :
    let declared := { session with table := session.table.declare session.function name }
    declared.Coherent ∧ session.Restores declared := by
  intro declared
  have sameEntries : declared.table.functions = session.table.functions :=
    Variables.functions_declare ..
  constructor
  · constructor
    · exact coherent.active
    · rw [sameEntries]
      exact coherent.entries
    · rw [sameEntries]
      exact coherent.current
  · have unchanged := Restores.refl session
    constructor
    · rfl
    · rfl
    · rfl
    · rw [sameEntries]
      exact unchanged.entries
    · intro other _ different
      apply (Variables.of_declare session.table session.function name other).trans
      exact if_neg fun same => different same.1
    · exact unchanged.appends

end Coherent

end Session

/-! ## Rules that keep sessions coherent -/

namespace Rule

variable {α β : Type} {inner : Rule Unit} {session : Session}

/-- Where the rule succeeds, it leaves a coherent session in the scope it found it in. -/
def KeepsScope (rule : Rule α) : Prop :=
  ∀ ⦃session : Session⦄, session.Coherent → ∀ ⦃value : α⦄ ⦃after : Session⦄,
    rule session = .ok value after → after.Coherent ∧ session.Restores after

theorem KeepsScope.bind {rule : Rule α} {next : α → Rule β} (first : KeepsScope rule)
    (second : ∀ value, KeepsScope (next value)) : KeepsScope (rule >>= next) := by
  intro session coherent result after run
  rcases bind_eq_ok_iff.mp run with ⟨value, middle, firstRun, secondRun⟩
  rcases first coherent firstRun with ⟨coherentMiddle, restores⟩
  rcases second value coherentMiddle secondRun with ⟨coherentAfter, restoresAfter⟩
  exact ⟨coherentAfter, restores.trans restoresAfter⟩

theorem keepsScope_shift : KeepsScope shift := by
  intro session coherent value after run
  rcases shift_eq_ok_iff.mp run with ⟨place, _, rfl⟩
  exact coherent.step rfl rfl rfl rfl

theorem keepsScope_write (text : String) : KeepsScope (write text) := by
  rintro session coherent value after ⟨⟩
  exact coherent.write text

theorem keepsScope_declareVariable (name : String) : KeepsScope (declareVariable name) := by
  intro session coherent value after run
  rw [declareVariable_eq] at run
  split at run
  · cases run
    exact ⟨coherent, .refl session⟩
  · cases run
    rcases coherent.declare name with ⟨coherentDeclared, restores⟩
    rcases coherentDeclared.write ("float " ++ name ++ ";" ++ "\n") with
      ⟨coherentWritten, restoresWritten⟩
    exact ⟨coherentWritten, restores.trans restoresWritten⟩

theorem keepsScope_inherited : Inherited fun _ rule => KeepsScope rule where
  pure := by
    rintro _ value session coherent _ _ ⟨⟩
    exact ⟨coherent, .refl session⟩
  bind := KeepsScope.bind
  throw := by
    rintro _ error _ session _ _ _ ⟨⟩
  look _ ofNext session := @ofNext session session
  shift := keepsScope_shift
  write := keepsScope_write
  addLabel := by
    rintro name session coherent _ _ ⟨⟩
    exact coherent.step rfl rfl rfl rfl
  addTarget := by
    rintro name session coherent _ _ ⟨⟩
    exact coherent.step rfl rfl rfl rfl
  declareVariable := keepsScope_declareVariable

/-! ## Functions -/

/-- The session is in a function that is new, and nothing else has changed. -/
structure Opens (session entered : Session) : Prop where
  outside : session.function = mainFunction
  new : entered.function ∉ session.table.functions
  header : entered.unit.header = session.unit.header
  entries : ∀ name ∈ session.table.functions, name ∈ entered.table.functions
  elsewhere : ∀ name ∈ session.table.functions, name ≠ mainFunction →
    entered.table.of name = session.table.of name

theorem Opens.before {middle entered : Session} (restores : session.Restores middle)
    (opens : Opens middle entered) : Opens session entered where
  outside := restores.function.symm.trans opens.outside
  new isEntry := opens.new (restores.entries _ isEntry)
  header := opens.header.trans restores.header
  entries name isEntry := opens.entries name (restores.entries name isEntry)
  elsewhere := by
    intro name isEntry notMain
    apply (opens.elsewhere name (restores.entries name isEntry) notMain).trans
    apply restores.elsewhere name isEntry
    rwa [← restores.function, opens.outside]

theorem Opens.after {entered after : Session} (opens : Opens session entered)
    (restores : entered.Restores after) : Opens session after where
  outside := opens.outside
  new := by
    rw [restores.function]
    exact opens.new
  header := restores.header.trans opens.header
  entries name isEntry := restores.entries name (opens.entries name isEntry)
  elsewhere := by
    intro name isEntry notMain
    rw [← opens.elsewhere name isEntry notMain]
    apply restores.elsewhere name (opens.entries name isEntry)
    rintro rfl
    exact opens.new isEntry

/-- Entering a function that has no entry yet. -/
theorem opens_enter {name : String} (coherent : session.Coherent)
    (outside : session.function = mainFunction) (new : name ∉ session.table.functions) :
    (session.enter name).Coherent ∧ Opens session (session.enter name) := by
  have notMain : name ≠ mainFunction := by
    rintro rfl
    exact new ((coherent.entries mainFunction).mpr (.inl rfl))
  constructor
  · constructor
    · exact (if_neg notMain).symm
    · intro other
      show other ∈ name :: session.table.functions ↔
        other = mainFunction ∨ other ∈ session.functions.insert name
      rw [List.mem_cons, NameSet.mem_insert, coherent.entries other]
      exact or_left_comm
    · exact List.mem_cons_self
  · constructor
    · exact outside
    · exact new
    · rfl
    · exact fun _ isEntry => List.mem_cons_of_mem name isEntry
    · intro other isEntry _
      apply Variables.of_openFunction
      rintro rfl
      exact new isEntry

/-- The head of a function takes a coherent session into a new function. -/
theorem opens_of_functionHead {value : Unit} {entered : Session} (coherent : session.Coherent)
    (run : functionHead session = .ok value entered) :
    entered.Coherent ∧ Opens session entered := by
  have named : KeepsScope (shift >>= fun _ => identifier) :=
    keepsScope_shift.bind fun _ => keepsScope_inherited.identifier
  simp only [functionHead, get_bind] at run
  split at run
  · contradiction
  · next notActive =>
      rcases bind_eq_ok_iff.mp run with ⟨_, afterKeyword, shifts, run⟩
      rcases bind_eq_ok_iff.mp run with ⟨name, afterName, identifies, run⟩
      rcases named coherent (bind_eq_ok_iff.mpr ⟨_, afterKeyword, shifts, identifies⟩) with
        ⟨coherentName, restores⟩
      rw [get_bind] at run
      split at run
      · contradiction
      · next isNew =>
          cases run
          have outside : afterName.function = mainFunction := by
            apply Decidable.byContradiction
            intro inFunction
            apply notActive
            rw [← restores.active]
            exact coherentName.active_of_function inFunction
          have new : name ∉ afterName.table.functions := by
            rw [coherentName.entries]
            simpa using isNew
          rcases opens_enter coherentName outside new with ⟨coherentEntered, opens⟩
          rcases coherentEntered.write ("void " ++ name ++ "() \x7b" ++ "\n") with
            ⟨coherentWritten, restoresWritten⟩
          exact ⟨coherentWritten, (opens.before restores).after restoresWritten⟩

/-- Leaving a function takes the session back to where the function was opened. -/
theorem restores_leave {body : Session} (coherent : session.Coherent) (coherentBody : body.Coherent)
    (opens : Opens session body) : body.leave.Coherent ∧ session.Restores body.leave := by
  constructor
  · constructor
    · rfl
    · exact coherentBody.entries
    · exact (coherentBody.entries mainFunction).mpr (.inl rfl)
  · constructor
    · rw [coherent.active, if_pos opens.outside]
      rfl
    · exact opens.outside.symm
    · exact opens.header
    · exact opens.entries
    · intro name isEntry other
      rw [opens.outside] at other
      exact opens.elsewhere name isEntry other
    · intro inFunction
      exact absurd opens.outside inFunction

theorem KeepsScope.functionDeclaration (keeps : KeepsScope inner) :
    KeepsScope (functionDeclaration inner) := by
  intro session coherent value after run
  rw [functionDeclaration_eq] at run
  rcases bind_eq_ok_iff.mp run with ⟨_, entered, headRun, rest⟩
  rcases bind_eq_ok_iff.mp rest with ⟨_, body, bodyRun, endRun⟩
  rcases opens_of_functionHead coherent headRun with ⟨coherentEntered, opens⟩
  rcases keepsScope_inherited.blockBody keeps coherentEntered bodyRun with
    ⟨coherentBody, restores⟩
  rcases coherentBody.write ("\x7d" ++ "\n") with ⟨coherentClosed, restoresClosed⟩
  cases endRun
  exact restores_leave coherent coherentClosed ((opens.after restores).after restoresClosed)

theorem keepsScope_statementWithin (depth : Nat) : KeepsScope (statementWithin depth) :=
  keepsScope_inherited.statementWithin (fun _ => .functionDeclaration) depth

theorem keepsScope_statement : KeepsScope statement :=
  keepsScope_inherited.statement fun _ => .functionDeclaration

/-! ## Statements are called in coherent sessions -/

theorem coherent_of_beginsBlock {inside : Session} (coherent : session.Coherent)
    (begins : BeginsBlock session inside) : inside.Coherent := by
  cases begins with
  | function _ enters skips =>
      have coherentEntered := (opens_of_functionHead coherent enters).1
      exact (keepsScope_inherited.lineEnd coherentEntered skips).1
  | conditional _ enters skips =>
      have coherentEntered := (keepsScope_inherited.conditionalHead _ coherent enters).1
      exact (keepsScope_inherited.lineEnd coherentEntered skips).1

end Rule

/-- A pass is coherent in front of its first statement. -/
theorem Session.coherent_openMain {lexer : Lexer} {unit : CUnit} {start : Session}
    (starts : Session.start lexer unit = .ok start) : start.openMain.Coherent := by
  rw [Session.start] at starts
  split at starts
  · contradiction
  · split at starts
    · contradiction
    · cases starts
      constructor
      · exact CUnit.active_write ..
      · intro name
        show name ∈ [mainFunction] ↔ name = mainFunction ∨ name ∈ NameSet.empty
        rw [List.mem_singleton]
        simp only [NameSet.not_mem_empty, or_false]
      · exact List.mem_singleton.mpr rfl

theorem StatementCall.coherent {start session : Session} {depth : Nat}
    (opens : start.openMain.Coherent) (call : StatementCall start depth session) :
    session.Coherent := by
  induction call with
  | ofProgram call =>
      apply call.inProgram
      · exact fun _ _ _ coherent run => (Rule.keepsScope_statement coherent run).1
      · exact fun first skips => (Rule.keepsScope_inherited.skipNewlines opens skips).1
  | ofBlock around call inductionHypothesis =>
      apply call.inStatement
      · exact fun _ _ _ coherent run => (Rule.keepsScope_statementWithin _ coherent run).1
      · exact fun _ begins => Rule.coherent_of_beginsBlock inductionHypothesis begins

/-- Wherever the rule for statements is called in a pass, the session is coherent, and where the
call succeeds it is coherent again, in the same scope. -/
theorem statement_restores_scope {lexer : Lexer} {unit : CUnit} {start session : Session}
    {depth : Nat} (starts : Session.start lexer unit = .ok start)
    (call : StatementCall start depth session) :
    session.Coherent ∧ ∀ value after, Rule.statementWithin depth session = .ok value after →
      after.Coherent ∧ session.Restores after := by
  have coherent := call.coherent (Session.coherent_openMain starts)
  apply And.intro coherent
  intro value after run
  exact Rule.keepsScope_statementWithin depth coherent run

/-- A function with an assignment in it. -/
def assignmentInFunction : String :=
  "fn f\nlet x = 1\nend"

theorem statement_restores_scope_assignmentInFunction :
    ∃ start depth session,
      Session.start (.ofString assignmentInFunction) .empty = .ok start ∧
        StatementCall start depth session ∧ session.function = "f" ∧ session.Coherent ∧
        ∃ after, Rule.statementWithin depth session = .ok () after ∧ after.Coherent ∧
          session.Restores after := by
  have evaluates : ((Session.start (.ofString assignmentInFunction) .empty).toOption.any
      fun start => Rule.skipNewlines.succeedsAt start.openMain fun outer =>
        outer.isAt .fnKeyword && Rule.functionHead.succeedsAt outer fun entered =>
          Rule.lineEnd.succeedsAt entered fun inside =>
            inside.isAt .letKeyword && inside.function == "f" &&
              (Rule.statementWithin (outer.lexer.unread + 1)).succeedsAt inside fun _ => true) =
        true := by
    decide +kernel
  cases starts : Session.start (.ofString assignmentInFunction) .empty with
  | error error =>
      rw [starts] at evaluates
      contradiction
  | ok start =>
      rw [starts] at evaluates
      rcases Rule.exists_of_succeedsAt evaluates with ⟨outer, skips, evaluates⟩
      rcases Bool.and_eq_true_iff.mp evaluates with ⟨atFunction, evaluates⟩
      rcases Rule.exists_of_succeedsAt evaluates with ⟨entered, enters, evaluates⟩
      rcases Rule.exists_of_succeedsAt evaluates with ⟨inside, begins, evaluates⟩
      rcases Bool.and_eq_true_iff.mp evaluates with ⟨found, evaluates⟩
      rcases Bool.and_eq_true_iff.mp found with ⟨atAssignment, inFunction⟩
      rcases Rule.exists_of_succeedsAt evaluates with ⟨after, run, _⟩
      have isKind := Rule.isAt_eq_true_iff.mp atFunction
      have assigns := Rule.isAt_eq_true_iff.mp atAssignment
      have programGoesOn : outer.isAt .endOfInput = false := by
        simp [Session.isAt, Token.is, isKind]
      have bodyGoesOn : (!inside.isAt .endKeyword && !inside.isAt .endOfInput) = true := by
        simp [Session.isAt, Token.is, assigns]
      have call : StatementCall start (outer.lexer.unread + 1) inside := by
        apply StatementCall.ofBlock
        · exact .ofProgram (Rule.callsAt_first_statement skips programGoesOn)
        · exact Rule.callsAt_first_of_function isKind enters begins bodyGoesOn
      rcases statement_restores_scope starts call with ⟨coherent, restores⟩
      exact ⟨start, outer.lexer.unread + 1, inside, rfl, call, eq_of_beq inFunction, coherent,
        after, run, restores () after run⟩

end TeenyC
