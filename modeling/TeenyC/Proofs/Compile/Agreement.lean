import TeenyC.Proofs.Compile.Lockstep
import TeenyC.Proofs.Compile.Program

/-!
# All rules agree

Every grammar rule keeps two sessions in lockstep.  Rules inside a line do so without an
end of the first run in between; only behind a line end can the first run have ended.
-/

namespace TeenyC

open Rule

/-! ## The frame of a program -/

theorem Rule.statement_apply (session : Session) :
    statement session = statementWithin session.remaining session := by
  rw [statement, get_bind]

/-- The lines behind the last statement, and the check of the jumps. -/
def Rule.finish : Rule Summary := do
  writeLine "return 0;"
  writeLine "\x7d"
  let session ← get
  match session.targets.firstNotIn? session.labels with
  | some name => throw (.semantic (.unknownLabel name))
  | none => return ⟨session.functions.names, session.labels.names⟩

/-- The session with the lines behind the last statement. -/
def Session.closeMain (session : Session) : Session :=
  (session.write ("return 0;" ++ "\n")).write ("\x7d" ++ "\n")

theorem Rule.finish_apply (session : Session) :
    finish session =
      match session.targets.firstNotIn? session.labels with
      | some name => .error (.semantic (.unknownLabel name)) session.closeMain
      | none => .ok ⟨session.functions.names, session.labels.names⟩ session.closeMain := by
  have written : finish session =
      (match session.targets.firstNotIn? session.labels with
        | some name => (throw (Error.semantic (.unknownLabel name)) : Rule Summary)
        | none => pure ⟨session.functions.names, session.labels.names⟩) session.closeMain := rfl
  rw [written]
  cases session.targets.firstNotIn? session.labels <;> rfl

/-- The session with the lines in front of the first statement. -/
def Session.openMain (session : Session) : Session :=
  (((session.select .header).write ("#include <stdio.h>" ++ "\n")).select .main).write
    ("int main() \x7b" ++ "\n")

theorem Rule.program_apply (session : Session) :
    program session = (skipNewlines >>= fun _ =>
      repeatWhile (fun there => !stopsProgram there.current.kind) statement >>= fun _ => finish)
        session.openMain := by
  rw [← isAt_stopsProgram]
  rfl

namespace Lockstep

variable {lockstep : Lockstep} {α β : Type} {mayEnd : Prop} {n m : Nat}
  {session other : Session}

/-! ## Rules inside a line -/

/-- The rule keeps sessions in line. -/
def Keeps (lockstep : Lockstep) (rule : Rule α) : Prop :=
  ∀ ⦃n m : Nat⦄ ⦃session other : Session⦄, lockstep.InLine n m session other →
    lockstep.Agrees False (lockstep.InLine n m) (rule session) (rule other)

theorem Keeps.bind {rule : Rule α} {next : α → Rule β} (start : lockstep.Keeps rule)
    (continues : ∀ value, lockstep.Keeps (next value)) : lockstep.Keeps (rule >>= next) := by
  intro n m session other aligned
  apply (start aligned).andThen
  intro value _ _ alignedAfter
  exact continues value alignedAfter

theorem keeps_pure (value : α) : lockstep.Keeps (pure value) :=
  fun _ _ _ _ aligned => agrees_ok aligned

theorem keeps_modify {change : Session → Session}
    (apart : ∀ session place, change (Session.moveTo session place) =
      (change session).moveTo place)
    (stays : ∀ session, (change session).cursor = session.cursor) :
    lockstep.Keeps (modify change) :=
  fun _ _ _ _ aligned => agrees_ok (aligned.update change apart stays)

theorem keeps_write (text : String) : lockstep.Keeps (write text) :=
  keeps_modify (fun _ _ => rfl) fun _ => rfl

theorem keeps_writeLine (text : String) : lockstep.Keeps (writeLine text) :=
  keeps_modify (fun _ _ => rfl) fun _ => rfl

/-- A shift that keeps the bounds. -/
theorem shift_keeps (aligned : lockstep.InLine n m session other)
    (onLine : session.current.kind ≠ .endOfInput ∧ session.current.kind ≠ .newline) :
    lockstep.Agrees False (lockstep.InLine n m) (shift session) (shift other) :=
  (shift_agrees aligned onLine).mono id fun there => there.mono (Nat.sub_le n 1) (Nat.sub_le m 1)

theorem keeps_expect {kind : Kind} (onLine : kind ≠ .endOfInput ∧ kind ≠ .newline) :
    lockstep.Keeps (expect kind) := by
  intro n m session other aligned
  simp only [expect, get_bind, aligned.current_eq]
  split
  · next found =>
      apply shift_keeps aligned
      rwa [found]
  · exact syntactic_agrees aligned rfl

theorem keeps_identifier : lockstep.Keeps identifier := by
  intro n m session other aligned
  simp only [identifier, get_bind, aligned.current_eq]
  exact (keeps_expect (by decide)).bind (fun _ => keeps_pure _) aligned

/-! ## Expressions -/

theorem onLine_of_isSign {kind : Kind} (isSign : kind.isSign = true) :
    kind ≠ .endOfInput ∧ kind ≠ .newline := by
  cases kind <;> simp_all [Kind.isSign]

theorem onLine_of_isScale {kind : Kind} (isScale : kind.isScale = true) :
    kind ≠ .endOfInput ∧ kind ≠ .newline := by
  cases kind <;> simp_all [Kind.isScale]

theorem onLine_of_isComparison {kind : Kind} (compares : kind.isComparison = true) :
    kind ≠ .endOfInput ∧ kind ≠ .newline := by
  cases kind <;> simp_all [Kind.isComparison]

/-- Writing an operator and going past it. -/
theorem binaryOperator_agrees (aligned : lockstep.InLine n m session other)
    (onLine : session.current.kind ≠ .endOfInput ∧ session.current.kind ≠ .newline) :
    lockstep.Agrees False (lockstep.InLine (n - 1) (m - 1)) (binaryOperator session)
      (binaryOperator other) := by
  simp only [binaryOperator, get_bind, write_bind, aligned.current_eq]
  exact shift_agrees (aligned.write _) onLine

theorem keeps_primary : lockstep.Keeps primary := by
  intro n m session other aligned
  simp only [primary, get_bind, aligned.current_eq, aligned.read (·.table) fun _ _ => rfl,
    aligned.read (·.function) fun _ _ => rfl]
  cases here : session.current.kind with
  | number =>
      apply shift_keeps (aligned.write _)
      rw [Session.current_write, here]
      decide
  | identifier =>
      split
      · exact agrees_error trivial
      · apply shift_keeps (aligned.write _)
        rw [Session.current_write, here]
        decide
  | _ => exact syntactic_agrees aligned rfl

theorem keeps_unary : lockstep.Keeps unary := by
  intro n m session other aligned
  simp only [unary, get_bind, isAt_sign_iff, aligned.current_eq]
  split
  · next isSign =>
      exact (shift_keeps (aligned.write _) (onLine_of_isSign isSign)).andThen
        fun there => keeps_primary there
  · exact keeps_primary aligned

/-- Operands with operators of some kinds in front of them. -/
theorem keeps_operators {condition : Session → Bool} {isOperator : Kind → Bool}
    {operand : Rule Unit}
    (atOperator : ∀ {session : Session}, condition session = true ↔
      isOperator session.current.kind = true)
    (operators : ∀ {kind : Kind}, isOperator kind = true → kind ≠ .endOfInput ∧ kind ≠ .newline)
    (keeps : lockstep.Keeps operand) :
    lockstep.Keeps (repeatWhile condition (binaryOperator >>= fun _ => operand)) := by
  intro n m session other aligned
  apply (repeatWhile_agrees _ _ _ aligned).mono id And.left
  · intro session atEnd
    apply Bool.eq_false_iff.mpr
    intro holds
    exact (operators (atOperator.mp holds)).1 atEnd
  · intro session other same
    rw [Bool.eq_iff_iff, atOperator, atOperator, same]
  · intro n m session other _ _ aligned holds
    exact (binaryOperator_agrees aligned (operators (atOperator.mp holds))).andThen
      fun there => keeps there

theorem keeps_term : lockstep.Keeps term :=
  keeps_unary.bind fun _ => keeps_operators isAt_scale_iff onLine_of_isScale keeps_unary

theorem keeps_expression : lockstep.Keeps expression :=
  keeps_term.bind fun _ => keeps_operators isAt_sign_iff onLine_of_isSign keeps_term

theorem keeps_comparison : lockstep.Keeps comparison := by
  refine keeps_expression.bind fun _ => ?_
  intro n m session other aligned
  simp only [get_bind, aligned.current_eq]
  split
  · exact syntactic_agrees aligned rfl
  · exact keeps_operators Iff.rfl onLine_of_isComparison keeps_expression aligned

/-! ## Actions -/

theorem print_agrees (aligned : lockstep.InLine n m session other)
    (here : session.current.kind = .printKeyword) :
    lockstep.Agrees False (lockstep.InLine n m) (printStatement session)
      (printStatement other) := by
  apply (shift_keeps aligned (by rw [here]; decide)).andThen
  intro _ session other aligned
  simp only [get_bind, aligned.current_eq]
  split
  · next isString =>
      apply shift_keeps (aligned.write _)
      rw [Session.current_write, Token.is_eq_true_iff.mp isString]
      decide
  · exact (keeps_write _).bind (fun _ => keeps_expression.bind fun _ => keeps_writeLine _) aligned

theorem call_agrees (aligned : lockstep.InLine n m session other)
    (here : session.current.kind = .identifier) :
    lockstep.Agrees False (lockstep.InLine n m) (callStatement session)
      (callStatement other) := by
  have onLine : session.current.kind ≠ .endOfInput ∧ session.current.kind ≠ .newline := by
    rw [here]
    decide
  simp only [callStatement, get_bind, aligned.current_eq, aligned.lookahead_eq onLine,
    aligned.read (·.functions) fun _ _ => rfl]
  split
  · exact agrees_error trivial
  · exact shift_keeps (aligned.write _) onLine

/-- A keyword and a name, and what is done with the name. -/
theorem named_agrees {next : String → Rule Unit} (keeps : ∀ name, lockstep.Keeps (next name))
    (aligned : lockstep.InLine n m session other)
    (onLine : session.current.kind ≠ .endOfInput ∧ session.current.kind ≠ .newline) :
    lockstep.Agrees False (lockstep.InLine n m) ((shift >>= fun _ => identifier >>= next) session)
      ((shift >>= fun _ => identifier >>= next) other) :=
  (shift_keeps aligned onLine).andThen fun there => keeps_identifier.bind keeps there

theorem label_agrees (aligned : lockstep.InLine n m session other)
    (here : session.current.kind = .labelKeyword) :
    lockstep.Agrees False (lockstep.InLine n m) (labelStatement session)
      (labelStatement other) := by
  refine named_agrees (fun name => ?_) aligned (by rw [here]; decide)
  intro n m session other aligned
  simp only [get_bind, aligned.read (·.labels) fun _ _ => rfl]
  split
  · exact agrees_error trivial
  · apply agrees_ok
    exact (aligned.update (fun there => { there with labels := there.labels.insert name })
      (fun _ _ => rfl) fun _ => rfl).write (name ++ ":;" ++ "\n")

theorem goto_agrees (aligned : lockstep.InLine n m session other)
    (here : session.current.kind = .gotoKeyword) :
    lockstep.Agrees False (lockstep.InLine n m) (gotoStatement session) (gotoStatement other) :=
  named_agrees (fun _ => (keeps_writeLine _).bind fun _ =>
    keeps_modify (fun _ _ => rfl) fun _ => rfl) aligned (by rw [here]; decide)

theorem keeps_declareVariable (name : String) : lockstep.Keeps (declareVariable name) := by
  intro n m session other aligned
  have sameDeclared := aligned.read (fun there => there.table.declares there.function name)
    fun _ _ => rfl
  simp only [declareVariable, get_bind, sameDeclared]
  split
  · apply agrees_ok
    exact (aligned.update
      (fun there => { there with table := there.table.declare there.function name })
      (fun _ _ => rfl) fun _ => rfl).write ("float " ++ name ++ ";" ++ "\n")
  · exact agrees_ok aligned

theorem let_agrees (aligned : lockstep.InLine n m session other)
    (here : session.current.kind = .letKeyword) :
    lockstep.Agrees False (lockstep.InLine n m) (letStatement session) (letStatement other) :=
  named_agrees (fun name => (keeps_declareVariable name).bind fun _ => (keeps_write _).bind fun _ =>
    (keeps_expect (by decide)).bind fun _ => keeps_expression.bind fun _ => keeps_writeLine _)
    aligned (by rw [here]; decide)

theorem input_agrees (aligned : lockstep.InLine n m session other)
    (here : session.current.kind = .inputKeyword) :
    lockstep.Agrees False (lockstep.InLine n m) (inputStatement session) (inputStatement other) :=
  named_agrees (fun name => (keeps_declareVariable name).bind fun _ =>
    (keeps_writeLine _).bind fun _ => (keeps_writeLine _).bind fun _ =>
      (keeps_writeLine _).bind fun _ => keeps_writeLine _) aligned (by rw [here]; decide)

/-! ## Blocks -/

theorem lineEnd_agrees (aligned : lockstep.InLine n m session other) :
    lockstep.Agrees lockstep.goesOn (lockstep.InLine (n - 1) (m - 1)) (lineEnd session)
      (lineEnd other) := by
  have start : lockstep.Agrees False (lockstep.Aligned lockstep.opening (n - 1) (m - 1))
      (expect .newline session) (expect .newline other) := by
    simp only [expect, get_bind, aligned.current_eq]
    split
    · next found =>
        exact shift_agrees_to aligned (by rw [found]; decide)
          fun related => lockstep.line related found
    · exact syntactic_agrees aligned rfl
  exact start.andThen fun opens => skipNewlines_agrees opens

/-- Two rules for statements agree where at most so many tokens are ahead, and go past one
of them at least. -/
def Statements (lockstep : Lockstep) (n m : Nat) (rule otherRule : Rule Unit) : Prop :=
  ∀ ⦃n' m' : Nat⦄ ⦃session other : Session⦄, n' ≤ n → m' ≤ m →
    lockstep.InLine n' m' session other → session.current.kind ≠ .endOfInput →
    lockstep.Agrees lockstep.goesOn (lockstep.InLine (n' - 1) (m' - 1)) (rule session)
      (otherRule other)

variable {inner otherInner : Rule Unit}

/-- Statements up to a token that stops them, which the end of the input does. -/
theorem repeatStatements_agrees {stops : Kind → Bool} (atEnd : stops .endOfInput = true)
    (statements : lockstep.Statements n m inner otherInner)
    (aligned : lockstep.InLine n m session other) :
    lockstep.Agrees lockstep.goesOn
      (fun after otherAfter =>
        lockstep.InLine n m after otherAfter ∧ stops after.current.kind = true)
      (repeatWhile (fun session => !stops session.current.kind) inner session)
      (repeatWhile (fun session => !stops session.current.kind) otherInner other) := by
  apply (repeatWhile_agrees _ _ _ aligned).mono id
  · rintro _ _ ⟨there, stopped⟩
    exact ⟨there, by simpa using stopped⟩
  · intro session here
    rw [here, atEnd]
    rfl
  · intro session other same
    rw [same]
  · intro n' m' session other fewer otherFewer aligned continues
    apply statements fewer otherFewer aligned
    intro here
    rw [here, atEnd] at continues
    contradiction

/-- A body that has come to the end of the input is not closed. -/
theorem unclosed_agrees {post : Session → Session → Prop} (goesOn : lockstep.goesOn)
    (noFault : lockstep.ending = none) (atEnd : session.current.kind = .endOfInput)
    (result : EStateM.Result Error Session Unit) :
    lockstep.Agrees mayEnd post (expect .endKeyword session) result := by
  have fails : expect .endKeyword session =
      .error (.syntactic (.wrongKind .endKeyword .endOfInput)) session := by
    simp only [expect, get_bind, atEnd]
    rfl
  rw [fails]
  exact ⟨fun _ => noFault, .inr ⟨goesOn, .inl rfl⟩⟩

theorem blockBody_agrees (statements : lockstep.Statements (n - 1) (m - 1) inner otherInner)
    (aligned : lockstep.InLine n m session other) :
    lockstep.Agrees False (lockstep.InLine n m) (blockBody inner session)
      (blockBody otherInner other) := by
  simp only [blockBody, isAt_stopsBody]
  apply (lineEnd_agrees aligned).bind
  · intro _ session other aligned
    apply (repeatStatements_agrees rfl statements aligned).bind
    · rintro _ session other ⟨aligned, _⟩
      exact keeps_expect (by decide) (aligned.mono (Nat.sub_le n 1) (Nat.sub_le m 1))
    · intro goesOn noFault _ session atEnd result
      exact unclosed_agrees goesOn noFault atEnd result
  · -- The first text ends with the first line of the block.
    intro goesOn noFault _ session atEnd result
    have stopped : (!stopsBody session.current.kind) = false := by rw [atEnd]; rfl
    rw [bind_apply, repeatWhile_of_not stopped]
    exact unclosed_agrees goesOn noFault atEnd result

theorem functionDeclaration_agrees
    (statements : lockstep.Statements (n - 1) (m - 1) inner otherInner)
    (aligned : lockstep.InLine n m session other) (here : session.current.kind = .fnKeyword) :
    lockstep.Agrees False (lockstep.InLine n m) (functionDeclaration inner session)
      (functionDeclaration otherInner other) := by
  simp only [functionDeclaration, get_bind, aligned.read (·.unit) fun _ _ => rfl]
  split
  · exact agrees_error trivial
  · apply (shift_keeps aligned (by rw [here]; decide)).andThen
    intro _ session other aligned
    apply (keeps_identifier aligned).andThen
    intro name session other aligned
    simp only [get_bind, aligned.read (·.functions) fun _ _ => rfl]
    split
    · exact agrees_error trivial
    · have entered := aligned.update
        (fun there => (there.enter name).write ("void " ++ name ++ "() \x7b" ++ "\n"))
        (fun _ _ => rfl) fun _ => rfl
      simp only [modify_bind, select_bind, writeLine_bind]
      apply (blockBody_agrees statements entered).andThen
      intro _ session other aligned
      apply agrees_ok
      exact aligned.update (fun there => (there.write ("\x7d" ++ "\n")).leave)
        (fun _ _ => rfl) fun _ => rfl

theorem conditionalBlock_agrees (word : String)
    (statements : lockstep.Statements (n - 1) (m - 1) inner otherInner)
    (aligned : lockstep.InLine n m session other)
    (onLine : session.current.kind ≠ .endOfInput ∧ session.current.kind ≠ .newline) :
    lockstep.Agrees False (lockstep.InLine n m) (conditionalBlock word inner session)
      (conditionalBlock word otherInner other) :=
  (shift_keeps aligned onLine).andThen fun aligned =>
    (keeps_expect (by decide) aligned).andThen fun aligned =>
    (keeps_write _ aligned).andThen fun aligned =>
    (keeps_comparison aligned).andThen fun aligned =>
    (keeps_expect (by decide) aligned).andThen fun aligned =>
    (keeps_writeLine _ aligned).andThen fun aligned =>
    (blockBody_agrees statements aligned).andThen fun aligned =>
    keeps_writeLine _ aligned

/-! ## Statements -/

theorem statementOver_agrees
    (statements : lockstep.Statements (n - 1) (m - 1) inner otherInner)
    (aligned : lockstep.InLine n m session other) :
    lockstep.Agrees lockstep.goesOn (lockstep.InLine (n - 1) (m - 1))
      (statementOver inner session) (statementOver otherInner other) := by
  simp only [statementOver, get_bind, aligned.current_eq]
  -- The token that is gone for sure is the line end, which every statement has.
  cases here : session.current.kind with
  | printKeyword => exact (print_agrees aligned here).andThen fun there => lineEnd_agrees there
  | identifier => exact (call_agrees aligned here).andThen fun there => lineEnd_agrees there
  | labelKeyword => exact (label_agrees aligned here).andThen fun there => lineEnd_agrees there
  | gotoKeyword => exact (goto_agrees aligned here).andThen fun there => lineEnd_agrees there
  | letKeyword => exact (let_agrees aligned here).andThen fun there => lineEnd_agrees there
  | inputKeyword => exact (input_agrees aligned here).andThen fun there => lineEnd_agrees there
  | fnKeyword =>
      exact (functionDeclaration_agrees statements aligned here).andThen
        fun there => lineEnd_agrees there
  | ifKeyword | whileKeyword =>
      exact (conditionalBlock_agrees _ statements aligned (by rw [here]; decide)).andThen
        fun there => lineEnd_agrees there
  | _ => exact syntactic_agrees aligned rfl

/-- Bounds on the depth do not matter as long as the tokens ahead are not more. -/
theorem statementWithin_agrees (depth otherDepth : Nat) :
    lockstep.Statements depth otherDepth (statementWithin depth) (statementWithin otherDepth) := by
  induction depth generalizing otherDepth with
  | zero =>
      intro n m session other few _ aligned inside
      have positive := (aligned.bounds_pos inside).1
      omega
  | succ depth inductionHypothesis =>
      intro n m session other few otherFew aligned inside
      have otherPositive := (aligned.bounds_pos inside).2
      obtain ⟨otherDepth, rfl⟩ :=
        Nat.exists_eq_add_one_of_ne_zero (Nat.ne_zero_of_lt (otherPositive.trans_le otherFew))
      apply statementOver_agrees _ aligned
      intro n' m' _ _ fewer otherFewer
      exact inductionHypothesis otherDepth (by omega) (by omega)

theorem statement_agrees (n m : Nat) : lockstep.Statements n m statement statement := by
  intro n' m' session other _ _ aligned inside
  obtain ⟨low, otherLow, fewer, otherFewer, enough, otherEnough, tight⟩ := aligned.tighten
  rw [statement_apply, statement_apply]
  apply (statementWithin_agrees _ _ enough otherEnough tight inside).mono id
  intro _ _ there
  exact there.mono (Nat.sub_le_sub_right fewer 1) (Nat.sub_le_sub_right otherFewer 1)

/-! ## Programs -/

theorem finish_agrees (aligned : lockstep.InLine n m session other)
    (noFault : lockstep.ending = none) :
    lockstep.Agrees mayEnd
      (fun after otherAfter => lockstep.ending = none ∧ otherAfter.unit = after.unit)
      (finish session) (finish other) := by
  rw [finish_apply, finish_apply, aligned.read (·.functions) fun _ _ => rfl,
    aligned.read (·.labels) fun _ _ => rfl, aligned.read (·.targets) fun _ _ => rfl]
  cases session.targets.firstNotIn? session.labels with
  | some name => exact agrees_error noFault
  | none => exact agrees_ok ⟨noFault, aligned.read (·.closeMain.unit) fun _ _ => rfl⟩

/-- Where the first run has ended, its result is a success or can be mended. -/
theorem finish_agrees_of_end {post : Session → Session → Prop} (goesOn : lockstep.goesOn)
    (noFault : lockstep.ending = none) (atEnd : session.current.kind = .endOfInput)
    (result : EStateM.Result Error Session Summary) :
    lockstep.Agrees lockstep.goesOn post (finish session) result := by
  rw [finish_apply]
  cases session.targets.firstNotIn? session.labels with
  | some name => exact ⟨noFault, .inr ⟨goesOn, .inr ⟨name, rfl⟩⟩⟩
  | none => exact .inr ⟨goesOn, noFault, atEnd⟩

theorem program_agrees (aligned : lockstep.Aligned lockstep.opening n m session other) :
    lockstep.Agrees lockstep.goesOn
      (fun after otherAfter => lockstep.ending = none ∧ otherAfter.unit = after.unit)
      (program session) (program other) := by
  have opened := aligned.update Session.openMain (fun _ _ => rfl) fun _ => rfl
  rw [program_apply, program_apply]
  apply (skipNewlines_agrees opened).bind
  · intro _ session other aligned
    apply (repeatStatements_agrees rfl (statement_agrees n m) aligned).bind
    · rintro _ session other ⟨aligned, stopped⟩
      exact finish_agrees aligned (aligned.ending_eq_none (stopsProgram_eq_true_iff.mp stopped))
    · intro goesOn noFault _ session atEnd result
      exact finish_agrees_of_end goesOn noFault atEnd result
  · intro goesOn noFault _ session atEnd result
    have stopped : (!stopsProgram session.current.kind) = false := by rw [atEnd]; rfl
    rw [bind_apply, repeatWhile_of_not stopped]
    exact finish_agrees_of_end goesOn noFault atEnd result

end Lockstep

/-! ## Source texts -/

/-- A pass starts where all that the lexer gives is ahead, unless a fault comes first. -/
theorem Session.start_reaches {lexer : Lexer} {tokens : List Token}
    {ending : Option LexicalError} (drains : lexer.Drains tokens ending) (valid : lexer.Valid)
    (unit : CUnit) :
    (∃ cursor, start lexer unit = .ok (initial cursor unit) ∧
      (initial cursor unit).Sees tokens ending) ∨
    (∃ error, start lexer unit = .error (.lexical error) ∧ ending = some error ∧
      tokens.length < 2) := by
  rcases Cursor.exists_ahead_of_drains drains valid with
    ⟨cursor, heads, ahead⟩ | ⟨error, isFault, short⟩
  · left
    exact ⟨cursor, start_eq_ok_iff.mpr ⟨cursor, heads, rfl⟩, heads.valid valid, ahead⟩
  · right
    refine ⟨error, ?_, isFault, short⟩
    subst isFault
    cases drains with
    | fault fails => rw [start, fails]
    | more read _ rest =>
        cases rest with
        | fault fails => simp only [start, read, fails]
        | more => exact absurd short (by simp only [List.length_cons]; omega)

section Compile

variable {source : String} {session after : Session} {error : Error}

theorem compile_eq_of_start_error
    (fails : Session.start (.ofString source) .empty = .error error) :
    compile source = .error error := by
  simp only [compile, run, fails]

theorem compile_eq_of_program_ok {summary : Summary}
    (starts : Session.start (.ofString source) .empty = .ok session)
    (runs : Rule.program session = .ok summary after) :
    compile source = .ok ⟨after.unit.flatten, summary⟩ := by
  simp only [compile, run, starts, runs]

theorem compile_eq_of_program_error
    (starts : Session.start (.ofString source) .empty = .ok session)
    (fails : Rule.program session = .error error after) : compile source = .error error := by
  simp only [compile, run, starts, fails]

end Compile

namespace Lockstep

/-- What the compilation of one source text says about the compilation of another one that is
in lockstep with it. -/
structure Foretells (lockstep : Lockstep) (source other : String) : Prop where
  ofOk : ∀ ⦃artifact : Artifact⦄, compile source = .ok artifact →
    lockstep.ending = none ∧ (compile other = .ok artifact ∨ lockstep.goesOn)
  ofError : ∀ ⦃error : Error⦄, compile source = .error error →
    error.Fits lockstep.ending ∧
      (compile other = .error error ∨ (lockstep.goesOn ∧ error.Tentative))

variable {lockstep : Lockstep} {source other : String} {tokens others : List Token} {n m : Nat}
  {session otherSession : Session}

theorem foretells_of_error {error : Error} (fails : compile source = .error error)
    (fits : error.Fits lockstep.ending)
    (same : compile other = .error error ∨ (lockstep.goesOn ∧ error.Tentative)) :
    lockstep.Foretells source other where
  ofOk artifact compiles := by
    rw [fails] at compiles
    cases compiles
  ofError error failsSo := by
    rw [fails] at failsSo
    cases failsSo
    exact ⟨fits, same⟩

/-- Passes that start in lockstep. -/
theorem foretells_of_starts
    (starts : Session.start (.ofString source) .empty = .ok session)
    (otherStarts : Session.start (.ofString other) .empty = .ok otherSession)
    (aligned : lockstep.Aligned lockstep.opening n m session otherSession) :
    lockstep.Foretells source other := by
  have agrees := program_agrees aligned
  cases runs : program session with
  | ok summary after =>
      rw [runs] at agrees
      have compiles := compile_eq_of_program_ok starts runs
      constructor
      · intro artifact compilesTo
        rw [compiles] at compilesTo
        cases compilesTo
        rcases agrees with ⟨otherAfter, otherRuns, noFault, sameUnit⟩ | ⟨goesOn, noFault, _⟩
        · rw [compile_eq_of_program_ok otherStarts otherRuns, sameUnit]
          exact ⟨noFault, .inl rfl⟩
        · exact ⟨noFault, .inr goesOn⟩
      · intro error fails
        rw [compiles] at fails
        cases fails
  | error error after =>
      rw [runs] at agrees
      rcases agrees with ⟨fits, ⟨otherAfter, otherFails⟩ | excused⟩
      · exact foretells_of_error (compile_eq_of_program_error starts runs) fits
          (.inl (compile_eq_of_program_error otherStarts otherFails))
      · exact foretells_of_error (compile_eq_of_program_error starts runs) fits (.inr excused)

/-- Source texts whose tokens are in lockstep. -/
theorem foretells_of_drains (lockstep : Lockstep)
    (drains : (Lexer.ofString source).Drains tokens lockstep.ending)
    (otherDrains : (Lexer.ofString other).Drains others lockstep.otherEnding)
    (related : lockstep.opening tokens others) : lockstep.Foretells source other := by
  have sameFaults : (lockstep.ending = none ∧ lockstep.otherEnding = none) ∨
      (lockstep.ending = lockstep.otherEnding ∧ tokens = others) := by
    rcases lockstep.faults with noFaults | ⟨_, same, equal, _⟩
    · exact .inl noFaults
    · exact .inr ⟨same, equal related⟩
  have begins := Session.start_reaches drains (Lexer.valid_ofString source) .empty
  have otherBegins := Session.start_reaches otherDrains (Lexer.valid_ofString other) .empty
  rcases begins with ⟨cursor, starts, sees⟩ | ⟨error, fails, isFault, short⟩
  · rcases otherBegins with ⟨otherCursor, otherStarts, otherSees⟩ | ⟨error, _, isFault, short⟩
    · exact foretells_of_starts starts otherStarts
        ⟨⟨tokens, others, sees, otherSees, related, Nat.le_refl _, Nat.le_refl _⟩, rfl⟩
    · rcases sameFaults with ⟨_, noFault⟩ | ⟨same, rfl⟩
      · rw [noFault] at isFault
        cases isFault
      · have two := sees.ahead.two_le_length (same.trans isFault)
        omega
  · rcases sameFaults with ⟨noFault, _⟩ | ⟨same, rfl⟩
    · rw [noFault] at isFault
      cases isFault
    · rcases otherBegins with
        ⟨otherCursor, _, otherSees⟩ | ⟨otherError, otherFails, otherFault, _⟩
      · have two := otherSees.ahead.two_le_length (same.symm.trans isFault)
        omega
      · obtain rfl : error = otherError := by
          rw [← same, isFault] at otherFault
          exact Option.some.inj otherFault
        exact foretells_of_error (compile_eq_of_start_error fails) isFault
          (.inl (compile_eq_of_start_error otherFails))

end Lockstep

end TeenyC
