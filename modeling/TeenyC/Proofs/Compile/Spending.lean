import TeenyC.Proofs.Compile.Parts
import TeenyC.Proofs.Token.Boundary

/-!
# Spending tokens

The end of the input comes as often as it is asked for, so a rule that went past it could go on
for ever.  No rule does: whatever a rule goes past is a token of the program.  It spends these
tokens, and how many of them it spends at least is added up along the parts of the rule.

A run that fails spends tokens too, up to the one that the fault is found at.  If the fault is a
lexical one, the last token is not passed, but the lexer was asked for another one there.
-/

namespace TeenyC

/-! ## Asking for tokens -/

namespace Cursor

/-- The cursor after asking for one more token.  Where a fault comes instead, the two tokens that
are there stay. -/
def forward (cursor : Cursor) : Cursor :=
  match cursor.lexer.next with
  | .ok token lexer => ⟨lexer, cursor.lookahead, token⟩
  | .error _ lexer => { cursor with lexer }

/-- Asking for one more token while these are the current tokens, one after the other, leads from
one cursor to the other. -/
inductive AsksAt : Cursor → List Token → Cursor → Prop
  | none (cursor : Cursor) : AsksAt cursor [] cursor
  | one {cursor target : Cursor} {others : List Token}
      (rest : AsksAt cursor.forward others target) :
      AsksAt cursor (cursor.current :: others) target

variable {cursor middle target : Cursor} {first second asked tokens : List Token}

theorem AsksAt.trans (toMiddle : cursor.AsksAt first middle)
    (toTarget : middle.AsksAt second target) : cursor.AsksAt (first ++ second) target := by
  induction toMiddle with
  | none => exact toTarget
  | one _ inductionHypothesis => exact .one (inductionHypothesis toTarget)

/-- Going past tokens is asking at each of them. -/
theorem Passes.asksAt (passes : cursor.Passes tokens target) : cursor.AsksAt tokens target := by
  induction passes with
  | none => exact .none _
  | one read _ inductionHypothesis =>
      apply AsksAt.one
      rwa [forward, read]

/-- The lexer has been asked as often as there are tokens. -/
theorem AsksAt.lexer_eq (asks : cursor.AsksAt asked target) :
    target.lexer = cursor.lexer.performAll (List.replicate asked.length .next) := by
  induction asks with
  | none => rfl
  | @one cursor target others _ inductionHypothesis =>
      have forwardLexer : cursor.forward.lexer = cursor.lexer.afterNext := by
        rw [forward, Lexer.afterNext]
        cases cursor.lexer.next <;> rfl
      rw [inductionHypothesis, forwardLexer]
      rfl

/-- There is no more to ask at than the tokens ahead of the cursor. -/
theorem AsksAt.length_le (asks : cursor.AsksAt asked target)
    (inside : ∀ token ∈ asked, token.kind ≠ .endOfInput)
    (ahead : cursor.Ahead tokens Option.none) : asked.length ≤ tokens.length := by
  induction asks generalizing tokens with
  | none => exact Nat.zero_le _
  | @one cursor target others _ inductionHypothesis =>
      obtain ⟨here, later⟩ := List.forall_mem_cons.mp inside
      cases ahead with
      | ended isEnd => exact absurd isEnd here
      | more _ read rest =>
          rw [forward, read] at inductionHypothesis
          exact Nat.succ_le_succ (inductionHypothesis later rest)

end Cursor

/-! ## Runs that spend tokens -/

namespace Rule

/-- The session that a rule leaves behind, whether it succeeds or fails. -/
def leaves {α : Type} (rule : Rule α) (session : Session) : Session :=
  match rule session with
  | .ok _ after | .error _ after => after

/-- Whether it succeeds or fails, the rule asks for tokens at tokens of the program only. -/
def AsksInside {α : Type} (rule : Rule α) (session : Session) : Prop :=
  ∃ asked, session.cursor.AsksAt asked (rule.leaves session).cursor ∧
    ∀ token ∈ asked, token.kind ≠ .endOfInput

end Rule

namespace Session

variable {α β : Type} {session after : Session} {result : EStateM.Result Error Session α}
  {n m : Nat}

/-- The result of a run from the session: the run has gone past tokens of the program and no
others, at least so many of them if it succeeds. -/
def Spends (session : Session) (least : Nat) : EStateM.Result Error Session α → Prop
  | .ok _ after =>
    ∃ passed, session.cursor.Passes passed after.cursor ∧
      (∀ token ∈ passed, token.kind ≠ .endOfInput) ∧ least ≤ passed.length
  | .error _ after =>
    ∃ asked, session.cursor.AsksAt asked after.cursor ∧ ∀ token ∈ asked, token.kind ≠ .endOfInput

/-- A run that has nothing to do with tokens. -/
theorem spends_of_cursor_eq (value : α) (stays : after.cursor = session.cursor) :
    session.Spends 0 (.ok value after) := by
  refine ⟨[], ?_, nofun, Nat.le_refl 0⟩
  rw [stays]
  exact .none _

theorem spends_ok (session : Session) (value : α) : session.Spends 0 (.ok value session) :=
  spends_of_cursor_eq value rfl

theorem spends_error (error : Error) :
    session.Spends n (.error error session : EStateM.Result Error Session α) :=
  ⟨[], .none _, nofun⟩

theorem Spends.any (spends : session.Spends n result) : session.Spends 0 result := by
  cases result with
  | ok value after =>
      obtain ⟨passed, passes, inside, _⟩ := spends
      exact ⟨passed, passes, inside, Nat.zero_le _⟩
  | error error after => exact spends

/-- What the parts of a rule spend adds up. -/
theorem Spends.bind {rule : Rule α} {next : α → Rule β} (first : session.Spends n (rule session))
    (second : ∀ value (middle : Session), middle.Spends m (next value middle)) :
    session.Spends (n + m) ((rule >>= next) session) := by
  rw [Rule.bind_apply]
  cases run : rule session with
  | error error after =>
      rw [run] at first
      exact first
  | ok value middle =>
      rw [run] at first
      obtain ⟨passed, passes, inside, enough⟩ := first
      have others := second value middle
      dsimp only
      cases rest : next value middle with
      | ok result after =>
          rw [rest] at others
          obtain ⟨more, passesMore, insideMore, enoughMore⟩ := others
          refine ⟨passed ++ more, passes.trans passesMore, ?_, ?_⟩
          · exact List.forall_mem_append.mpr ⟨inside, insideMore⟩
          · rw [List.length_append]
            exact Nat.add_le_add enough enoughMore
      | error error after =>
          rw [rest] at others
          obtain ⟨more, asksMore, insideMore⟩ := others
          exact ⟨passed ++ more, passes.asksAt.trans asksMore,
            List.forall_mem_append.mpr ⟨inside, insideMore⟩⟩

/-- A sequence spends what its first part does. -/
theorem Spends.andThen {rule : Rule α} {next : α → Rule β}
    (first : session.Spends n (rule session))
    (second : ∀ value (middle : Session), middle.Spends 0 (next value middle)) :
    session.Spends n ((rule >>= next) session) :=
  first.bind second

theorem Spends.asksInside {rule : Rule α} (spends : session.Spends n (rule session)) :
    rule.AsksInside session := by
  rw [Rule.AsksInside, Rule.leaves]
  cases run : rule session with
  | ok value after =>
      rw [run] at spends
      obtain ⟨passed, passes, inside, _⟩ := spends
      exact ⟨passed, passes.asksAt, inside⟩
  | error error after =>
      rw [run] at spends
      exact spends

theorem Spends.of_ok {rule : Rule α} {value : α} (spends : session.Spends n (rule session))
    (run : rule session = .ok value after) :
    session.Spends n (.ok value after : EStateM.Result Error Session α) := by
  rwa [run] at spends

/-- The tokens that a run has spent are no longer ahead. -/
theorem Spends.lighter {value : α} (spends : session.Spends n (.ok value after))
    (valid : session.Valid) : after.Valid ∧ after.weight + n ≤ session.weight := by
  obtain ⟨passed, passes, inside, enough⟩ := spends
  have weights := passes.weight_le valid
  rw [List.countP_eq_length.mpr fun token isIn => decide_eq_true (inside token isIn)] at weights
  exact ⟨passes.valid valid, (Nat.add_le_add_left enough _).trans weights⟩

theorem Spends.valid {value : α} (spends : session.Spends n (.ok value after))
    (valid : session.Valid) : after.Valid :=
  (spends.lighter valid).1

end Session

namespace Rule

variable {session : Session} {inner : Rule Unit}

theorem modify_spends {change : Session → Session}
    (stays : ∀ session, (change session).cursor = session.cursor) (session : Session) :
    session.Spends 0 ((modify change : Rule PUnit) session) :=
  Session.spends_of_cursor_eq _ (stays session)

theorem write_spends (text : String) (session : Session) :
    session.Spends 0 (write text session) :=
  modify_spends (fun _ => rfl) session

theorem writeLine_spends (text : String) (session : Session) :
    session.Spends 0 (writeLine text session) :=
  modify_spends (fun _ => rfl) session

/-! ## Tokens and repetition -/

theorem shift_spends (inside : session.current.kind ≠ .endOfInput) :
    session.Spends 1 (shift session) := by
  have onlyCurrent : ∀ token ∈ [session.current], token.kind ≠ .endOfInput :=
    List.forall_mem_singleton.mpr inside
  rw [shift]
  cases read : session.lexer.next with
  | ok token lexer =>
      exact ⟨[session.current], .one read (.none _), onlyCurrent, Nat.le_refl 1⟩
  | error error lexer =>
      refine ⟨[session.current], .one ?_, onlyCurrent⟩
      have stays : session.cursor.forward = { session.cursor with lexer } := by
        rw [Cursor.forward, show session.cursor.lexer = session.lexer from rfl, read]
      rw [stays]
      exact .none _

theorem expect_spends {kind : Kind} (inside : kind ≠ .endOfInput) (session : Session) :
    session.Spends 1 (expect kind session) := by
  simp only [expect, get_bind]
  split
  · next found => exact shift_spends (by rwa [found])
  · exact session.spends_error _

theorem identifier_spends (session : Session) : session.Spends 1 (identifier session) := by
  simp only [identifier, get_bind]
  exact (expect_spends (by decide) session).andThen fun _ middle => middle.spends_ok _

/-- A loop spends tokens of the program only, if what is repeated does so while the loop goes on. -/
theorem repeatWhile_spends {condition : Session → Bool} {rule : Rule Unit}
    (spends : ∀ session, condition session = true → session.Spends 0 (rule session))
    (session : Session) : session.Spends 0 (repeatWhile condition rule session) := by
  rw [repeatWhile, get_bind]
  generalize session.remaining = bound
  induction bound generalizing session with
  | zero => exact session.spends_ok ()
  | succ bound inductionHypothesis =>
      rw [repeatAtMost_succ]
      split
      · next holds =>
          exact (spends session holds).andThen fun _ middle => inductionHypothesis middle
      · exact session.spends_ok ()

theorem newline_spends (session : Session) (atNewline : session.isAt .newline = true) :
    session.Spends 1 (shift session) := by
  apply shift_spends
  rw [isAt_eq_true_iff.mp atNewline]
  decide

theorem skipNewlines_spends (session : Session) : session.Spends 0 (skipNewlines session) :=
  repeatWhile_spends (fun there atNewline => (newline_spends there atNewline).any) session

theorem lineEnd_spends (session : Session) : session.Spends 1 (lineEnd session) :=
  (expect_spends (by decide) session).andThen fun _ middle => skipNewlines_spends middle

/-! ## Expressions -/

theorem binaryOperator_spends (inside : session.current.kind ≠ .endOfInput) :
    session.Spends 1 (binaryOperator session) :=
  @shift_spends (session.write _) inside

theorem primary_spends (session : Session) : session.Spends 1 (primary session) := by
  have operand (inside : session.current.kind ≠ .endOfInput) :
      session.Spends 1 ((write session.current.text >>= fun _ => shift) session) :=
    @shift_spends (session.write _) inside
  simp only [primary, get_bind]
  cases here : session.current.kind with
  | number => exact operand (by rw [here]; decide)
  | identifier =>
      split
      · exact session.spends_error _
      · exact operand (by rw [here]; decide)
  | _ => exact session.spends_error _

theorem unary_spends (session : Session) : session.Spends 1 (unary session) := by
  simp only [unary, get_bind, isAt_sign_iff]
  split
  · next isSign =>
      have signed := @shift_spends (session.write session.current.text)
        (Lockstep.onLine_of_isSign isSign).1
      exact signed.andThen fun _ middle => (primary_spends middle).any
  · exact primary_spends session

/-- An operator and the operand behind it. -/
theorem operator_spends {operand : Rule Unit}
    (spends : ∀ session : Session, session.Spends 1 (operand session))
    (inside : session.current.kind ≠ .endOfInput) :
    session.Spends 1 ((binaryOperator >>= fun _ => operand) session) :=
  (binaryOperator_spends inside).andThen fun _ middle => (spends middle).any

theorem factor_spends (session : Session)
    (atScale : (session.isAt .times || session.isAt .divide) = true) :
    session.Spends 1 ((binaryOperator >>= fun _ => unary) session) :=
  operator_spends unary_spends (Lockstep.onLine_of_isScale (isAt_scale_iff.mp atScale)).1

theorem term_spends (session : Session) : session.Spends 1 (term session) :=
  (unary_spends session).andThen fun _ middle =>
    repeatWhile_spends (fun there atScale => (factor_spends there atScale).any) middle

theorem summand_spends (session : Session)
    (atSign : (session.isAt .plus || session.isAt .minus) = true) :
    session.Spends 1 ((binaryOperator >>= fun _ => term) session) :=
  operator_spends term_spends (Lockstep.onLine_of_isSign (isAt_sign_iff.mp atSign)).1

theorem expression_spends (session : Session) : session.Spends 1 (expression session) :=
  (term_spends session).andThen fun _ middle =>
    repeatWhile_spends (fun there atSign => (summand_spends there atSign).any) middle

theorem comparand_spends (session : Session) (compares : session.current.kind.isComparison = true) :
    session.Spends 1 ((binaryOperator >>= fun _ => expression) session) :=
  operator_spends expression_spends (Lockstep.onLine_of_isComparison compares).1

theorem comparison_spends (session : Session) : session.Spends 1 (comparison session) := by
  refine (expression_spends session).andThen fun _ middle => ?_
  simp only [get_bind]
  split
  · exact middle.spends_error _
  · exact repeatWhile_spends (fun there compares => (comparand_spends there compares).any) middle

/-! ## Statements without blocks -/

theorem printStatement_spends (inside : session.current.kind ≠ .endOfInput) :
    session.Spends 1 (printStatement session) := by
  refine (shift_spends inside).andThen fun _ middle => ?_
  simp only [get_bind]
  split
  · next isString =>
      have insideString : middle.current.kind ≠ .endOfInput := by
        rw [Token.is_eq_true_iff.mp isString]
        decide
      exact (@shift_spends (middle.write _) insideString).any
  · exact (write_spends _ middle).andThen fun _ opened =>
      (expression_spends opened).any.andThen fun _ last => writeLine_spends _ last

theorem callStatement_spends (inside : session.current.kind ≠ .endOfInput) :
    session.Spends 1 (callStatement session) := by
  simp only [callStatement, get_bind]
  split
  · exact session.spends_error _
  · exact @shift_spends (session.write _) inside

/-- A keyword and a name, and what is done with the name. -/
theorem named_spends {α : Type} {next : String → Rule α}
    (inside : session.current.kind ≠ .endOfInput)
    (spends : ∀ name (middle : Session), middle.Spends 0 (next name middle)) :
    session.Spends 1 ((shift >>= fun _ => identifier >>= next) session) :=
  (shift_spends inside).andThen fun _ middle => (identifier_spends middle).any.andThen spends

theorem labelStatement_spends (inside : session.current.kind ≠ .endOfInput) :
    session.Spends 1 (labelStatement session) := by
  refine named_spends inside fun name middle => ?_
  simp only [get_bind]
  split
  · exact middle.spends_error _
  · exact (modify_spends (fun _ => rfl) middle).andThen fun _ last =>
      writeLine_spends (name ++ ":;") last

theorem gotoStatement_spends (inside : session.current.kind ≠ .endOfInput) :
    session.Spends 1 (gotoStatement session) :=
  named_spends inside fun _ middle =>
    (writeLine_spends _ middle).andThen fun _ last => modify_spends (fun _ => rfl) last

theorem declareVariable_spends (name : String) (session : Session) :
    session.Spends 0 (declareVariable name session) := by
  simp only [declareVariable, get_bind]
  split
  · exact Session.spends_of_cursor_eq _ rfl
  · exact session.spends_ok ()

theorem letStatement_spends (inside : session.current.kind ≠ .endOfInput) :
    session.Spends 1 (letStatement session) :=
  named_spends inside fun name middle =>
    (declareVariable_spends name middle).andThen fun _ declared =>
    (write_spends _ declared).andThen fun _ assigned =>
    (expect_spends (by decide) assigned).any.andThen fun _ atValue =>
    (expression_spends atValue).any.andThen fun _ last => writeLine_spends _ last

theorem inputStatement_spends (inside : session.current.kind ≠ .endOfInput) :
    session.Spends 1 (inputStatement session) :=
  named_spends inside fun name middle =>
    (declareVariable_spends name middle).andThen fun _ declared =>
    (writeLine_spends _ declared).andThen fun _ opened =>
    (writeLine_spends _ opened).andThen fun _ cleared =>
    (writeLine_spends _ cleared).andThen fun _ last => writeLine_spends _ last

/-! ## Blocks -/

theorem blockBody_spends (ofInner : ∀ session : Session, session.Spends 0 (inner session))
    (session : Session) : session.Spends 1 (blockBody inner session) :=
  (lineEnd_spends session).andThen fun _ middle =>
    (repeatWhile_spends (fun there _ => ofInner there) middle).andThen fun _ last =>
      (expect_spends (by decide) last).any

theorem functionHead_spends (inside : session.current.kind ≠ .endOfInput) :
    session.Spends 1 (functionHead session) := by
  simp only [functionHead, get_bind]
  split
  · exact session.spends_error _
  · refine named_spends inside fun name middle => ?_
    simp only [get_bind]
    split
    · exact middle.spends_error _
    · exact modify_spends (fun _ => rfl) middle

theorem conditionalHead_spends (word : String) (inside : session.current.kind ≠ .endOfInput) :
    session.Spends 1 (conditionalHead word session) :=
  (shift_spends inside).andThen fun _ middle =>
    (expect_spends (by decide) middle).any.andThen fun _ opened =>
    (write_spends _ opened).andThen fun _ atCondition =>
    (comparison_spends atCondition).any.andThen fun _ compared =>
    (expect_spends (by decide) compared).any.andThen fun _ closed => writeLine_spends _ closed

theorem functionDeclaration_spends (inside : session.current.kind ≠ .endOfInput)
    (ofInner : ∀ session : Session, session.Spends 0 (inner session)) :
    session.Spends 1 (functionDeclaration inner session) := by
  rw [functionDeclaration_eq]
  exact (functionHead_spends inside).andThen fun _ entered =>
    (blockBody_spends ofInner entered).any.andThen fun _ last => modify_spends (fun _ => rfl) last

theorem conditionalBlock_spends (word : String) (inside : session.current.kind ≠ .endOfInput)
    (ofInner : ∀ session : Session, session.Spends 0 (inner session)) :
    session.Spends 1 (conditionalBlock word inner session) := by
  rw [conditionalBlock_eq]
  exact (conditionalHead_spends word inside).andThen fun _ entered =>
    (blockBody_spends ofInner entered).any.andThen fun _ last => writeLine_spends _ last

/-! ## Statements and programs -/

theorem unendedStatement_spends (ofInner : ∀ session : Session, session.Spends 0 (inner session))
    (session : Session) : session.Spends 1 (unendedStatement inner session) := by
  rw [unendedStatement, get_bind]
  have inside {kind : Kind} (here : session.current.kind = kind) (notEnd : kind ≠ .endOfInput) :
      session.current.kind ≠ .endOfInput := by
    rwa [here]
  cases here : session.current.kind with
  | printKeyword => exact printStatement_spends (inside here (by decide))
  | identifier => exact callStatement_spends (inside here (by decide))
  | fnKeyword => exact functionDeclaration_spends (inside here (by decide)) ofInner
  | ifKeyword | whileKeyword => exact conditionalBlock_spends _ (inside here (by decide)) ofInner
  | labelKeyword => exact labelStatement_spends (inside here (by decide))
  | gotoKeyword => exact gotoStatement_spends (inside here (by decide))
  | letKeyword => exact letStatement_spends (inside here (by decide))
  | inputKeyword => exact inputStatement_spends (inside here (by decide))
  | _ => exact session.spends_error _

/-- A statement goes past the token that it starts with and past its line end. -/
theorem statementOver_spends (ofInner : ∀ session : Session, session.Spends 0 (inner session))
    (session : Session) : session.Spends 2 (statementOver inner session) := by
  rw [statementOver_eq]
  exact (unendedStatement_spends ofInner session).bind fun _ middle => lineEnd_spends middle

theorem statementWithin_spends (depth : Nat) (session : Session) :
    session.Spends 0 (statementWithin depth session) := by
  induction depth generalizing session with
  | zero => exact session.spends_ok ()
  | succ depth inductionHypothesis => exact (statementOver_spends inductionHypothesis session).any

theorem statement_spends (session : Session) : session.Spends 2 (statement session) := by
  rw [statement_apply]
  exact statementOver_spends (statementWithin_spends _) session

theorem statement_spends_any (session : Session) : session.Spends 0 (statement session) :=
  (statement_spends session).any

theorem program_spends (session : Session) : session.Spends 0 (program session) := by
  rw [program_eq]
  refine (skipNewlines_spends session.openMain).andThen fun _ middle => ?_
  refine (repeatWhile_spends (fun there _ => statement_spends_any there) middle).andThen
    fun _ last => ?_
  rw [finish_apply]
  split
  · exact ⟨[], .none _, nofun⟩
  · exact Session.spends_of_cursor_eq _ rfl

end Rule

end TeenyC
