import TeenyC.Proofs.AfterFault
import TeenyC.Proofs.Compile.Nesting
import TeenyC.Proofs.Compile.Program
import TeenyC.Proofs.DrainingEnds
import TeenyC.Proofs.Token.Answers

/-!
# Progress

A pass over a program comes to an end.  All that can be repeated in it is a loop of the grammar
or a statement in a block of another one.  A loop goes on at tokens of the program only, and goes
past one at least each time, while the end of the input stops it; and a block goes past its head
before its first statement.  Neither the loops nor the blocks need the bounds that they have.

No token is asked for when the end of the input is the current one, so the lexer of a pass is
asked for one token more than there are, at most.
-/

namespace TeenyC

/-! ## Loops -/

namespace Rule

/-- The loops of the grammar. -/
inductive Loop where
  | lineEnds
  | factors
  | summands
  | comparands
  | blockStatements
  | programStatements

namespace Loop

/-- Whether the loop goes on. -/
def condition : Loop → Session → Bool
  | lineEnds, session => session.isAt .newline
  | factors, session => session.isAt .times || session.isAt .divide
  | summands, session => session.isAt .plus || session.isAt .minus
  | comparands, session => session.current.kind.isComparison
  | blockStatements, session => !session.isAt .endKeyword && !session.isAt .endOfInput
  | programStatements, session => !session.isAt .endOfInput

/-- What the loop repeats. -/
def body : Loop → Rule Unit
  | lineEnds => shift
  | factors => binaryOperator >>= fun _ => unary
  | summands => binaryOperator >>= fun _ => term
  | comparands => binaryOperator >>= fun _ => expression
  | blockStatements | programStatements => statement

/-- The loop comes to an end with this result, with no bound on it. -/
def Ends (loop : Loop) : Session → EStateM.Result Error Session Unit → Prop :=
  Rule.Ends loop.condition loop.body

variable {session : Session}

/-- A loop does not go on at the end of the input. -/
theorem stops (loop : Loop) (atEnd : session.current.kind = .endOfInput) :
    loop.condition session = false := by
  cases loop with
  | comparands =>
      rw [condition, atEnd]
      rfl
  | _ => simp [condition, Session.isAt, Token.is, atEnd]

/-- Where a loop goes on, it goes past a token of the program. -/
theorem spends (loop : Loop) (holds : loop.condition session = true) :
    ∃ n, 0 < n ∧ session.Spends n (loop.body session) := by
  cases loop with
  | lineEnds => exact ⟨1, Nat.one_pos, newline_spends session holds⟩
  | factors => exact ⟨1, Nat.one_pos, factor_spends session holds⟩
  | summands => exact ⟨1, Nat.one_pos, summand_spends session holds⟩
  | comparands => exact ⟨1, Nat.one_pos, comparand_spends session holds⟩
  | blockStatements => exact ⟨2, Nat.two_pos, statement_spends session⟩
  | programStatements => exact ⟨2, Nat.two_pos, statement_spends session⟩

theorem progresses (loop : Loop) : Progresses Session.Valid loop.condition loop.body where
  stops _ atEnd := loop.stops atEnd
  moves session after value valid holds run := by
    obtain ⟨n, positive, spends⟩ := loop.spends holds
    obtain ⟨validAfter, lighter⟩ := (spends.of_ok run).lighter valid
    exact ⟨validAfter, by omega⟩

theorem ends (loop : Loop) (valid : session.Valid) :
    loop.Ends session (repeatWhile loop.condition loop.body session) :=
  loop.progresses.ends valid

end Loop

/-- What comes of a result if the rule goes on from it.  A failure stays. -/
def goOn {α β : Type} (next : Rule β) :
    EStateM.Result Error Session α → EStateM.Result Error Session β
  | .ok _ after => next after
  | .error error after => .error error after

theorem bind_eq_goOn {α β : Type} (rule : Rule α) (next : Rule β) (session : Session) :
    (rule >>= fun _ => next) session = next.goOn (rule session) := by
  rw [bind_apply]
  cases rule session <;> rfl

end Rule

namespace Session

open Rule (Loop)

variable {session : Session}

/-- The rules with loops, called here, have the results of loops without a bound. -/
structure LoopsEnd (session : Session) : Prop where
  lineEnds : Loop.lineEnds.Ends session (Rule.skipNewlines session)
  factors : ∀ first, Rule.unary session = .ok () first → Loop.factors.Ends first (Rule.term session)
  summands : ∀ first, Rule.term session = .ok () first →
    Loop.summands.Ends first (Rule.expression session)
  comparands : ∀ first, Rule.expression session = .ok () first →
    first.current.kind.isComparison = true → Loop.comparands.Ends first (Rule.comparison session)
  blockStatements : ∀ first, Rule.lineEnd session = .ok () first →
    ∃ result, Loop.blockStatements.Ends first result ∧
      Rule.blockBody Rule.statement session = (Rule.expect .endKeyword).goOn result
  programStatements : ∀ first, Rule.skipNewlines session.openMain = .ok () first →
    ∃ result, Loop.programStatements.Ends first result ∧
      Rule.program session = Rule.finish.goOn result

theorem Valid.loopsEnd (valid : session.Valid) : session.LoopsEnd where
  lineEnds := Loop.lineEnds.ends valid
  factors first run := by
    have validFirst := ((Rule.unary_spends session).of_ok run).valid valid
    rw [Rule.term, Rule.bind_apply, run]
    exact Loop.factors.ends validFirst
  summands first run := by
    have validFirst := ((Rule.term_spends session).of_ok run).valid valid
    rw [Rule.expression, Rule.bind_apply, run]
    exact Loop.summands.ends validFirst
  comparands first run compares := by
    have validFirst := ((Rule.expression_spends session).of_ok run).valid valid
    rw [Rule.comparison, Rule.bind_apply, run]
    simp only [Rule.get_bind, compares, Bool.not_true, Bool.false_eq_true, if_false]
    exact Loop.comparands.ends validFirst
  blockStatements first run := by
    have validFirst := ((Rule.lineEnd_spends session).of_ok run).valid valid
    refine ⟨_, Loop.blockStatements.ends validFirst, ?_⟩
    rw [Rule.blockBody, Rule.bind_apply, run]
    exact Rule.bind_eq_goOn ..
  programStatements first run := by
    have validOpen : session.openMain.Valid := valid
    have validFirst := ((Rule.skipNewlines_spends session.openMain).of_ok run).valid validOpen
    refine ⟨_, Loop.programStatements.ends validFirst, ?_⟩
    rw [Rule.program_eq, Rule.programOver, Rule.programBody, Rule.bind_apply, run]
    exact Rule.bind_eq_goOn ..

end Session

/-! ## No rule goes past the end of the input -/

namespace Rule

/-- The rules that are called at any token. -/
def calledAnywhere : List (Rule Unit) :=
  [statement, blockBody statement, comparison, expression, term, unary, primary, lineEnd,
    skipNewlines]

/-- The rules that are called where their first token has been seen. -/
def calledAtToken : List (Rule Unit) :=
  [printStatement, callStatement, functionDeclaration statement, conditionalBlock "if" statement,
    conditionalBlock "while" statement, labelStatement, gotoStatement, letStatement,
    inputStatement, binaryOperator, shift]

end Rule

namespace Session

/-- No rule that is called here asks for a token at the end of the input. -/
structure RulesAskInside (session : Session) : Prop where
  anywhere : ∀ rule ∈ Rule.calledAnywhere, rule.AsksInside session
  atToken : session.current.kind ≠ .endOfInput →
    ∀ rule ∈ Rule.calledAtToken, rule.AsksInside session
  expected : ∀ kind, kind ≠ .endOfInput → (Rule.expect kind).AsksInside session
  identifier : Rule.identifier.AsksInside session

theorem rulesAskInside (session : Session) : session.RulesAskInside where
  anywhere := by
    simp only [Rule.calledAnywhere, List.forall_mem_cons]
    exact ⟨(Rule.statement_spends session).asksInside,
      (Rule.blockBody_spends Rule.statement_spends_any session).asksInside,
      (Rule.comparison_spends session).asksInside, (Rule.expression_spends session).asksInside,
      (Rule.term_spends session).asksInside, (Rule.unary_spends session).asksInside,
      (Rule.primary_spends session).asksInside, (Rule.lineEnd_spends session).asksInside,
      (Rule.skipNewlines_spends session).asksInside, nofun⟩
  atToken inside := by
    simp only [Rule.calledAtToken, List.forall_mem_cons]
    exact ⟨(Rule.printStatement_spends inside).asksInside,
      (Rule.callStatement_spends inside).asksInside,
      (Rule.functionDeclaration_spends inside Rule.statement_spends_any).asksInside,
      (Rule.conditionalBlock_spends "if" inside Rule.statement_spends_any).asksInside,
      (Rule.conditionalBlock_spends "while" inside Rule.statement_spends_any).asksInside,
      (Rule.labelStatement_spends inside).asksInside,
      (Rule.gotoStatement_spends inside).asksInside, (Rule.letStatement_spends inside).asksInside,
      (Rule.inputStatement_spends inside).asksInside,
      (Rule.binaryOperator_spends inside).asksInside, (Rule.shift_spends inside).asksInside,
      nofun⟩
  expected _ notEnd := (Rule.expect_spends notEnd session).asksInside
  identifier := (Rule.identifier_spends session).asksInside

end Session

/-! ## Sessions in a source text -/

namespace Session

variable {source : String} {session after : Session} {n : Nat}

/-- The session is at a place of the source text: the first two tokens have been read, and some
have been gone past. -/
def PlacedIn (source : String) (session : Session) : Prop :=
  ∃ first passed, Cursor.Heads (.ofString source) first ∧ first.Passes passed session.cursor

theorem PlacedIn.valid (placed : session.PlacedIn source) : session.Valid := by
  obtain ⟨first, passed, heads, passes⟩ := placed
  exact passes.valid (heads.valid (Lexer.valid_ofString source))

/-- The start of a pass is a place in the source text. -/
theorem placedIn_start {unit : CUnit} {start : Session}
    (starts : Session.start (.ofString source) unit = .ok start) : start.PlacedIn source := by
  obtain ⟨cursor, heads, rfl⟩ := start_eq_ok_iff.mp starts
  exact ⟨cursor, [], heads, .none _⟩

theorem Spends.placedIn {α : Type} {value : α} (spends : session.Spends n (.ok value after))
    (placed : session.PlacedIn source) : after.PlacedIn source := by
  obtain ⟨first, before, heads, toSession⟩ := placed
  obtain ⟨passed, toAfter, _⟩ := spends
  exact ⟨first, before ++ passed, heads, toSession.trans toAfter⟩

/-- Wherever the rule for statements is called in a pass, the session is at a place of the source
text, and the bound on the depth of blocks reaches the tokens that are ahead. -/
theorem placedIn_of_call {unit : CUnit} {start : Session} {depth : Nat}
    (starts : Session.start (.ofString source) unit = .ok start)
    (call : StatementCall start depth session) :
    session.PlacedIn source ∧ session.weight ≤ depth ∧ 0 < depth := by
  induction call with
  | @ofProgram session call =>
      refine ⟨?_, session.weight_le_remaining, Nat.succ_pos _⟩
      apply call.inProgram
      · intro there after value placed run
        exact ((Rule.statement_spends there).of_ok run).placedIn placed
      · intro first skips
        have placed := placedIn_start starts
        exact ((Rule.skipNewlines_spends start.openMain).of_ok skips).placedIn placed
  | @ofBlock depth session inside _ call inductionHypothesis =>
      obtain ⟨placed, enough, _⟩ := inductionHypothesis
      have there : inside.PlacedIn source ∧ Rule.InBlockOf session inside := by
        apply call.inStatement
        · rintro there after value ⟨placed, inBlock⟩ run
          have spends := (Rule.statementWithin_spends depth there).of_ok run
          exact ⟨spends.placedIn placed, inBlock.keeps run⟩
        · intro first begins
          exact ⟨begins.spends.placedIn placed, begins.spends.lighter placed.valid⟩
      have lighter := there.2.2
      exact ⟨there.1, by omega, by omega⟩

end Session

/-! ## The number of tokens asked for -/

namespace Lexer

variable {lexer : Lexer} {tokens : List Token}

/-- A lexer with no fault ahead moves on whenever it is asked, also at the end of the input. -/
theorem Drains.afterNext (drains : lexer.Drains tokens none) (valid : lexer.Valid) :
    lexer.position < lexer.afterNext.position ∧ lexer.afterNext.Valid ∧
      ∃ others, lexer.afterNext.Drains others none := by
  cases drains with
  | @ended _ after _ read isEnd =>
      have reads := reads_of_next valid read
      obtain ⟨_, readAgain, _⟩ := next_of_ended (reads.ended isEnd)
      have moved : lexer.afterNext = after := by rw [Lexer.afterNext, read]
      rw [moved]
      exact ⟨position_lt_of_next read, reads.valid, [], .ended readAgain rfl⟩
  | @more _ after _ others _ read _ rest =>
      have moved : lexer.afterNext = after := by rw [Lexer.afterNext, read]
      rw [moved]
      exact ⟨position_lt_of_next read, (reads_of_next valid read).valid, others, rest⟩

theorem ReadsTo.faultless {later : Lexer} (reads : lexer.ReadsTo later) (valid : lexer.Valid)
    (drains : lexer.Drains tokens none) : later.Valid ∧ ∃ others, later.Drains others none := by
  apply reads.keeps ⟨valid, tokens, drains⟩
  rintro there ⟨validThere, others, drainsThere⟩
  exact (drainsThere.afterNext validThere).2

theorem Drains.strictMono_position (drains : lexer.Drains tokens none) (valid : lexer.Valid) :
    StrictMono fun n => (lexer.performAll (List.replicate n .next)).position := by
  apply strictMono_nat_of_lt_succ
  intro n
  have reads : lexer.ReadsTo (lexer.performAll (List.replicate n .next)) := ⟨n, rfl⟩
  obtain ⟨validThere, others, drainsThere⟩ := reads.faultless valid drains
  have next : lexer.performAll (List.replicate (n + 1) .next) =
      (lexer.performAll (List.replicate n .next)).afterNext := by
    rw [List.replicate_succ', performAll_append]
    rfl
  rw [next]
  exact (drainsThere.afterNext validThere).1

/-- The lexer has been asked for so many tokens, and for no other number of them. -/
def AskedFor (lexer : Lexer) (count : Nat) (after : Lexer) : Prop :=
  ∀ n, after = lexer.performAll (List.replicate n .next) ↔ n = count

/-- With no fault ahead, different numbers of tokens lead to different places. -/
theorem Drains.askedFor (drains : lexer.Drains tokens none) (valid : lexer.Valid) (count : Nat) :
    lexer.AskedFor count (lexer.performAll (List.replicate count .next)) := by
  intro n
  constructor
  · intro same
    exact (drains.strictMono_position valid).injective (congrArg position same.symm)
  · rintro rfl
    rfl

end Lexer

/-- Two tokens are asked for at the start. -/
theorem Cursor.Heads.lexer_eq {lexer : Lexer} {cursor : Cursor} (heads : Heads lexer cursor) :
    cursor.lexer = lexer.performAll (List.replicate 2 .next) := by
  obtain ⟨middle, first, second⟩ := heads
  have toMiddle : lexer.afterNext = middle := by rw [Lexer.afterNext, first]
  have toCursor : middle.afterNext = cursor.lexer := by rw [Lexer.afterNext, second]
  rw [← toCursor, ← toMiddle]
  rfl

/-- The lexer is asked for one token more than there are, at most. -/
theorem askedFor_le {source : String} {tokens : List Token} (unit : CUnit)
    (lexes : tokenize source = .ok tokens) :
    ∃ start count, Session.start (.ofString source) unit = .ok start ∧
      (Lexer.ofString source).AskedFor count (Rule.program.leaves start).lexer ∧
        count ≤ tokens.length + 1 := by
  have valid := Lexer.valid_ofString source
  obtain ⟨inside, rfl, drains⟩ := exists_drains_of_tokenize_ok lexes
  rcases Cursor.exists_ahead_of_drains drains valid with ⟨cursor, heads, ahead⟩ | ⟨_, isFault, _⟩
  · obtain ⟨asked, asks, insideAsked⟩ := (Rule.program_spends (.initial cursor unit)).asksInside
    have few := asks.length_le insideAsked ahead
    have reached : (Rule.program.leaves (.initial cursor unit)).lexer =
        (Lexer.ofString source).performAll (List.replicate (2 + asked.length) .next) := by
      rw [List.replicate_add, Lexer.performAll_append, ← heads.lexer_eq]
      exact asks.lexer_eq
    refine ⟨.initial cursor unit, 2 + asked.length, ?_, ?_, ?_⟩
    · exact Session.start_eq_ok_iff.mpr ⟨cursor, heads, rfl⟩
    · rw [reached]
      exact drains.askedFor valid _
    · rw [List.length_append, List.length_singleton]
      omega
  · cases isFault

/-! ## Progress -/

namespace Session

/-- A statement that starts here makes progress and comes to an end. -/
structure MovesOn (session : Session) : Prop where
  /-- If it succeeds, it has gone past tokens of its own, past the line end that closes it, and
  past the blank lines behind that. -/
  spends : ∀ value after, Rule.statement session = .ok value after →
    ∃ own blank, own ≠ [] ∧ (∀ token ∈ own, token.kind ≠ .endOfInput) ∧
      session.cursor.Passes (own ++ .newline :: List.replicate blank .newline) after.cursor
  /-- Neither it nor any other rule asks for a token at the end of the input, also if it fails. -/
  asksInside : session.RulesAskInside
  /-- It calls itself for the statements in its blocks. -/
  unfolds : Rule.statement session = Rule.statementOver Rule.statement session
  /-- It does so no deeper than there are tokens left: what stands below makes no difference. -/
  nests : ∀ bottom depth, session.remaining ≤ depth →
    (Rule.statementOver^[depth] bottom) session = Rule.statement session
  /-- The loops in it end, with no bound on them. -/
  loopsEnd : session.LoopsEnd

variable {session after : Session} {value : Unit}

theorem Valid.spends_statement (valid : session.Valid)
    (run : Rule.statement session = .ok value after) :
    ∃ own blank, own ≠ [] ∧ (∀ token ∈ own, token.kind ≠ .endOfInput) ∧
      session.cursor.Passes (own ++ .newline :: List.replicate blank .newline) after.cursor := by
  rw [Rule.statement_eq_statementOver valid, Rule.statementOver_eq] at run
  obtain ⟨_, middle, unended, closes⟩ := Rule.bind_eq_ok_iff.mp run
  have spends : session.Spends 1 (Rule.unendedStatement Rule.statement session) :=
    Rule.unendedStatement_spends Rule.statement_spends_any session
  obtain ⟨own, toMiddle, inside, enough⟩ := spends.of_ok unended
  obtain ⟨blank, place, toPlace, _, rfl⟩ :=
    (Rule.lineEnd_eq_ok_iff (toMiddle.valid valid)).mp closes
  exact ⟨own, blank, List.ne_nil_of_length_pos enough, inside, toMiddle.trans toPlace⟩

theorem Valid.movesOn (valid : session.Valid) : session.MovesOn where
  spends _ _ run := valid.spends_statement run
  asksInside := session.rulesAskInside
  unfolds := Rule.statement_eq_statementOver valid
  nests bottom depth enough := by
    apply Rule.iterate_statementOver_eq_statement bottom valid
    · exact session.weight_le_remaining.trans enough
    · exact (Nat.succ_pos _).trans_le enough
  loopsEnd := valid.loopsEnd

end Session

/-- A pass makes progress.  At every place of a source text a statement goes past tokens of its
own and a line end, the blocks and loops end without the bounds that they have, and nothing is
asked for at the end of the input.  The rule for statements is called at such places only, with
bounds that make no difference; so a pass ends, and it asks its lexer for one token more than
`tokenize` gives, at most. -/
theorem pass_makes_progress (source : String) :
    (∀ session : Session, session.PlacedIn source → session.MovesOn) ∧
    (∀ unit start, Session.start (.ofString source) unit = .ok start →
      Rule.program.AsksInside start ∧
        ∀ depth session, StatementCall start depth session →
          session.PlacedIn source ∧ Rule.statementWithin depth session = Rule.statement session) ∧
    ∀ unit tokens, tokenize source = .ok tokens →
      ∃ start count, Session.start (.ofString source) unit = .ok start ∧
        (Lexer.ofString source).AskedFor count (Rule.program.leaves start).lexer ∧
          count ≤ tokens.length + 1 := by
  refine ⟨fun _ placed => placed.valid.movesOn, ?_, fun unit _ lexes => askedFor_le unit lexes⟩
  intro unit start starts
  apply And.intro (Rule.program_spends start).asksInside
  intro depth session call
  obtain ⟨placed, enough, pos⟩ := Session.placedIn_of_call starts call
  exact ⟨placed, Rule.statementWithin_eq_statement placed.valid enough pos⟩

/-- A block with a statement in it. -/
def conditionalPrint : String :=
  "if (1 < 2)\nprint 1\nend"

theorem pass_makes_progress_conditionalPrint :
    ∃ start first after, Session.start (.ofString conditionalPrint) .empty = .ok start ∧
      StatementCall start first.remaining first ∧ first.PlacedIn conditionalPrint ∧
      Rule.statement first = .ok () after ∧
      (∃ own blank, own ≠ [] ∧ (∀ token ∈ own, token.kind ≠ .endOfInput) ∧
        first.cursor.Passes (own ++ .newline :: List.replicate blank .newline) after.cursor) ∧
      ∃ count, count ≤ 14 ∧
        (Lexer.ofString conditionalPrint).AskedFor count (Rule.program.leaves start).lexer := by
  have evaluates : ((Session.start (.ofString conditionalPrint) .empty).toOption.any
      fun start => Rule.skipNewlines.succeedsAt start.openMain fun first =>
        !first.isAt .endOfInput && Rule.statement.succeedsAt first fun _ => true) = true := by
    decide +kernel
  have lexes : (tokenize conditionalPrint).toOption.any (·.length == 13) = true := by
    decide +kernel
  have progress := pass_makes_progress conditionalPrint
  cases tokenizes : tokenize conditionalPrint with
  | error error =>
      rw [tokenizes] at lexes
      exact absurd lexes Bool.false_ne_true
  | ok tokens =>
      rw [tokenizes] at lexes
      have thirteen : tokens.length = 13 := eq_of_beq lexes
      obtain ⟨start, count, starts, asked, few⟩ := progress.2.2 .empty tokens tokenizes
      rw [starts] at evaluates
      obtain ⟨first, skips, evaluates⟩ := Rule.exists_of_succeedsAt evaluates
      obtain ⟨goesOn, evaluates⟩ := Bool.and_eq_true_iff.mp evaluates
      obtain ⟨after, run, _⟩ := Rule.exists_of_succeedsAt evaluates
      have call : StatementCall start first.remaining first :=
        .ofProgram (Rule.callsAt_first_statement skips ((Bool.not_eq_true' _).mp goesOn))
      have placed := ((progress.2.1 .empty start starts).2 _ first call).1
      have spends := (progress.1 first placed).spends () after run
      exact ⟨start, first, after, starts, call, placed, run, spends, count, by omega, asked⟩

end TeenyC
