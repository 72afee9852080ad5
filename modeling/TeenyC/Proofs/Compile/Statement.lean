import TeenyC.Proofs.Compile.Action

/-!
# What the rules for statements recognise

A rule translates statements when it succeeds exactly by going past one whose names
are admitted, and advances the session by what the generator makes of it.  If a rule
translates the statements in light sessions, then repeating it translates sequences
of statements there, and the rule for statements around it translates the statements
in sessions one heavier.  `statement_translates` follows by induction on the depth.
-/

namespace TeenyC

open Syntax

/-! ## Single statements -/

namespace Syntax

/-- A block that is one statement. -/
inductive Block.IsStatement : Block → Prop
  | action (statement : Action) (gap : Nat) : IsStatement (.action statement gap .nil)
  | function (name : String) (gap : Nat) (body : Block) (endGap : Nat) :
      IsStatement (.function name gap body endGap .nil)
  | guarded (guard : Guard) (condition : Comparison) (gap : Nat) (body : Block) (endGap : Nat) :
      IsStatement (.guarded guard condition gap body endGap .nil)

theorem Block.IsStatement.tokens_ne_nil {block : Block} (isStatement : block.IsStatement) :
    block.tokens ≠ [] := by
  cases isStatement with
  | action statement gap => simp [tokens, lineEnd]
  | function | guarded => simp [tokens]

theorem Block.IsStatement.ne_nil {block : Block} (isStatement : block.IsStatement) :
    block ≠ .nil := by
  cases isStatement <;> exact nofun

theorem Block.kind_of_passes_action {statement : Action} {gap : Nat} {rest : Block}
    {cursor place : Cursor} (passes : cursor.Passes (action statement gap rest).tokens place) :
    cursor.current.kind = statement.kind := by
  rcases Cursor.passes_append_iff.mp passes with ⟨_, first, _⟩
  rcases Cursor.passes_append_iff.mp first with ⟨_, first, _⟩
  exact Action.kind_of_passes first

theorem Block.kind_of_passes_function {name : String} {gap endGap : Nat} {body rest : Block}
    {cursor place : Cursor}
    (passes : cursor.Passes (function name gap body endGap rest).tokens place) :
    cursor.current.kind = .fnKeyword :=
  congrArg Token.kind passes.current_eq

theorem Block.kind_of_passes_guarded {guard : Guard} {condition : Comparison} {gap endGap : Nat}
    {body rest : Block} {cursor place : Cursor}
    (passes : cursor.Passes (guarded guard condition gap body endGap rest).tokens place) :
    cursor.current.kind = guard.kind :=
  congrArg Token.kind passes.current_eq

theorem Block.starts_of_passes {block : Block} {cursor place : Cursor} (notNil : block ≠ .nil)
    (passes : cursor.Passes block.tokens place) : startsStatement cursor.current.kind = true := by
  obtain ⟨token, rest, tokens, starts⟩ := block.head notNil
  rw [tokens] at passes
  rw [passes.current_eq]
  exact starts

/-- No line end stands before a sequence of statements if none stands after it. -/
theorem Block.not_newline_before {block : Block} {cursor place : Cursor}
    (passes : cursor.Passes block.tokens place) (notAfter : place.current.kind ≠ .newline) :
    cursor.current.kind ≠ .newline := by
  by_cases isNil : block = .nil
  · subst isNil
    have here := Cursor.passes_nil_iff.mp passes
    rw [← here]
    exact notAfter
  · intro isNewline
    have starts := Block.starts_of_passes isNil passes
    rw [isNewline] at starts
    contradiction

end Syntax

/-! ## Past a sequence of statements -/

namespace Session

/-- The session after a sequence of statements, given the earlier targets in its
function. -/
def past (session : Session) (earlier : List String) (block : Block) (place : Cursor) : Session :=
  session.advance place (block.functions.flatMap functionLines) (block.lines earlier)
    (block.occurrences session.function)

variable {session : Session} {history : List Occurrence} {earlier : List String}
  {block : Block} {place : Cursor}

theorem past_nil : session.past earlier .nil session.cursor = session :=
  (moveTo_eq_advance session session.cursor).symm

theorem Ready.past (ready : session.Ready history earlier)
    (passes : session.cursor.Passes block.tokens place)
    (admits : session.names.Admits (block.occurrences session.function)) :
    (session.past earlier block place).Ready (history ++ block.occurrences session.function)
      (earlier ++ block.targets) :=
  ready.advance passes (ready.knows.block admits)

/-- Two sequences of statements, one after the other. -/
theorem Ready.past_past (ready : session.Ready history earlier) {first second : Block}
    {target : Cursor}
    (admits : (session.past earlier first place).names.Admits
      (second.occurrences session.function)) :
    (session.past earlier first place).past (earlier ++ first.targets) second target =
      session.past earlier (first.append second) target := by
  simp only [Session.past, Block.functions_append, List.flatMap_append, Block.lines_append,
    Block.occurrences_append]
  exact advance_advance _ _ (ready.apart admits)

end Session

namespace Rule

variable {session after : Session} {value : Unit} {history : List Occurrence}
  {earlier : List String} {bound : Nat} {inner : Rule Unit}

/-- One of the statements at the current token, whose names are admitted, leads from a
session to another. -/
def SomeStatement (session : Session) (earlier : List String) (after : Session) : Prop :=
  ∃ (block : Block) (place : Cursor), block.IsStatement ∧
    session.cursor.Passes block.tokens place ∧ place.current.kind ≠ .newline ∧
    session.names.Admits (block.occurrences session.function) ∧
    after = session.past earlier block place

/-- In sessions up to a weight, a rule translates statements: it succeeds exactly by
going past one. -/
def Translates (bound : Nat) (rule : Rule Unit) : Prop :=
  ∀ ⦃session after : Session⦄ ⦃value : Unit⦄ ⦃history : List Occurrence⦄
    ⦃earlier : List String⦄, session.Ready history earlier → session.weight ≤ bound →
    session.current.kind ≠ .endOfInput →
    (rule session = .ok value after ↔ SomeStatement session earlier after)

/-! ## Sequences -/

/-- Sessions up to a weight that are ready for a statement. -/
def ReadyBelow (bound : Nat) (session : Session) : Prop :=
  (∃ history earlier, session.Ready history earlier) ∧ session.weight ≤ bound

theorem Translates.progresses (translates : Translates bound inner) {stops : Kind → Bool}
    (stopsAtEnd : stops .endOfInput = true) :
    Progresses (ReadyBelow bound) (fun session => !stops session.current.kind) inner where
  stops session atEnd := by simp [atEnd, stopsAtEnd]
  moves session after value holdsHere goesOn run := by
    rcases holdsHere with ⟨⟨history, earlier, ready⟩, light⟩
    have notEnd : session.current.kind ≠ .endOfInput := by
      intro atEnd
      simp [atEnd, stopsAtEnd] at goesOn
    rcases (translates ready light notEnd).mp run with
      ⟨block, place, isStatement, passes, _, admits, rfl⟩
    have lighter : place.weight < session.weight :=
      passes.lighter_of_ne_nil ready.valid isStatement.tokens_ne_nil notEnd
    exact ⟨⟨⟨_, _, ready.past passes admits⟩, Nat.le_of_lt (Nat.lt_of_lt_of_le lighter light)⟩,
      lighter⟩

/-- What stops a repetition of statements: the end of the input does, and no token
that starts a statement. -/
structure StopsStatements (stops : Kind → Bool) : Prop where
  atEnd : stops .endOfInput = true
  apart : ∀ ⦃kind : Kind⦄, startsStatement kind = true → stops kind = false

/-- A sequence of statements, from its first on. -/
theorem Translates.again (translates : Translates bound inner) {stops : Kind → Bool}
    (stopsStatements : StopsStatements stops) (first second : Block) {target : Cursor}
    (ready : session.Ready history earlier) (light : session.weight ≤ bound)
    (isStatement : first.IsStatement)
    (passes : session.cursor.Passes (first.append second).tokens target)
    (notNewline : target.current.kind ≠ .newline)
    (admits : session.names.Admits ((first.append second).occurrences session.function))
    (others : ∀ ⦃middle : Session⦄ ⦃history : List Occurrence⦄ ⦃earlier : List String⦄,
      middle.Ready history earlier → middle.weight ≤ bound →
      middle.cursor.Passes second.tokens target →
      middle.names.Admits (second.occurrences middle.function) →
      Repeats (fun session => !stops session.current.kind) inner middle
        (middle.past earlier second target)) :
    Repeats (fun session => !stops session.current.kind) inner session
      (session.past earlier (first.append second) target) := by
  have firstNotNil : first.append second ≠ .nil := by cases isStatement <;> exact nofun
  have goesOn : stops session.current.kind = false :=
    stopsStatements.apart (Block.starts_of_passes firstNotNil passes)
  rw [Block.tokens_append] at passes
  rw [Block.occurrences_append] at admits
  rcases Cursor.passes_append_iff.mp passes with ⟨place, toPlace, toTarget⟩
  rcases Names.admits_append.mp admits with ⟨firstAdmits, secondAdmits⟩
  have notEnd : session.current.kind ≠ .endOfInput := by
    intro atEnd
    rw [atEnd, stopsStatements.atEnd] at goesOn
    contradiction
  have lighter : place.weight < session.weight :=
    toPlace.lighter_of_ne_nil ready.valid isStatement.tokens_ne_nil notEnd
  refine .again (by simpa using goesOn)
    ((translates ready light notEnd).mpr ⟨first, place, isStatement, toPlace,
      Block.not_newline_before toTarget notNewline, firstAdmits, rfl⟩) ?_
  rw [← ready.past_past secondAdmits]
  exact others (ready.past toPlace firstAdmits) (Nat.le_of_lt (Nat.lt_of_lt_of_le lighter light))
    toTarget secondAdmits

/-- Repeating a rule that translates statements translates sequences of statements. -/
theorem Translates.repeatWhile_eq_ok_iff (translates : Translates bound inner)
    {stops : Kind → Bool} (stopsStatements : StopsStatements stops)
    (ready : session.Ready history earlier) (light : session.weight ≤ bound)
    (notNewline : session.current.kind ≠ .newline) :
    repeatWhile (fun session => !stops session.current.kind) inner session = .ok value after ↔
      ∃ (block : Block) (place : Cursor), session.cursor.Passes block.tokens place ∧
        place.current.kind ≠ .newline ∧ stops place.current.kind = true ∧
        session.names.Admits (block.occurrences session.function) ∧
        after = session.past earlier block place := by
  have progresses := translates.progresses stopsStatements.atEnd
  rw [Rule.repeatWhile_eq_ok_iff progresses ⟨⟨history, earlier, ready⟩, light⟩]
  constructor
  · intro repeats
    induction repeats generalizing history earlier with
    | @stop session fails =>
        exact ⟨.nil, session.cursor, .none _, notNewline, by simpa using fails, trivial,
          Session.past_nil.symm⟩
    | @again session middle after goesOn first _ inductionHypothesis =>
        have notEnd : session.current.kind ≠ .endOfInput := by
          intro atEnd
          simp [atEnd, stopsStatements.atEnd] at goesOn
        obtain ⟨_, lighter⟩ :=
          progresses.moves ⟨⟨history, earlier, ready⟩, light⟩ goesOn first
        rcases (translates ready light notEnd).mp first with
          ⟨block, place, _, toPlace, stillNotNewline, admits, rfl⟩
        obtain ⟨rest, target, toTarget, ends, stopped, restAdmits, rfl⟩ :=
          inductionHypothesis (ready.past toPlace admits) (by omega) stillNotNewline
        refine ⟨block.append rest, target, ?_, ends, stopped, ?_, ?_⟩
        · rw [Block.tokens_append]
          exact toPlace.trans toTarget
        · rw [Block.occurrences_append]
          exact Names.admits_append.mpr ⟨admits, restAdmits⟩
        · exact ready.past_past restAdmits
  · rintro ⟨block, place, passes, ends, stopped, admits, rfl⟩
    -- Every block but the empty one is a statement with a block after it.
    induction block generalizing session history earlier with
    | nil =>
        have here := Cursor.passes_nil_iff.mp passes
        subst here
        rw [Session.past_nil]
        exact .stop (by simpa using stopped)
    | action statement gap rest inductionHypothesis =>
        refine translates.again stopsStatements (.action statement gap .nil) rest ready light
          (.action statement gap) passes ends admits ?_
        intro middle history earlier ready light passes admits
        exact inductionHypothesis ready light (Block.not_newline_before passes ends) passes admits
    | function name gap body endGap rest _ inductionHypothesis =>
        refine translates.again stopsStatements (.function name gap body endGap .nil) rest ready
          light (.function name gap body endGap) passes ends admits ?_
        intro middle history earlier ready light passes admits
        exact inductionHypothesis ready light (Block.not_newline_before passes ends) passes admits
    | guarded guard condition gap body endGap rest _ inductionHypothesis =>
        refine translates.again stopsStatements (.guarded guard condition gap body endGap .nil) rest
          ready light (.guarded guard condition gap body endGap) passes ends admits ?_
        intro middle history earlier ready light passes admits
        exact inductionHypothesis ready light (Block.not_newline_before passes ends) passes admits

/-! ## Blocks -/

/-- The kinds of the tokens that stop the statements of a block. -/
def stopsBody : Kind → Bool
  | .endKeyword | .endOfInput => true
  | _ => false

theorem stopsStatements_stopsBody : StopsStatements stopsBody where
  atEnd := rfl
  apart kind starts := by cases kind <;> first | rfl | contradiction

theorem isAt_stopsBody :
    (fun session : Session => !session.isAt .endKeyword && !session.isAt .endOfInput) =
      fun session => !stopsBody session.current.kind := by
  funext session
  simp only [Session.isAt, Token.is]
  cases session.current.kind <;> rfl

/-- The tokens of a block after its first line. -/
def bodyTokens (gap : Nat) (body : Block) : List Token :=
  Syntax.lineEnd gap ++ body.tokens ++ [.ofKind .endKeyword]

theorem blockBody_eq_ok_iff (translates : Translates bound inner)
    (ready : session.Ready history earlier) (light : session.weight ≤ bound) :
    blockBody inner session = .ok value after ↔
      ∃ (gap : Nat) (body : Block) (place : Cursor),
        session.cursor.Passes (bodyTokens gap body) place ∧
        session.names.Admits (body.occurrences session.function) ∧
        after = session.past earlier body place := by
  simp only [blockBody, isAt_stopsBody, bind_eq_ok_iff]
  constructor
  · rintro ⟨_, _, first, _, _, second, third⟩
    rcases (lineEnd_eq_ok_iff ready.valid).mp first with ⟨gap, start, toStart, notNewline, rfl⟩
    have lighter := toStart.not_heavier ready.valid
    obtain ⟨body, stop, toStop, _, _, admits, rfl⟩ :=
      (translates.repeatWhile_eq_ok_iff stopsStatements_stopsBody (ready.moveTo toStart)
        (Nat.le_trans lighter light) notNewline).mp second
    have valid := ((ready.moveTo toStart).past toStop admits).valid
    rcases (expect_eq_ok_iff_ofKind valid rfl).mp third with ⟨place, toPlace, rfl⟩
    exact ⟨gap, body, place, (toStart.trans toStop).trans toPlace, admits, rfl⟩
  · rintro ⟨gap, body, place, passes, admits, rfl⟩
    rcases Cursor.passes_append_iff.mp passes with ⟨stop, passes, toPlace⟩
    rcases Cursor.passes_append_iff.mp passes with ⟨start, toStart, toStop⟩
    have lighter := toStart.not_heavier ready.valid
    have atEnd : stop.current = .ofKind .endKeyword := toPlace.current_eq
    have notNewline : stop.current.kind ≠ .newline := by
      rw [atEnd]
      decide
    have stopped : stopsBody stop.current.kind = true := by
      rw [atEnd]
      rfl
    have startReady := ready.moveTo toStart
    have startsStatements := Block.not_newline_before toStop notNewline
    refine ⟨(), _, (lineEnd_eq_ok_iff ready.valid).mpr
      ⟨gap, start, toStart, startsStatements, rfl⟩, (), _,
      (translates.repeatWhile_eq_ok_iff stopsStatements_stopsBody startReady
        (Nat.le_trans lighter light) startsStatements).mpr
          ⟨body, stop, toStop, notNewline, stopped, admits, rfl⟩, ?_⟩
    exact (expect_eq_ok_iff_ofKind (startReady.past toStop admits).valid rfl).mpr
      ⟨place, toPlace, rfl⟩

/-- A function, with its lines and events put together. -/
theorem leave_past_enter {name : String} {body : Block} {head place : Cursor}
    (atMain : session.function = mainFunction) (isActive : session.unit.active = .main)
    (noFunctions : body.functions = []) :
    (((((session.moveTo head).enter name).advance head [] [.openFunction name] []).past [] body
        place).advance place [] [.close] []).leave =
      session.advance place (functionLines (name, body)) []
        (⟨mainFunction, .header name⟩ :: body.occurrences name) := by
  have closed : (((session.moveTo head).enter name).advance place [] (functionLines (name, body))
      (body.occurrences name)).leave = _ := Session.leave_advance_enter atMain isActive _
  rw [Session.past, noFunctions, List.flatMap_nil, Session.advance_advance _ _ (.inr rfl),
    List.append_nil, List.append_nil, Session.advance_advance _ _ (.inr rfl)]
  exact closed

/-- The parts of a function: a head that the tables allow, and a body. -/
theorem functionDeclaration_eq_ok_iff_parts (ready : session.Ready history earlier)
    (isKind : session.current.kind = .fnKeyword) :
    functionDeclaration inner session = .ok value after ↔
      ∃ (name : String) (head : Cursor) (middle : Session),
        session.cursor.Passes (functionHead name) head ∧
        session.names.Allows ⟨session.function, .header name⟩ ∧
        blockBody inner (((session.moveTo head).enter name).advance head [] [.openFunction name]
          []) = .ok () middle ∧
        after = (middle.advance middle.cursor [] [.close] []).leave := by
  have outside : session.unit.active ≠ .functions ↔ session.function = mainFunction := by
    rw [Ne, ready.active_eq_functions_iff, not_not]
  have start : ∀ (name : String) (head : Cursor), _ = _ := fun name head =>
    writeLine_eq_advance ((session.moveTo head).enter name) head (.openFunction name)
  have finish : ∀ middle : Session, _ = _ := fun middle =>
    writeLine_eq_advance middle middle.cursor .close
  simp only [functionDeclaration, get_bind]
  constructor
  · intro run
    split at run
    · simp at run
    · next notInside =>
        rcases (named_eq_ok_iff ready.valid isKind rfl).mp run with ⟨name, head, toHead, run⟩
        simp only [get_bind] at run
        split at run
        · simp at run
        · next isNew =>
            obtain ⟨unreserved, undeclared⟩ : name ≠ mainFunction ∧ ¬ name ∈ session.functions := by
              simpa using isNew
            simp only [modify_bind, select_bind, writeLine_bind, bind_eq_ok_iff] at run
            rcases run with ⟨_, middle, bodyRun, last⟩
            refine ⟨name, head, middle, toHead,
              ⟨outside.mp notInside, unreserved, undeclared⟩, ?_, ?_⟩
            · rw [← start]
              exact bodyRun
            · rw [← finish]
              cases last
              rfl
  · rintro ⟨name, head, middle, toHead, ⟨atMain, unreserved, undeclared⟩, bodyRun, rfl⟩
    rw [if_neg (outside.mpr atMain)]
    refine (named_eq_ok_iff ready.valid isKind rfl).mpr ⟨name, head, toHead, ?_⟩
    have isNew :
        ¬ (name = mainFunction || (session.moveTo head).functions.contains name) = true := by
      simpa using ⟨unreserved, undeclared⟩
    simp only [get_bind]
    rw [if_neg isNew]
    simp only [modify_bind, select_bind, writeLine_bind, bind_eq_ok_iff]
    rw [← start] at bodyRun
    refine ⟨(), middle, bodyRun, ?_⟩
    rw [← finish]
    rfl

theorem functionDeclaration_eq_ok_iff (translates : Translates bound inner)
    (ready : session.Ready history earlier) (light : session.weight ≤ bound + 1)
    (isKind : session.current.kind = .fnKeyword) :
    functionDeclaration inner session = .ok value after ↔
      ∃ (name : String) (gap : Nat) (body : Block) (place : Cursor),
        session.cursor.Passes (functionHead name ++ bodyTokens gap body) place ∧
        session.names.Admits (⟨session.function, .header name⟩ :: body.occurrences name) ∧
        after = session.advance place (functionLines (name, body)) []
          (⟨session.function, .header name⟩ :: body.occurrences name) := by
  rw [functionDeclaration_eq_ok_iff_parts ready isKind]
  have bodyReady : ∀ ⦃name : String⦄ ⦃head : Cursor⦄,
      session.cursor.Passes (functionHead name) head →
      session.names.Allows ⟨session.function, .header name⟩ →
      (((session.moveTo head).enter name).advance head [] [.openFunction name] []).Ready
        (history ++ [⟨mainFunction, .header name⟩]) [] :=
    fun _ _ toHead allows => (ready.enter toHead allows).advance_nil (.none _)
  have bodyLight : ∀ ⦃name : String⦄ ⦃head : Cursor⦄,
      session.cursor.Passes (functionHead name) head → head.weight ≤ bound := by
    intro name head toHead
    have lighter : head.weight < session.weight := toHead.lighter ready.valid (by decide)
    omega
  constructor
  · rintro ⟨name, head, middle, toHead, allows, bodyRun, rfl⟩
    rcases (blockBody_eq_ok_iff translates (bodyReady toHead allows) (bodyLight toHead)).mp
        bodyRun with
      ⟨gap, body, place, toPlace, admits, rfl⟩
    have atMain : session.function = mainFunction := allows.1
    have isActive := ready.active_eq_main atMain
    refine ⟨name, gap, body, place, toHead.trans toPlace, ⟨allows, ?_⟩, ?_⟩
    · rw [atMain]
      exact admits
    · rw [atMain]
      exact leave_past_enter atMain isActive (admits.functions_eq_nil allows.2.1)
  · rintro ⟨name, gap, body, place, passes, ⟨allows, admits⟩, rfl⟩
    rcases Cursor.passes_append_iff.mp passes with ⟨head, toHead, toPlace⟩
    have atMain : session.function = mainFunction := allows.1
    have isActive := ready.active_eq_main atMain
    rw [atMain] at admits ⊢
    refine ⟨name, head, _, toHead, atMain ▸ allows,
      (blockBody_eq_ok_iff translates (bodyReady toHead allows) (bodyLight toHead)).mpr
        ⟨gap, body, place, toPlace, admits, rfl⟩, ?_⟩
    exact (leave_past_enter atMain isActive (admits.functions_eq_nil allows.2.1)).symm

/-- The parts of a block with a condition: a head with variables that are declared,
and a body. -/
theorem conditionalBlock_eq_ok_iff_parts (guard : Guard) (valid : session.Valid)
    (isKind : session.current.kind = guard.kind) :
    conditionalBlock guard.kind.spelling inner session = .ok value after ↔
      ∃ (condition : Comparison) (head : Cursor) (middle : Session),
        session.cursor.Passes (guardHead guard condition) head ∧
        session.Declares (Phrase.reads condition) ∧
        blockBody inner (session.advance head [] [.openGuard guard condition] []) =
          .ok () middle ∧
        after = middle.advance middle.cursor [] [.close] [] := by
  have fixed : guard.kind.isFixed = true := by cases guard <;> rfl
  have start : ∀ (condition : Comparison) (first second third head : Cursor),
      ((((((session.moveTo first).moveTo second).write (guard.kind.spelling ++ " (")).moveTo
        third).write (Phrase.text condition)).moveTo head).write (") \x7b" ++ "\n") =
          session.advance head [] [.openGuard guard condition] [] := by
    intro condition first second third head
    refine Eq.trans ?_ (writeLine_eq_advance session head (.openGuard guard condition))
    simp only [Session.moveTo_write, Session.moveTo_moveTo, Session.write_write,
      Line.text.eq_def, String.append_assoc]
  have finish : ∀ middle : Session, _ = _ := fun middle =>
    writeLine_eq_advance middle middle.cursor .close
  simp only [conditionalBlock, bind_eq_ok_iff, shift_eq_ok_iff_ofKind valid isKind fixed,
    writeLine_apply, writeLine_bind, write_bind]
  constructor
  · rintro ⟨_, _, ⟨first, toFirst, rfl⟩, _, _, opens, _, _, compares, _, _, closes, _, middle,
      bodyRun, last⟩
    have firstValid := valid.moveTo toFirst
    rcases (expect_eq_ok_iff_ofKind firstValid rfl).mp opens with ⟨second, toSecond, rfl⟩
    have secondValid := (firstValid.moveTo toSecond).write (guard.kind.spelling ++ " (")
    rcases (comparison_recognises secondValid).mp compares with
      ⟨condition, third, toThird, stops, declared, rfl⟩
    have thirdValid := (secondValid.moveTo toThird).write (Phrase.text condition)
    rcases (expect_eq_ok_iff_ofKind thirdValid rfl).mp closes with ⟨head, toHead, rfl⟩
    refine ⟨condition, head, middle, toFirst.trans (toSecond.trans (toThird.trans toHead)),
      declared, ?_, ?_⟩
    · rw [← start condition first second third head]
      exact bodyRun
    · rw [← finish]
      cases last
      rfl
  · rintro ⟨condition, head, middle, toHead, declared, bodyRun, rfl⟩
    rcases Cursor.passes_cons_iff.mp toHead with ⟨_, first, toFirst, rest⟩
    rcases Cursor.passes_cons_iff.mp rest with ⟨_, second, toSecond, rest⟩
    rcases Cursor.passes_append_iff.mp rest with ⟨third, toThird, toHead⟩
    have firstValid := valid.moveTo toFirst
    have secondValid := (firstValid.moveTo toSecond).write (guard.kind.spelling ++ " (")
    have thirdValid := (secondValid.moveTo toThird).write (Phrase.text condition)
    have stops : continuesComparison third.current.kind = false := by
      have here : third.current = .ofKind .rightParen := toHead.current_eq
      rw [here]
      rfl
    refine ⟨(), _, ⟨first, toFirst, rfl⟩, (), _,
      (expect_eq_ok_iff_ofKind firstValid rfl).mpr ⟨second, toSecond, rfl⟩, (), _,
      (comparison_recognises secondValid).mpr ⟨condition, third, toThird, stops, declared, rfl⟩,
      (), _, (expect_eq_ok_iff_ofKind thirdValid rfl).mpr ⟨head, toHead, rfl⟩, (), middle, ?_, ?_⟩
    · rw [← start condition first second third head] at bodyRun
      exact bodyRun
    · rw [← finish]
      rfl

theorem conditionalBlock_eq_ok_iff (guard : Guard) (translates : Translates bound inner)
    (ready : session.Ready history earlier) (light : session.weight ≤ bound + 1)
    (isKind : session.current.kind = guard.kind) :
    conditionalBlock guard.kind.spelling inner session = .ok value after ↔
      ∃ (condition : Comparison) (gap : Nat) (body : Block) (place : Cursor),
        session.cursor.Passes (guardHead guard condition ++ bodyTokens gap body) place ∧
        session.names.Admits (within session.function ((Phrase.reads condition).map .use) ++
          body.occurrences session.function) ∧
        after = session.advance place (body.functions.flatMap functionLines)
          (.openGuard guard condition :: body.lines earlier ++ [.close])
          (within session.function ((Phrase.reads condition).map .use) ++
            body.occurrences session.function) := by
  rw [conditionalBlock_eq_ok_iff_parts guard ready.valid isKind]
  have bodyLight : ∀ ⦃condition : Comparison⦄ ⦃head : Cursor⦄,
      session.cursor.Passes (guardHead guard condition) head → head.weight ≤ bound := by
    intro condition head toHead
    have lighter : head.weight < session.weight :=
      toHead.lighter ready.valid (by cases guard <;> decide)
    omega
  have result : ∀ {condition : Comparison} {head place : Cursor} {body : Block},
      session.names.Admits (body.occurrences session.function) →
      ((session.advance head [] [.openGuard guard condition] []).past earlier body place).advance
          place [] [.close] [] =
        session.advance place (body.functions.flatMap functionLines)
          (.openGuard guard condition :: body.lines earlier ++ [.close])
          (within session.function ((Phrase.reads condition).map .use) ++
            body.occurrences session.function) := by
    intro condition head place body admits
    have opened : _ = session.advance head [] [.openGuard guard condition] [] :=
      Session.advance_uses session.function (Phrase.reads condition)
    rw [← opened, Session.past, Session.advance_advance _ _ (ready.apart admits),
      Session.advance_advance _ _ (.inr rfl)]
    simp
  constructor
  · rintro ⟨condition, head, middle, toHead, declared, bodyRun, rfl⟩
    rcases (blockBody_eq_ok_iff translates (ready.advance_nil toHead) (bodyLight toHead)).mp
        bodyRun with
      ⟨gap, body, place, toPlace, admits, rfl⟩
    refine ⟨condition, gap, body, place, toHead.trans toPlace, ?_, result admits⟩
    refine Names.admits_append.mpr ⟨Names.admits_uses.mpr declared, ?_⟩
    rw [Names.recordAll_uses]
    exact admits
  · rintro ⟨condition, gap, body, place, passes, admits, rfl⟩
    rcases Cursor.passes_append_iff.mp passes with ⟨head, toHead, toPlace⟩
    rcases Names.admits_append.mp admits with ⟨uses, admits⟩
    rw [Names.recordAll_uses] at admits
    refine ⟨condition, head, _, toHead, Names.admits_uses.mp uses,
      (blockBody_eq_ok_iff translates (ready.advance_nil toHead) (bodyLight toHead)).mpr
        ⟨gap, body, place, toPlace, admits, rfl⟩, (result admits).symm⟩

/-! ## Statements -/

/-- A rule with a line end after it, where the rule is known to go past one of a family
of phrases. -/
theorem lineEnd_after_eq_ok_iff {ι : Type} {rule : Rule Unit} {tokens : ι → List Token}
    (ends : ι → Kind → Prop) {functions code : ι → List Line}
    {occurrences : ι → List Occurrence} (valid : session.Valid)
    (spec : ∀ (value : Unit) (after : Session), rule session = .ok value after ↔
      ∃ (phrase : ι) (place : Cursor), session.cursor.Passes (tokens phrase) place ∧
        ends phrase place.current.kind ∧ session.names.Admits (occurrences phrase) ∧
        after = session.advance place (functions phrase) (code phrase) (occurrences phrase))
    (endsBeforeNewline : ∀ phrase, ends phrase .newline) :
    (rule >>= fun _ => lineEnd) session = .ok value after ↔
      ∃ (phrase : ι) (gap : Nat) (place : Cursor),
        session.cursor.Passes (tokens phrase ++ Syntax.lineEnd gap) place ∧
        place.current.kind ≠ .newline ∧ session.names.Admits (occurrences phrase) ∧
        after = session.advance place (functions phrase) (code phrase) (occurrences phrase) := by
  rw [bind_eq_ok_iff]
  constructor
  · rintro ⟨_, _, first, last⟩
    rcases (spec _ _).mp first with ⟨phrase, middle, toMiddle, _, admits, rfl⟩
    have middleValid : (session.advance middle (functions phrase) (code phrase)
      (occurrences phrase)).Valid := toMiddle.valid valid
    rcases (lineEnd_eq_ok_iff middleValid).mp last with ⟨gap, place, toPlace, notNewline, rfl⟩
    exact ⟨phrase, gap, place, toMiddle.trans toPlace, notNewline, admits, rfl⟩
  · rintro ⟨phrase, gap, place, passes, notNewline, admits, rfl⟩
    rcases Cursor.passes_append_iff.mp passes with ⟨middle, toMiddle, toPlace⟩
    have atNewline : middle.current = .newline := toPlace.current_eq
    have middleValid : (session.advance middle (functions phrase) (code phrase)
      (occurrences phrase)).Valid := toMiddle.valid valid
    refine ⟨(), _, (spec _ _).mpr ⟨phrase, middle, toMiddle, ?_, admits, rfl⟩,
      (lineEnd_eq_ok_iff middleValid).mpr ⟨gap, place, toPlace, notNewline, rfl⟩⟩
    rw [atNewline]
    exact endsBeforeNewline phrase

theorem endsBefore_newline (statement : Action) : statement.EndsBefore .newline := by
  cases statement <;> trivial

theorem Performs.statement_eq_ok_iff {kind : Kind} {rule : Rule Unit}
    (performs : Performs kind rule) (ready : session.Ready history earlier)
    (isKind : session.current.kind = kind)
    (notBlock : kind ≠ .fnKeyword ∧ kind ≠ .ifKeyword ∧ kind ≠ .whileKeyword) :
    (rule >>= fun _ => lineEnd) session = .ok value after ↔
      SomeStatement session earlier after := by
  rw [lineEnd_after_eq_ok_iff (fun (statement : Action) next => statement.EndsBefore next)
    ready.valid (fun value after => performs ready isKind) endsBefore_newline]
  constructor
  · rintro ⟨statement, gap, place, passes, notNewline, admits, rfl⟩
    refine ⟨.action statement gap .nil, place, .action statement gap, ?_, notNewline, ?_, ?_⟩
    · simpa [Block.tokens] using passes
    · simpa [Block.occurrences] using admits
    · simp [Session.past, Block.functions, Block.lines, Block.occurrences]
  · rintro ⟨block, place, isStatement, passes, notNewline, admits, rfl⟩
    cases isStatement with
    | action statement gap =>
        refine ⟨statement, gap, place, ?_, notNewline, ?_, ?_⟩
        · simpa [Block.tokens] using passes
        · simpa [Block.occurrences] using admits
        · simp [Session.past, Block.functions, Block.lines, Block.occurrences]
    | function name gap body endGap =>
        exact absurd (isKind.symm.trans (Block.kind_of_passes_function passes)) notBlock.1
    | guarded guard condition gap body endGap =>
        have isGuard := isKind.symm.trans (Block.kind_of_passes_guarded passes)
        cases guard with
        | once => exact absurd isGuard notBlock.2.1
        | loop => exact absurd isGuard notBlock.2.2

theorem functionDeclaration_statement_eq_ok_iff (translates : Translates bound inner)
    (ready : session.Ready history earlier) (light : session.weight ≤ bound + 1)
    (isKind : session.current.kind = .fnKeyword) :
    (functionDeclaration inner >>= fun _ => lineEnd) session = .ok value after ↔
      SomeStatement session earlier after := by
  have spec : ∀ (value : Unit) (after : Session),
      functionDeclaration inner session = .ok value after ↔
        ∃ (phrase : String × Nat × Block) (place : Cursor),
          session.cursor.Passes (functionHead phrase.1 ++ bodyTokens phrase.2.1 phrase.2.2) place ∧
          True ∧ session.names.Admits
            (⟨session.function, .header phrase.1⟩ :: phrase.2.2.occurrences phrase.1) ∧
          after = session.advance place (functionLines (phrase.1, phrase.2.2)) []
            (⟨session.function, .header phrase.1⟩ :: phrase.2.2.occurrences phrase.1) := by
    intro value after
    rw [functionDeclaration_eq_ok_iff translates ready light isKind]
    simp only [Prod.exists, true_and]
  rw [lineEnd_after_eq_ok_iff (fun _ _ => True) ready.valid spec fun _ => trivial]
  constructor
  · rintro ⟨⟨name, gap, body⟩, endGap, place, passes, notNewline, admits, rfl⟩
    refine ⟨.function name gap body endGap .nil, place, .function name gap body endGap, ?_,
      notNewline, ?_, ?_⟩
    · simpa [Block.tokens, bodyTokens] using passes
    · simpa [Block.occurrences] using admits
    · have noFunctions := admits.2.functions_eq_nil admits.1.2.1
      simp [Session.past, Block.functions, Block.lines, Block.occurrences, noFunctions]
  · rintro ⟨block, place, isStatement, passes, notNewline, admits, rfl⟩
    cases isStatement with
    | action statement gap =>
        have isAction := isKind.symm.trans (Block.kind_of_passes_action passes)
        cases statement <;> contradiction
    | function name gap body endGap =>
        simp only [Block.occurrences, List.append_nil] at admits
        refine ⟨⟨name, gap, body⟩, endGap, place, ?_, notNewline, admits, ?_⟩
        · simpa [Block.tokens, bodyTokens] using passes
        · have noFunctions := admits.2.functions_eq_nil admits.1.2.1
          simp [Session.past, Block.functions, Block.lines, Block.occurrences, noFunctions]
    | guarded guard condition gap body endGap =>
        have isGuard := isKind.symm.trans (Block.kind_of_passes_guarded passes)
        cases guard <;> contradiction

theorem conditionalBlock_statement_eq_ok_iff (guard : Guard) (translates : Translates bound inner)
    (ready : session.Ready history earlier) (light : session.weight ≤ bound + 1)
    (isKind : session.current.kind = guard.kind) :
    (conditionalBlock guard.kind.spelling inner >>= fun _ => lineEnd) session =
        .ok value after ↔
      SomeStatement session earlier after := by
  have spec : ∀ (value : Unit) (after : Session),
      conditionalBlock guard.kind.spelling inner session = .ok value after ↔
        ∃ (phrase : Comparison × Nat × Block) (place : Cursor),
          session.cursor.Passes
            (guardHead guard phrase.1 ++ bodyTokens phrase.2.1 phrase.2.2) place ∧
          True ∧ session.names.Admits
            (within session.function ((Phrase.reads phrase.1).map .use) ++
              phrase.2.2.occurrences session.function) ∧
          after = session.advance place (phrase.2.2.functions.flatMap functionLines)
            (.openGuard guard phrase.1 :: phrase.2.2.lines earlier ++ [.close])
            (within session.function ((Phrase.reads phrase.1).map .use) ++
              phrase.2.2.occurrences session.function) := by
    intro value after
    rw [conditionalBlock_eq_ok_iff guard translates ready light isKind]
    simp only [Prod.exists, true_and]
  rw [lineEnd_after_eq_ok_iff (fun _ _ => True) ready.valid spec fun _ => trivial]
  constructor
  · rintro ⟨⟨condition, gap, body⟩, endGap, place, passes, notNewline, admits, rfl⟩
    refine ⟨.guarded guard condition gap body endGap .nil, place,
      .guarded guard condition gap body endGap, ?_, notNewline, ?_, ?_⟩
    · simpa [Block.tokens, bodyTokens] using passes
    · simpa [Block.occurrences] using admits
    · simp [Session.past, Block.functions, Block.lines, Block.occurrences]
  · rintro ⟨block, place, isStatement, passes, notNewline, admits, rfl⟩
    cases isStatement with
    | action statement gap =>
        have isAction := isKind.symm.trans (Block.kind_of_passes_action passes)
        cases guard <;> cases statement <;> contradiction
    | function name gap body endGap =>
        have isFunction := isKind.symm.trans (Block.kind_of_passes_function passes)
        cases guard <;> contradiction
    | guarded other condition gap body endGap =>
        have same : other = guard := by
          have isGuard := isKind.symm.trans (Block.kind_of_passes_guarded passes)
          cases guard <;> cases other <;> first | rfl | contradiction
        subst same
        simp only [Block.occurrences, List.append_nil] at admits
        refine ⟨⟨condition, gap, body⟩, endGap, place, ?_, notNewline, admits, ?_⟩
        · simpa [Block.tokens, bodyTokens] using passes
        · simp [Session.past, Block.functions, Block.lines, Block.occurrences]

/-- If a rule translates the statements in light sessions, the rule for statements
around it translates those in sessions one heavier. -/
theorem statementOver_translates (translates : Translates bound inner) :
    Translates (bound + 1) (statementOver inner) := by
  intro session after value history earlier ready light notEnd
  simp only [statementOver, get_bind]
  cases isKind : session.current.kind with
  | printKeyword =>
      exact print_performs.statement_eq_ok_iff ready isKind (by decide)
  | identifier => exact call_performs.statement_eq_ok_iff ready isKind (by decide)
  | labelKeyword => exact label_performs.statement_eq_ok_iff ready isKind (by decide)
  | gotoKeyword => exact goto_performs.statement_eq_ok_iff ready isKind (by decide)
  | letKeyword => exact let_performs.statement_eq_ok_iff ready isKind (by decide)
  | inputKeyword => exact input_performs.statement_eq_ok_iff ready isKind (by decide)
  | fnKeyword => exact functionDeclaration_statement_eq_ok_iff translates ready light isKind
  | ifKeyword => exact conditionalBlock_statement_eq_ok_iff .once translates ready light isKind
  | whileKeyword => exact conditionalBlock_statement_eq_ok_iff .loop translates ready light isKind
  | _ =>
      constructor
      · intro run
        simp at run
      · rintro ⟨block, place, isStatement, passes, _⟩
        have starts := Block.starts_of_passes isStatement.ne_nil passes
        rw [Session.current_cursor, isKind] at starts
        contradiction

theorem statementWithin_translates (depth : Nat) : Translates depth (statementWithin depth) := by
  induction depth with
  | zero =>
      intro session after value history earlier ready light notEnd
      exact absurd (Cursor.current_of_weight_eq_zero (Nat.le_zero.mp light)) notEnd
  | succ depth inductionHypothesis => exact statementOver_translates inductionHypothesis

/-- The rule for statements translates statements. -/
theorem statement_translates (bound : Nat) : Translates bound statement := by
  intro session after value history earlier ready _ notEnd
  rw [statement, get_bind]
  exact statementWithin_translates session.remaining ready session.weight_le_remaining notEnd

end Rule

end TeenyC
