import TeenyC.Compile.Statement
import TeenyC.Proofs.Compile.Advance
import TeenyC.Proofs.Syntax.Layout

/-!
# What the rules for line ends and actions recognise

The rules for statements that hold no other statements.  Each succeeds exactly where
the tokens ahead start with an action of its kind whose names the tables admit, and
advances the session by its lines and events.
-/

namespace TeenyC.Syntax.Action

/-- Whether an action can end before a token of a kind.  One that ends with an
expression cannot end before an operator that continues the expression. -/
def EndsBefore (next : Kind) : Action → Prop
  | printValue _ | assign _ _ => Rule.continuesExpression next = false
  | _ => True

theorem kind_of_passes {statement : Action} {cursor place : Cursor}
    (passes : cursor.Passes statement.tokens place) : cursor.current.kind = statement.kind := by
  cases statement <;> exact congrArg Token.kind passes.current_eq

end TeenyC.Syntax.Action

namespace TeenyC.Rule

open Syntax

variable {session after : Session} {value : Unit} {history : List Occurrence}
  {earlier : List String}

/-! ## Line ends -/

theorem isAt_eq_true_iff {kind : Kind} :
    session.isAt kind = true ↔ session.current.kind = kind :=
  Token.is_eq_true_iff

/-- Going past a token of a kind that has only one text. -/
theorem shift_eq_ok_iff_ofKind {kind : Kind} (valid : session.Valid)
    (isKind : session.current.kind = kind) (fixed : kind.isFixed = true) :
    shift session = .ok value after ↔
      ∃ place, session.cursor.Passes [.ofKind kind] place ∧ after = session.moveTo place := by
  have token : session.current = .ofKind kind := valid.current.eq_ofKind isKind fixed
  rw [shift_eq_ok_iff, token]

theorem newlines_progress : Progresses Session.Valid (·.isAt .newline) shift where
  stops session atEnd := by
    apply Bool.eq_false_iff.mpr
    intro atNewline
    rw [isAt_eq_true_iff, atEnd] at atNewline
    contradiction
  moves session after value valid atNewline run := by
    have isNewline := isAt_eq_true_iff.mp atNewline
    rcases (shift_eq_ok_iff_ofKind valid isNewline rfl).mp run with ⟨place, passes, rfl⟩
    exact ⟨passes.valid valid, passes.lighter valid (by decide)⟩

theorem skipNewlines_eq_ok_iff (valid : session.Valid) :
    skipNewlines session = .ok value after ↔
      ∃ count place, session.cursor.Passes (List.replicate count .newline) place ∧
        place.current.kind ≠ .newline ∧ after = session.moveTo place := by
  rw [skipNewlines, repeatWhile_eq_ok_iff newlines_progress valid]
  constructor
  · intro repeats
    induction repeats with
    | @stop session fails =>
        refine ⟨0, session.cursor, .none _, ?_, rfl⟩
        intro isNewline
        exact Bool.eq_false_iff.mp fails (isAt_eq_true_iff.mpr isNewline)
    | @again session middle after holds first _ inductionHypothesis =>
        have isNewline := isAt_eq_true_iff.mp holds
        rcases (shift_eq_ok_iff_ofKind valid isNewline rfl).mp first with ⟨next, toNext, rfl⟩
        obtain ⟨count, place, toPlace, ends, rfl⟩ := inductionHypothesis (toNext.valid valid)
        exact ⟨count + 1, place, toNext.trans toPlace, ends, rfl⟩
  · rintro ⟨count, place, passes, ends, rfl⟩
    induction count generalizing session with
    | zero =>
        have here := Cursor.passes_nil_iff.mp passes
        subst here
        refine .stop (Bool.eq_false_iff.mpr ?_)
        intro atNewline
        exact ends (isAt_eq_true_iff.mp atNewline)
    | succ count inductionHypothesis =>
        rcases Cursor.passes_cons_iff.mp passes with ⟨here, next, toNext, toPlace⟩
        have isNewline : session.current.kind = .newline := congrArg Token.kind here
        exact .again (isAt_eq_true_iff.mpr isNewline)
          ((shift_eq_ok_iff_ofKind valid isNewline rfl).mpr ⟨next, toNext, rfl⟩)
          (inductionHypothesis (valid.moveTo toNext) toPlace)

/-- One line end or more. -/
theorem lineEnd_eq_ok_iff (valid : session.Valid) :
    lineEnd session = .ok value after ↔
      ∃ gap place, session.cursor.Passes (Syntax.lineEnd gap) place ∧
        place.current.kind ≠ .newline ∧ after = session.moveTo place := by
  rw [lineEnd, bind_eq_ok_iff]
  constructor
  · rintro ⟨_, _, first, others⟩
    rcases (expect_eq_ok_iff_ofKind valid rfl).mp first with ⟨next, toNext, rfl⟩
    rcases (skipNewlines_eq_ok_iff (valid.moveTo toNext)).mp others with
      ⟨gap, place, toPlace, ends, rfl⟩
    exact ⟨gap, place, toNext.trans toPlace, ends, rfl⟩
  · rintro ⟨gap, place, passes, ends, rfl⟩
    rcases Cursor.passes_cons_iff.mp passes with ⟨_, next, toNext, toPlace⟩
    exact ⟨(), _, (expect_eq_ok_iff_ofKind valid rfl).mpr ⟨next, toNext, rfl⟩,
      (skipNewlines_eq_ok_iff (valid.moveTo toNext)).mpr ⟨gap, place, toPlace, ends, rfl⟩⟩

/-! ## Actions -/

/-- A keyword with a name after it. -/
theorem named_eq_ok_iff {kind : Kind} {next : String → Rule Unit} (valid : session.Valid)
    (isKind : session.current.kind = kind) (fixed : kind.isFixed = true) :
    (shift >>= fun _ => identifier >>= next) session = .ok value after ↔
      ∃ name place, session.cursor.Passes [.ofKind kind, .ofName name] place ∧
        next name (session.moveTo place) = .ok value after := by
  simp only [bind_eq_ok_iff, shift_eq_ok_iff_ofKind valid isKind fixed, identifier_eq_ok_iff]
  constructor
  · rintro ⟨_, _, ⟨middle, first, rfl⟩, name, _, ⟨place, second, rfl⟩, rest⟩
    exact ⟨name, place, first.trans second, rest⟩
  · rintro ⟨name, place, passes, rest⟩
    rcases Cursor.passes_cons_iff.mp passes with ⟨_, middle, first, second⟩
    exact ⟨(), _, ⟨middle, first, rfl⟩, name, _, ⟨place, second, rfl⟩, rest⟩

/-- At tokens of a kind, a rule performs actions: it succeeds exactly by going past
one whose names are admitted, and advances by its lines and events. -/
def Performs (kind : Kind) (rule : Rule Unit) : Prop :=
  ∀ ⦃session after : Session⦄ ⦃value : Unit⦄ ⦃history : List Occurrence⦄
    ⦃earlier : List String⦄, session.Ready history earlier → session.current.kind = kind →
    (rule session = .ok value after ↔
      ∃ (statement : Action) (place : Cursor), session.cursor.Passes statement.tokens place ∧
        statement.EndsBefore place.current.kind ∧
        session.names.Admits (within session.function statement.events) ∧
        after = session.advance place [] (statement.lines earlier)
          (within session.function statement.events))

theorem expression_not_at_string {value : Expression} {cursor place : Cursor}
    (passes : cursor.Passes (Phrase.tokens value) place) : cursor.current.kind ≠ .string := by
  obtain ⟨token, rest, tokens, notString⟩ := expression_head value
  rw [tokens] at passes
  rw [passes.current_eq]
  exact notString

/-- A single line, without names. -/
theorem writeLine_eq_advance (session : Session) (place : Cursor) (line : Line) :
    (session.moveTo place).write (line.text ++ "\n") = session.advance place [] [line] [] := by
  rw [← Session.write_moveTo_eq_advance, render, render, String.append_empty]

theorem print_performs : Performs .printKeyword printStatement := by
  intro session after value history earlier ready isKind
  have valid := ready.valid
  simp only [printStatement, bind_eq_ok_iff, shift_eq_ok_iff_ofKind valid isKind rfl, get_bind]
  constructor
  · rintro ⟨_, _, ⟨middle, first, rfl⟩, rest⟩
    split at rest
    · next isString =>
        rw [Session.current_moveTo, Token.is_eq_true_iff] at isString
        simp only [writeLine_bind, shift_eq_ok_iff, Session.cursor_write, Session.cursor_moveTo,
          Session.current_write, Session.current_moveTo] at rest
        rcases rest with ⟨place, second, rfl⟩
        have token : middle.current = ⟨.string, middle.current.text⟩ := by rw [← isString]
        rw [token] at second
        exact ⟨.printText middle.current.text, place, first.trans second, trivial, trivial,
          writeLine_eq_advance session place (.printText middle.current.text)⟩
    · simp only [write_bind, bind_eq_ok_iff] at rest
      rcases rest with ⟨_, _, middleRun, last⟩
      rcases (expression_recognises ((valid.moveTo first).write _)).mp middleRun with
        ⟨phrase, place, second, stops, declared, rfl⟩
      simp only [writeLine_apply, EStateM.Result.ok.injEq, true_and] at last
      subst last
      refine ⟨.printValue phrase, place, first.trans second, stops,
        Names.admits_uses.mpr declared, ?_⟩
      rw [Action.events, Session.advance_uses]
      have line := writeLine_eq_advance session place (.printValue phrase)
      refine Eq.trans ?_ line
      simp only [Session.moveTo_write, Session.moveTo_moveTo, Session.write_write,
        Line.text.eq_def, String.append_assoc]
  · rintro ⟨statement, place, passes, stops, admits, rfl⟩
    have sameKind := isKind.symm.trans (Action.kind_of_passes passes)
    cases statement with
    | printText content =>
        rcases Cursor.passes_cons_iff.mp passes with ⟨_, middle, first, second⟩
        have token : middle.current = ⟨.string, content⟩ := second.current_eq
        refine ⟨(), session.moveTo middle, ⟨middle, first, rfl⟩, ?_⟩
        rw [Session.current_moveTo, if_pos (by rw [token]; rfl)]
        simp only [writeLine_bind, shift_eq_ok_iff, Session.cursor_write, Session.cursor_moveTo,
          Session.current_write, Session.current_moveTo, token]
        exact ⟨place, second, (writeLine_eq_advance session place (.printText content)).symm⟩
    | printValue phrase =>
        rcases Cursor.passes_cons_iff.mp passes with ⟨_, middle, first, second⟩
        refine ⟨(), session.moveTo middle, ⟨middle, first, rfl⟩, ?_⟩
        rw [Session.current_moveTo, if_neg (by simp [expression_not_at_string second])]
        simp only [write_bind, bind_eq_ok_iff]
        refine ⟨(), _, (expression_recognises ((valid.moveTo first).write _)).mpr
          ⟨phrase, place, second, stops, Names.admits_uses.mp admits, rfl⟩, ?_⟩
        rw [Action.events, Session.advance_uses]
        have line := writeLine_eq_advance session place (.printValue phrase)
        refine Eq.trans ?_ (congrArg (EStateM.Result.ok value) line)
        simp only [writeLine_apply, Session.moveTo_write, Session.moveTo_moveTo,
          Session.write_write, Line.text.eq_def, String.append_assoc]
    | _ => contradiction

theorem call_performs : Performs .identifier callStatement := by
  intro session after value history earlier ready isKind
  simp only [callStatement, get_bind]
  constructor
  · intro run
    split at run
    · simp at run
    · next declared =>
        simp only [writeLine_bind, shift_eq_ok_iff, Session.cursor_write,
          Session.current_write] at run
        rcases run with ⟨place, passes, rfl⟩
        have token : session.current = .ofName session.current.text := by
          rw [Token.ofName, ← isKind]
        rw [token] at passes
        refine ⟨.call session.current.text, place, passes, trivial, ⟨?_, trivial⟩, ?_⟩
        · change session.current.text ∈ session.functions
          simpa using declared
        · exact writeLine_eq_advance session place (.call session.current.text)
  · rintro ⟨statement, place, passes, -, admits, rfl⟩
    have sameKind := isKind.symm.trans (Action.kind_of_passes passes)
    cases statement with
    | call name =>
        have token : session.current = .ofName name := passes.current_eq
        have declared : session.functions.contains name = true :=
          NameSet.contains_eq_true_iff.mpr admits.1
        rw [if_neg (by simp [token, declared])]
        simp only [writeLine_bind, shift_eq_ok_iff, Session.cursor_write, Session.current_write,
          token]
        exact ⟨place, passes, (writeLine_eq_advance session place (.call name)).symm⟩
    | _ => contradiction

theorem label_performs : Performs .labelKeyword labelStatement := by
  intro session after value history earlier ready isKind
  rw [labelStatement, named_eq_ok_iff ready.valid isKind rfl]
  simp only [get_bind]
  constructor
  · rintro ⟨name, place, passes, rest⟩
    split at rest
    · simp at rest
    · next isNew =>
        simp only [modify_bind, writeLine_apply, EStateM.Result.ok.injEq, true_and] at rest
        subst rest
        refine ⟨.label name, place, passes, trivial, ⟨?_, trivial⟩, ?_⟩
        · change ¬ name ∈ session.labels
          simpa using isNew
        · exact writeLine_eq_advance { session with labels := session.labels.insert name } place
            (.label name)
  · rintro ⟨statement, place, passes, -, admits, rfl⟩
    have sameKind := isKind.symm.trans (Action.kind_of_passes passes)
    cases statement with
    | label name =>
        refine ⟨name, place, passes, ?_⟩
        have isNew : ¬ name ∈ session.labels := admits.1
        rw [if_neg (by simpa using isNew)]
        exact congrArg (EStateM.Result.ok value) (writeLine_eq_advance
          { session with labels := session.labels.insert name } place (.label name))
    | _ => contradiction

theorem goto_performs : Performs .gotoKeyword gotoStatement := by
  intro session after value history earlier ready isKind
  rw [gotoStatement, named_eq_ok_iff ready.valid isKind rfl]
  simp only [writeLine_bind, modify_apply, EStateM.Result.ok.injEq, true_and]
  have line := fun name place => writeLine_eq_advance
    { session with targets := session.targets.insert name } place (.jump name)
  constructor
  · rintro ⟨name, place, passes, rfl⟩
    exact ⟨.jump name, place, passes, trivial, ⟨trivial, trivial⟩, line name place⟩
  · rintro ⟨statement, place, passes, -, -, rfl⟩
    have sameKind := isKind.symm.trans (Action.kind_of_passes passes)
    cases statement with
    | jump name => exact ⟨name, place, passes, line name place⟩
    | _ => contradiction

/-! ## Assignments -/

/-- A variable is declared in C where it is a target for the first time. -/
theorem declareVariable_apply {name : String}
    (known : session.table.declares session.function name = true ↔ name ∈ earlier) :
    declareVariable name session =
      .ok () (session.advance session.cursor [] (declaration earlier name)
        [⟨session.function, .target name⟩]) := by
  simp only [declareVariable, get_bind, Bool.not_eq_true']
  by_cases declared : session.table.declares session.function name = true
  · have same : session.names.record ⟨session.function, .target name⟩ = session.names :=
      if_pos declared
    rw [if_neg (by simp [declared]), declaration, if_pos (known.mp declared)]
    simp only [Session.advance, Names.recordAll_cons, same]
    exact congrArg (EStateM.Result.ok ()) (Session.moveTo_eq_advance session session.cursor)
  · have added : session.names.record ⟨session.function, .target name⟩ =
        { session.names with table := session.table.declare session.function name } :=
      if_neg declared
    rw [if_pos (by simpa using declared), declaration, if_neg (mt known.mpr declared)]
    simp only [set_bind, writeLine_apply, Session.advance, Names.recordAll_cons, added]
    exact congrArg (EStateM.Result.ok ()) (writeLine_eq_advance
      { session with table := session.table.declare session.function name } session.cursor
      (.declare name))

/-- A keyword with a target after it. -/
theorem targeted_eq_ok_iff {kind : Kind} {next : String → Rule Unit}
    (ready : session.Ready history earlier) (isKind : session.current.kind = kind)
    (fixed : kind.isFixed = true) :
    (shift >>= fun _ => identifier >>= fun name => declareVariable name >>= fun _ => next name)
        session = .ok value after ↔
      ∃ name place, session.cursor.Passes [.ofKind kind, .ofName name] place ∧
        next name (session.advance place [] (declaration earlier name)
          [⟨session.function, .target name⟩]) = .ok value after := by
  rw [named_eq_ok_iff ready.valid isKind fixed]
  refine exists_congr fun name => exists_congr fun place => and_congr_right fun _ => ?_
  have declared : declareVariable name (session.moveTo place) = _ :=
    declareVariable_apply (ready.knows.declares_iff name)
  rw [bind_apply, declared]
  rfl

/-- The part of `let` after its target. -/
theorem assigned_eq_ok_iff (name : String) (valid : session.Valid) :
    (write (name ++ " = ") >>= fun _ => expect .assign >>= fun _ => expression >>= fun _ =>
        writeLine ";") session = .ok value after ↔
      ∃ (phrase : Expression) (place : Cursor),
        session.cursor.Passes (.ofKind .assign :: Phrase.tokens phrase) place ∧
        continuesExpression place.current.kind = false ∧
        session.Declares (Phrase.reads phrase) ∧
        after = session.advance place [] [.assign name phrase] [] := by
  have line : ∀ (phrase : Expression) (middle place : Cursor),
      ((((session.write (name ++ " = ")).moveTo middle).moveTo place).write
        (Phrase.text phrase)).write (";" ++ "\n") =
          session.advance place [] [.assign name phrase] [] := by
    intro phrase middle place
    have written := writeLine_eq_advance session place (.assign name phrase)
    refine Eq.trans ?_ written
    simp only [Session.moveTo_write, Session.moveTo_moveTo, Session.write_write,
      Line.text.eq_def, String.append_assoc]
  have assigns : ∀ (value : Unit) (middle : Session),
      expect .assign (session.write (name ++ " = ")) = .ok value middle ↔ _ :=
    fun value middle => expect_eq_ok_iff_ofKind (valid.write _) rfl
  simp only [write_bind, bind_eq_ok_iff, assigns]
  constructor
  · rintro ⟨_, _, ⟨middle, toMiddle, rfl⟩, _, _, first, last⟩
    rcases (expression_recognises ((valid.write _).moveTo toMiddle)).mp first with
      ⟨phrase, place, toPlace, stops, declared, rfl⟩
    refine ⟨phrase, place, toMiddle.trans toPlace, stops, declared, ?_⟩
    rw [writeLine_apply, line, EStateM.Result.ok.injEq] at last
    exact last.2.symm
  · rintro ⟨phrase, place, passes, stops, declared, rfl⟩
    rcases Cursor.passes_cons_iff.mp passes with ⟨_, middle, toMiddle, toPlace⟩
    refine ⟨(), _, ⟨middle, toMiddle, rfl⟩, (), _,
      (expression_recognises ((valid.write _).moveTo toMiddle)).mpr
        ⟨phrase, place, toPlace, stops, declared, rfl⟩, ?_⟩
    rw [writeLine_apply, line]

theorem let_performs : Performs .letKeyword letStatement := by
  intro session after value history earlier ready isKind
  rw [letStatement, targeted_eq_ok_iff ready isKind rfl]
  have result : ∀ (name : String) (phrase : Expression) (middle place : Cursor),
      (session.advance middle [] (declaration earlier name)
          [⟨session.function, .target name⟩]).advance place [] [.assign name phrase] [] =
        session.advance place [] ((Action.assign name phrase).lines earlier)
          (within session.function (Action.assign name phrase).events) := by
    intro name phrase middle place
    rw [← Session.advance_uses session.function (Phrase.reads phrase),
      Session.advance_advance _ _ (.inr rfl)]
    rfl
  constructor
  · rintro ⟨name, middle, toMiddle, rest⟩
    have valid : (session.advance middle [] (declaration earlier name)
      [⟨session.function, .target name⟩]).Valid := toMiddle.valid ready.valid
    rcases (assigned_eq_ok_iff name valid).mp rest with
      ⟨phrase, place, toPlace, stops, declared, rfl⟩
    exact ⟨.assign name phrase, place, toMiddle.trans toPlace, stops,
      ⟨trivial, Names.admits_uses.mpr declared⟩, result name phrase middle place⟩
  · rintro ⟨statement, place, passes, stops, admits, rfl⟩
    have sameKind := isKind.symm.trans (Action.kind_of_passes passes)
    cases statement with
    | assign name phrase =>
        obtain ⟨middle, toMiddle, toPlace⟩ := Cursor.passes_append_iff.mp
          (show session.cursor.Passes ([.ofKind .letKeyword, .ofName name] ++
            (.ofKind .assign :: Phrase.tokens phrase)) place from passes)
        have valid : (session.advance middle [] (declaration earlier name)
          [⟨session.function, .target name⟩]).Valid := toMiddle.valid ready.valid
        refine ⟨name, middle, toMiddle, (assigned_eq_ok_iff name valid).mpr
          ⟨phrase, place, toPlace, stops, Names.admits_uses.mp admits.2, ?_⟩⟩
        exact (result name phrase middle place).symm
    | _ => contradiction

theorem input_performs : Performs .inputKeyword inputStatement := by
  intro session after value history earlier ready isKind
  rw [inputStatement, targeted_eq_ok_iff ready isKind rfl]
  have result : ∀ (name : String) (place : Cursor),
      (session.advance place [] (declaration earlier name)
          [⟨session.function, .target name⟩]).write
        (render [.openScan name, .assign name (.ofNumber "0"), .discard, .close]) =
        session.advance place [] ((Action.input name).lines earlier)
          (within session.function (Action.input name).events) := by
    intro name place
    have written := Session.write_moveTo_eq_advance (session.advance place []
      (declaration earlier name) [⟨session.function, .target name⟩]) place
      [.openScan name, .assign name (.ofNumber "0"), .discard, .close]
    apply Eq.trans written
    rw [Session.advance_advance _ _ (.inr rfl)]
    rfl
  have texts : ∀ name : String,
      render [.openScan name, .assign name (.ofNumber "0"), .discard, .close] =
        ("if (0 == scanf(\"%f\", &" ++ name ++ ")) \x7b" ++ "\n") ++ (name ++ " = 0;" ++ "\n") ++
          ("scanf(\"%*s\");" ++ "\n") ++ ("\x7d" ++ "\n") := by
    intro name
    have zero : Phrase.text (Expression.ofNumber "0") = "0" := by decide
    have split : " = 0;" = " = " ++ "0" ++ ";" := by decide
    simp only [render, Line.text.eq_def, zero, split, String.append_assoc, String.append_empty]
  simp only [writeLine_bind, writeLine_apply, Session.write_write, EStateM.Result.ok.injEq,
    true_and, ← texts, result]
  constructor
  · rintro ⟨name, place, passes, rfl⟩
    exact ⟨.input name, place, passes, trivial, ⟨trivial, trivial⟩, rfl⟩
  · rintro ⟨statement, place, passes, -, -, rfl⟩
    have sameKind := isKind.symm.trans (Action.kind_of_passes passes)
    cases statement with
    | input name => exact ⟨name, place, passes, rfl⟩
    | _ => contradiction

end TeenyC.Rule
