import TeenyC.Compile.Expression
import TeenyC.Proofs.Compile.Repetition
import TeenyC.Proofs.Syntax.Expression

/-!
# What the rules for expressions recognise

Each rule for expressions succeeds exactly where the tokens ahead start with a
phrase of its kind that the token after it does not continue, and whose variables
are all declared.  It goes past the phrase, writes its C text and changes nothing
else.  `expression_recognises` and `comparison_recognises` are the main statements.
-/

namespace TeenyC

open Syntax

/-- All the names are declared variables of the function that is being compiled. -/
def Session.Declares (session : Session) (names : List String) : Prop :=
  ∀ name ∈ names, session.table.declares session.function name = true

theorem Session.declares_append {session : Session} {first second : List String} :
    session.Declares (first ++ second) ↔ session.Declares first ∧ session.Declares second := by
  simp only [Declares, List.mem_append, or_imp, forall_and]

namespace Rule

/-- A rule recognises phrases: it succeeds exactly by going past one and writing its
text.  The token after the phrase is not one that continues it, and the variables
of the phrase are declared. -/
def Recognises (rule : Rule Unit) (α : Type) [Phrase α] (continues : Kind → Bool) : Prop :=
  ∀ ⦃session after : Session⦄ ⦃value : Unit⦄, session.Valid →
    (rule session = .ok value after ↔
      ∃ (phrase : α) (place : Cursor), session.cursor.Passes (Phrase.tokens phrase) place ∧
        continues place.current.kind = false ∧ session.Declares (Phrase.reads phrase) ∧
        after = (session.moveTo place).write (Phrase.text phrase))

/-! ## Operands -/

theorem primary_recognises : Recognises primary Operand fun _ => false := by
  intro session after value valid
  simp only [primary, get_bind]
  constructor
  · intro run
    cases isKind : session.current.kind with
    | number =>
        rw [isKind] at run
        simp only [write_bind, shift_eq_ok_iff] at run
        rcases run with ⟨place, passes, rfl⟩
        have token : session.current = Operand.token (.number session.current.text) := by
          rw [Operand.token, ← isKind]
        refine ⟨.number session.current.text, place, ?_, trivial, nofun, rfl⟩
        change session.cursor.Passes [Operand.token _] place
        rw [← token]
        exact passes
    | identifier =>
        rw [isKind] at run
        simp only [Bool.not_eq_true'] at run
        split at run
        · simp at run
        · next declared =>
            simp only [write_bind, shift_eq_ok_iff] at run
            rcases run with ⟨place, passes, rfl⟩
            have token : session.current = Operand.token (.reference session.current.text) := by
              rw [Operand.token, Token.ofName, ← isKind]
            refine ⟨.reference session.current.text, place, ?_, trivial, ?_, rfl⟩
            · change session.cursor.Passes [Operand.token _] place
              rw [← token]
              exact passes
            · intro name isIn
              rw [List.mem_singleton.mp isIn]
              simpa using declared
    | _ =>
        rw [isKind] at run
        simp at run
  · rintro ⟨operand, place, passes, -, declared, rfl⟩
    have token : session.current = operand.token := passes.current_eq
    have moves : shift (session.write session.current.text) =
        .ok value ((session.moveTo place).write (Phrase.text operand)) := by
      refine shift_eq_ok_iff.mpr ⟨place, ?_, ?_⟩
      · simp only [Session.cursor_write, Session.current_write, token]
        exact passes
      · rw [token]
        rfl
    cases operand with
    | number text =>
        have isNumber : session.current.kind = .number := by
          rw [token]
          rfl
        rw [isNumber]
        exact moves
    | reference name =>
        have isName : session.current.kind = .identifier := by
          rw [token]
          rfl
        have isDeclared : session.table.declares session.function session.current.text = true := by
          rw [token]
          exact declared name List.mem_cons_self
        rw [isName]
        simp only [isDeclared, Bool.not_true, Bool.false_eq_true, if_false]
        exact moves

/-! ## Signs -/

theorem isAt_sign_iff {session : Session} :
    (session.isAt .plus || session.isAt .minus) = true ↔ session.current.kind.isSign = true := by
  simp only [Session.isAt, Bool.or_eq_true, Token.is_eq_true_iff]
  cases session.current.kind <;> simp [Kind.isSign]

theorem isAt_scale_iff {session : Session} :
    (session.isAt .times || session.isAt .divide) = true ↔
      session.current.kind.isScale = true := by
  simp only [Session.isAt, Bool.or_eq_true, Token.is_eq_true_iff]
  cases session.current.kind <;> simp [Kind.isScale]

theorem isFixed_of_isSign {kind : Kind} (isSign : kind.isSign = true) :
    kind.isFixed = true := by
  cases kind <;> first | rfl | contradiction

theorem isFixed_of_isScale {kind : Kind} (isScale : kind.isScale = true) :
    kind.isFixed = true := by
  cases kind <;> first | rfl | contradiction

theorem isFixed_of_isComparison {kind : Kind} (compares : kind.isComparison = true) :
    kind.isFixed = true := by
  cases kind <;> first | rfl | contradiction

theorem operand_token_not_isSign (operand : Operand) : operand.token.kind.isSign = false := by
  cases operand <;> rfl

theorem unary_recognises : Recognises unary Unary fun _ => false := by
  intro session after value valid
  simp only [unary, get_bind]
  constructor
  · intro run
    split at run
    · next atSign =>
        have isSign := isAt_sign_iff.mp atSign
        simp only [write_bind, bind_eq_ok_iff, shift_eq_ok_iff] at run
        rcases run with ⟨_, _, ⟨middle, first, rfl⟩, rest⟩
        have token : session.current = .ofKind session.current.kind :=
          valid.current.eq_ofKind rfl (isFixed_of_isSign isSign)
        rcases (primary_recognises ((valid.write _).moveTo first)).mp rest with
          ⟨operand, place, second, -, declared, rfl⟩
        refine ⟨⟨some ⟨_, isSign⟩, operand⟩, place, ?_, trivial, declared, ?_⟩
        · change session.cursor.Passes (Token.ofKind session.current.kind :: [operand.token]) place
          rw [← token]
          exact first.trans second
        · have spelled : session.current.text = session.current.kind.spelling :=
            congrArg Token.text token
          simp [Phrase.text, signText, spelled]
    · next notAtSign =>
        rcases (primary_recognises valid).mp run with ⟨operand, place, passes, -, declared, rfl⟩
        refine ⟨⟨none, operand⟩, place, passes, trivial, declared, ?_⟩
        simp [Phrase.text, signText]
  · rintro ⟨⟨sign, operand⟩, place, passes, -, declared, rfl⟩
    cases sign with
    | none =>
        have token : session.current = operand.token := passes.current_eq
        have notAtSign : ¬ (session.isAt .plus || session.isAt .minus) = true := by
          rw [isAt_sign_iff, token, operand_token_not_isSign]
          decide
        rw [if_neg notAtSign]
        refine (primary_recognises valid).mpr ⟨operand, place, passes, rfl, declared, ?_⟩
        simp [Phrase.text, signText]
    | some sign =>
        rcases Cursor.passes_cons_iff.mp passes with ⟨here, middle, first, second⟩
        have token : session.current = .ofKind sign := here
        have atSign : (session.isAt .plus || session.isAt .minus) = true := by
          rw [isAt_sign_iff, token]
          exact sign.2
        rw [if_pos atSign]
        simp only [write_bind, bind_eq_ok_iff, shift_eq_ok_iff]
        refine ⟨(), _, ⟨middle, ?_, rfl⟩, ?_⟩
        · simp only [Session.cursor_write, Session.current_write, token]
          exact first
        · refine (primary_recognises ((valid.write _).moveTo first)).mpr
            ⟨operand, place, second, rfl, declared, ?_⟩
          simp [Phrase.text, signText, token]

/-! ## Chains -/

section Chains

variable {joins continues : Kind → Bool} {item : Rule Unit} {α : Type} [Phrase α]
  {session after : Session} {value : Unit}

/-- What the rules of a chain rely on: the rule for its items recognises them, and
its operators are no part of an item. -/
structure Links (joins continues : Kind → Bool) (item : Rule Unit) (α : Type) [Phrase α] :
    Prop where
  recognises : Recognises item α continues
  operators : ∀ ⦃kind : Kind⦄, joins kind = true → kind.isFixed = true
  apart : ∀ ⦃kind : Kind⦄, joins kind = true → continues kind = false

/-- One operator with the item after it. -/
theorem Links.link_eq_ok_iff (links : Links joins continues item α) (valid : session.Valid)
    (atOperator : joins session.current.kind = true) :
    (binaryOperator >>= fun _ => item) session = .ok value after ↔
      ∃ (kind : { kind : Kind // joins kind = true }) (phrase : α) (place : Cursor),
        session.cursor.Passes (.ofKind kind :: Phrase.tokens phrase) place ∧
        continues place.current.kind = false ∧ session.Declares (Phrase.reads phrase) ∧
        after = (session.moveTo place).write
          (" " ++ kind.1.spelling ++ " " ++ Phrase.text phrase) := by
  have token : session.current = .ofKind session.current.kind :=
    valid.current.eq_ofKind rfl (links.operators atOperator)
  have spelled : session.current.text = session.current.kind.spelling := congrArg Token.text token
  rw [bind_eq_ok_iff]
  simp only [binaryOperator, get_bind, write_bind, shift_eq_ok_iff]
  constructor
  · rintro ⟨_, _, ⟨middle, first, rfl⟩, rest⟩
    simp only [Session.cursor_write, Session.current_write] at first
    rcases (links.recognises ((valid.write _).moveTo first)).mp rest with
      ⟨phrase, place, second, stops, declared, rfl⟩
    refine ⟨⟨_, atOperator⟩, phrase, place, ?_, stops, declared, ?_⟩
    · rw [← token]
      exact first.trans second
    · simp [spelled, String.append_assoc]
  · rintro ⟨kind, phrase, place, passes, stops, declared, rfl⟩
    rcases Cursor.passes_cons_iff.mp passes with ⟨here, middle, first, second⟩
    have isKind : session.current.kind = kind := congrArg Token.kind here
    refine ⟨(), _, ⟨middle, ?_, rfl⟩, ?_⟩
    · simp only [Session.cursor_write, Session.current_write]
      rw [token, isKind]
      exact first
    · refine (links.recognises ((valid.write _).moveTo first)).mpr
        ⟨phrase, place, second, stops, declared, ?_⟩
      simp [spelled, isKind, String.append_assoc]

theorem Links.progresses (links : Links joins continues item α) :
    Progresses Session.Valid (fun session => joins session.current.kind)
      (binaryOperator >>= fun _ => item) where
  stops session atEnd := by
    apply Bool.eq_false_iff.mpr
    intro atOperator
    exact Kind.ne_endOfInput_of_isFixed (links.operators atOperator) atEnd
  moves session after value valid atOperator run := by
    rcases (links.link_eq_ok_iff valid atOperator).mp run with
      ⟨kind, phrase, place, passes, _, _, rfl⟩
    exact ⟨passes.valid valid,
      passes.lighter valid (Kind.ne_endOfInput_of_isFixed (links.operators kind.2))⟩

/-- The item before the tail of a chain is not continued by it. -/
theorem Links.continues_false_before_tail (links : Links joins continues item α)
    {tail : List ({ kind : Kind // joins kind = true } × α)} {middle place : Cursor}
    (passes : middle.Passes (tailTokens tail) place)
    (stopsAfter : continues place.current.kind = false) :
    continues middle.current.kind = false := by
  cases tail with
  | nil =>
      have here := Cursor.passes_nil_iff.mp passes
      rw [← here]
      exact stopsAfter
  | cons link rest =>
      have here : middle.current = .ofKind link.1 := passes.current_eq
      rw [here]
      exact links.apart link.1.2

/-- The operators of a chain with the items after them. -/
theorem Links.tail_eq_ok_iff (links : Links joins continues item α) (valid : session.Valid)
    (stopsBefore : continues session.current.kind = false) :
    repeatWhile (fun session => joins session.current.kind) (binaryOperator >>= fun _ => item)
        session = .ok value after ↔
      ∃ (tail : List ({ kind : Kind // joins kind = true } × α)) (place : Cursor),
        session.cursor.Passes (tailTokens tail) place ∧
        continues place.current.kind = false ∧ joins place.current.kind = false ∧
        session.Declares (tailReads tail) ∧
        after = (session.moveTo place).write (tailText tail) := by
  rw [repeatWhile_eq_ok_iff links.progresses valid]
  constructor
  · intro repeats
    induction repeats with
    | @stop session fails =>
        exact ⟨[], session.cursor, .none _, stopsBefore, fails, nofun, by simp [tailText]⟩
    | @again session middle after holds first _ inductionHypothesis =>
        rcases (links.link_eq_ok_iff valid holds).mp first with
          ⟨kind, phrase, place, passes, stops, declared, rfl⟩
        obtain ⟨tail, target, others, stopsAfter, ends, tailDeclared, rfl⟩ :=
          inductionHypothesis (passes.valid valid) stops
        refine ⟨(kind, phrase) :: tail, target, passes.trans others, stopsAfter, ends, ?_, ?_⟩
        · exact Session.declares_append.mpr ⟨declared, tailDeclared⟩
        · simp [tailText]
  · rintro ⟨tail, place, passes, stopsAfter, ends, declared, rfl⟩
    induction tail generalizing session with
    | nil =>
        have here := Cursor.passes_nil_iff.mp passes
        subst here
        simpa [tailText] using Repeats.stop ends
    | cons link tail inductionHypothesis =>
        rcases link with ⟨kind, phrase⟩
        rcases Cursor.passes_append_iff.mp passes with ⟨middle, first, others⟩
        rcases Session.declares_append.mp declared with ⟨headDeclared, tailDeclared⟩
        have atOperator : joins session.current.kind = true := by
          have here : session.current = .ofKind kind := first.current_eq
          rw [here]
          exact kind.2
        have middleStops := links.continues_false_before_tail others stopsAfter
        refine .again atOperator
          ((links.link_eq_ok_iff valid atOperator).mpr
            ⟨kind, phrase, middle, first, middleStops, headDeclared, rfl⟩) ?_
        have rest := inductionHypothesis
          ((valid.moveTo first).write (" " ++ kind.1.spelling ++ " " ++ Phrase.text phrase))
          middleStops others tailDeclared
        simpa [tailText] using rest

/-- A chain is recognised by its first item and what follows it. -/
theorem Links.chain_recognises (links : Links joins continues item α) :
    Recognises
      (item >>= fun _ =>
        repeatWhile (fun session => joins session.current.kind) (binaryOperator >>= fun _ => item))
      (Chain joins α) (fun kind => continues kind || joins kind) := by
  intro session after value valid
  rw [bind_eq_ok_iff]
  constructor
  · rintro ⟨_, _, first, rest⟩
    rcases (links.recognises valid).mp first with ⟨head, middle, toMiddle, stops, headDeclared, rfl⟩
    rcases (links.tail_eq_ok_iff ((valid.moveTo toMiddle).write _) stops).mp rest with
      ⟨tail, place, toPlace, stopsAfter, ends, tailDeclared, rfl⟩
    refine ⟨⟨head, tail⟩, place, toMiddle.trans toPlace, ?_, ?_, ?_⟩
    · simp [stopsAfter, ends]
    · exact Session.declares_append.mpr ⟨headDeclared, tailDeclared⟩
    · simp [Phrase.text]
  · rintro ⟨⟨head, tail⟩, place, passes, stops, declared, rfl⟩
    rcases Cursor.passes_append_iff.mp passes with ⟨middle, toMiddle, toPlace⟩
    rcases Session.declares_append.mp declared with ⟨headDeclared, tailDeclared⟩
    rcases Bool.or_eq_false_iff.mp stops with ⟨stopsAfter, ends⟩
    have middleStops := links.continues_false_before_tail toPlace stopsAfter
    refine ⟨(), _, (links.recognises valid).mpr
      ⟨head, middle, toMiddle, middleStops, headDeclared, rfl⟩, ?_⟩
    refine (links.tail_eq_ok_iff ((valid.moveTo toMiddle).write _) middleStops).mpr
      ⟨tail, place, toPlace, stopsAfter, ends, tailDeclared, ?_⟩
    simp [Phrase.text]

end Chains

/-! ## Terms, expressions and comparisons -/

theorem term_links : Links Kind.isScale (fun _ => false) unary Unary where
  recognises := unary_recognises
  operators _ := isFixed_of_isScale
  apart _ _ := rfl

theorem term_recognises : Recognises term Term Kind.isScale := by
  have condition : (fun session : Session => session.isAt .times || session.isAt .divide) =
      fun session => session.current.kind.isScale := by
    funext session
    exact Bool.eq_iff_iff.mpr isAt_scale_iff
  have chain := term_links.chain_recognises
  simp only [Bool.false_or] at chain
  rw [term, condition]
  exact chain

theorem expression_links : Links Kind.isSign Kind.isScale term Term where
  recognises := term_recognises
  operators _ := isFixed_of_isSign
  apart kind isSign := by
    cases kind <;> simp_all [Kind.isSign, Kind.isScale]

/-- The operators that continue an expression. -/
def continuesExpression (kind : Kind) : Bool :=
  kind.isScale || kind.isSign

theorem expression_recognises : Recognises expression Expression continuesExpression := by
  have condition : (fun session : Session => session.isAt .plus || session.isAt .minus) =
      fun session => session.current.kind.isSign := by
    funext session
    exact Bool.eq_iff_iff.mpr isAt_sign_iff
  rw [expression, condition]
  exact expression_links.chain_recognises

theorem comparison_links : Links Kind.isComparison continuesExpression expression Expression where
  recognises := expression_recognises
  operators _ := isFixed_of_isComparison
  apart kind compares := by
    cases kind <;> simp_all [Kind.isComparison, continuesExpression, Kind.isSign, Kind.isScale]

/-- The operators that continue a comparison. -/
def continuesComparison (kind : Kind) : Bool :=
  continuesExpression kind || kind.isComparison

theorem comparison_recognises : Recognises comparison Comparison continuesComparison := by
  intro session after value valid
  simp only [comparison, bind_eq_ok_iff, get_bind]
  constructor
  · rintro ⟨_, _, first, rest⟩
    rcases (expression_recognises valid).mp first with
      ⟨head, middle, toMiddle, stops, headDeclared, rfl⟩
    split at rest
    · simp at rest
    · next compares =>
        rcases (comparison_links.tail_eq_ok_iff ((valid.moveTo toMiddle).write _) stops).mp
            rest with
          ⟨tail, place, toPlace, stopsAfter, ends, tailDeclared, rfl⟩
        have nonempty : tail ≠ [] := by
          rintro rfl
          have here := Cursor.passes_nil_iff.mp toPlace
          rw [here] at ends
          exact compares (by simpa using ends)
        refine ⟨⟨⟨head, tail⟩, nonempty⟩, place, toMiddle.trans toPlace, ?_, ?_, ?_⟩
        · simp [continuesComparison, stopsAfter, ends]
        · exact Session.declares_append.mpr ⟨headDeclared, tailDeclared⟩
        · simp [Phrase.text]
  · rintro ⟨⟨⟨head, tail⟩, nonempty⟩, place, passes, stops, declared, rfl⟩
    rcases Cursor.passes_append_iff.mp passes with ⟨middle, toMiddle, toPlace⟩
    rcases Session.declares_append.mp declared with ⟨headDeclared, tailDeclared⟩
    rcases Bool.or_eq_false_iff.mp stops with ⟨stopsAfter, ends⟩
    have middleStops := comparison_links.continues_false_before_tail toPlace stopsAfter
    refine ⟨(), _, (expression_recognises valid).mpr
      ⟨head, middle, toMiddle, middleStops, headDeclared, rfl⟩, ?_⟩
    have compares : middle.current.kind.isComparison = true := by
      obtain ⟨link, rest, rfl⟩ := List.exists_cons_of_ne_nil nonempty
      have here : middle.current = .ofKind link.1 := toPlace.current_eq
      rw [here]
      exact link.1.2
    rw [if_neg (by simp [compares])]
    refine (comparison_links.tail_eq_ok_iff ((valid.moveTo toMiddle).write _) middleStops).mpr
      ⟨tail, place, toPlace, stopsAfter, ends, tailDeclared, ?_⟩
    simp [Phrase.text]

end Rule

end TeenyC
