import TeenyC.Compile.Session
import TeenyC.Proofs.Token.Supply

/-!
# Cursors

The part of a session that holds tokens: the current token, the one after it, and
the lexer that supplies the others.  `Passes` says which tokens a cursor goes past
on its way from one place to another, and `weight` bounds how many there can be.
Going past all tokens up to the end of the input is the same as having the lexer
supply them.
-/

namespace TeenyC

/-- A place in the tokens of a program. -/
structure Cursor where
  lexer : Lexer
  current : Token
  lookahead : Token

namespace Cursor

/-- The lexer is valid and the two tokens that it has given are well-formed. -/
structure Valid (cursor : Cursor) : Prop where
  lexer : cursor.lexer.Valid
  current : cursor.current.WellFormed
  lookahead : cursor.lookahead.WellFormed

/-! ## Going past tokens -/

/-- Going past the given tokens leads from one cursor to the other. -/
inductive Passes : Cursor → List Token → Cursor → Prop
  | none (cursor : Cursor) : Passes cursor [] cursor
  | one {cursor target : Cursor} {token : Token} {after : Lexer} {others : List Token}
      (read : cursor.lexer.next = .ok token after)
      (rest : Passes ⟨after, cursor.lookahead, token⟩ others target) :
      Passes cursor (cursor.current :: others) target

@[simp]
theorem passes_nil_iff {cursor target : Cursor} :
    cursor.Passes [] target ↔ target = cursor := by
  constructor
  · intro passes
    cases passes
    rfl
  · rintro rfl
    exact .none _

theorem passes_cons_iff {cursor target : Cursor} {token : Token} {tokens : List Token} :
    cursor.Passes (token :: tokens) target ↔
      cursor.current = token ∧
        ∃ middle, cursor.Passes [token] middle ∧ middle.Passes tokens target := by
  constructor
  · intro passes
    cases passes with
    | one read rest => exact ⟨rfl, _, .one read (.none _), rest⟩
  · rintro ⟨_, middle, first, rest⟩
    cases first with
    | one read last =>
        cases last
        exact .one read rest

theorem passes_append_iff {cursor target : Cursor} {first second : List Token} :
    cursor.Passes (first ++ second) target ↔
      ∃ middle, cursor.Passes first middle ∧ middle.Passes second target := by
  induction first generalizing cursor with
  | nil => simp
  | cons token rest inductionHypothesis =>
      rw [List.cons_append, passes_cons_iff]
      simp only [inductionHypothesis]
      constructor
      · rintro ⟨here, next, step, middle, toMiddle, toTarget⟩
        exact ⟨middle, passes_cons_iff.mpr ⟨here, next, step, toMiddle⟩, toTarget⟩
      · rintro ⟨middle, toMiddle, toTarget⟩
        rcases passes_cons_iff.mp toMiddle with ⟨here, next, step, others⟩
        exact ⟨here, next, step, middle, others, toTarget⟩

theorem Passes.trans {cursor middle target : Cursor} {first second : List Token}
    (toMiddle : cursor.Passes first middle) (toTarget : middle.Passes second target) :
    cursor.Passes (first ++ second) target :=
  passes_append_iff.mpr ⟨middle, toMiddle, toTarget⟩

/-- The current token is the first one passed. -/
theorem Passes.current_eq {cursor target : Cursor} {token : Token} {tokens : List Token}
    (passes : cursor.Passes (token :: tokens) target) : cursor.current = token :=
  (passes_cons_iff.mp passes).1

theorem Passes.valid {cursor target : Cursor} {tokens : List Token}
    (passes : cursor.Passes tokens target) (valid : cursor.Valid) : target.Valid := by
  induction passes with
  | none => exact valid
  | one read _ inductionHypothesis =>
      have reads := Lexer.reads_of_next valid.lexer read
      exact inductionHypothesis ⟨reads.valid, valid.lookahead, reads.wellFormed⟩

theorem Passes.wellFormed {cursor target : Cursor} {tokens : List Token}
    (passes : cursor.Passes tokens target) (valid : cursor.Valid) :
    ∀ token ∈ tokens, token.WellFormed := by
  induction passes with
  | none => simp
  | one read _ inductionHypothesis =>
      have reads := Lexer.reads_of_next valid.lexer read
      intro token isIn
      rcases List.mem_cons.mp isIn with rfl | isIn
      · exact valid.current
      · exact inductionHypothesis ⟨reads.valid, valid.lookahead, reads.wellFormed⟩ token isIn

/-! ## Weight -/

/-- One for a token of the program, nothing for the end of the input. -/
def tokenWeight (token : Token) : Nat :=
  if token.kind = .endOfInput then 0 else 1

theorem tokenWeight_of_ne {token : Token} (notEnd : token.kind ≠ .endOfInput) :
    tokenWeight token = 1 :=
  if_neg notEnd

/-- A bound on the tokens that come before the end of the input. -/
def weight (cursor : Cursor) : Nat :=
  cursor.lexer.unread + tokenWeight cursor.lookahead + tokenWeight cursor.current

/-- Every token of the program that is passed takes its weight away. -/
theorem Passes.weight_le {cursor target : Cursor} {tokens : List Token}
    (passes : cursor.Passes tokens target) (valid : cursor.Valid) :
    target.weight + tokens.countP (fun token => token.kind ≠ .endOfInput) ≤ cursor.weight := by
  induction passes with
  | none => simp
  | @one cursor target token after others read _ inductionHypothesis =>
      have reads := Lexer.reads_of_next valid.lexer read
      have rest := inductionHypothesis ⟨reads.valid, valid.lookahead, reads.wellFormed⟩
      have supplied : after.unread + tokenWeight token ≤ cursor.lexer.unread := by
        by_cases isEnd : token.kind = .endOfInput
        · simpa [tokenWeight, isEnd] using reads.bounded
        · rw [tokenWeight_of_ne isEnd]
          exact reads.moves isEnd
      have counted : (if cursor.current.kind ≠ .endOfInput then 1 else 0) =
          tokenWeight cursor.current := by
        simp only [tokenWeight, ne_eq, ite_not]
      simp only [weight] at rest ⊢
      simp only [List.countP_cons, decide_eq_true_eq, counted]
      omega

theorem Passes.not_heavier {cursor target : Cursor} {tokens : List Token}
    (passes : cursor.Passes tokens target) (valid : cursor.Valid) :
    target.weight ≤ cursor.weight := by
  have weights := passes.weight_le valid
  omega

/-- Going past a token of the program leads to a lighter cursor. -/
theorem Passes.lighter {cursor target : Cursor} {token : Token} {others : List Token}
    (passes : cursor.Passes (token :: others) target) (valid : cursor.Valid)
    (notEnd : token.kind ≠ .endOfInput) : target.weight < cursor.weight := by
  have weights := passes.weight_le valid
  simp only [List.countP_cons, decide_eq_true_eq, notEnd, ne_eq, not_false_eq_true, if_true]
    at weights
  omega

/-- Going past anything leads to a lighter cursor, unless the end of the input is
there already. -/
theorem Passes.lighter_of_ne_nil {cursor target : Cursor} {tokens : List Token}
    (passes : cursor.Passes tokens target) (valid : cursor.Valid) (notNil : tokens ≠ [])
    (notAtEnd : cursor.current.kind ≠ .endOfInput) : target.weight < cursor.weight := by
  obtain ⟨token, others, rfl⟩ := List.exists_cons_of_ne_nil notNil
  rw [passes.current_eq] at notAtEnd
  exact passes.lighter valid notAtEnd

theorem weight_le_unread (cursor : Cursor) : cursor.weight ≤ cursor.lexer.unread + 2 := by
  simp only [weight, tokenWeight]
  split <;> split <;> omega

theorem current_of_weight_eq_zero {cursor : Cursor} (weightless : cursor.weight = 0) :
    cursor.current.kind = .endOfInput := by
  apply Decidable.byContradiction
  intro notEnd
  simp [weight, tokenWeight_of_ne notEnd] at weightless

/-! ## From the lexer to the cursor -/

/-- The cursor stands at the first token of the lexer. -/
def Heads (lexer : Lexer) (cursor : Cursor) : Prop :=
  ∃ middle, lexer.next = .ok cursor.current middle ∧
    middle.next = .ok cursor.lookahead cursor.lexer

theorem Heads.valid {lexer : Lexer} {cursor : Cursor} (heads : Heads lexer cursor)
    (valid : lexer.Valid) : cursor.Valid := by
  rcases heads with ⟨middle, first, second⟩
  have firstReads := Lexer.reads_of_next valid first
  have secondReads := Lexer.reads_of_next firstReads.valid second
  exact ⟨secondReads.valid, firstReads.wellFormed, secondReads.wellFormed⟩

/-- The tokens passed up to the end of the input are those that the lexer supplies. -/
theorem Passes.supplies {lexer : Lexer} {cursor target : Cursor} {tokens : List Token}
    (passes : cursor.Passes tokens target) (heads : Heads lexer cursor)
    (inside : ∀ token ∈ tokens, token.kind ≠ .endOfInput)
    (atEnd : target.current.kind = .endOfInput) :
    lexer.Supplies (tokens ++ [target.current]) := by
  induction passes generalizing lexer with
  | none =>
      rcases heads with ⟨_, first, _⟩
      exact .last first atEnd
  | one read _ inductionHypothesis =>
      rcases heads with ⟨middle, first, second⟩
      refine .more first (inside _ List.mem_cons_self) ?_
      apply inductionHypothesis ⟨_, second, read⟩ _ atEnd
      intro token isIn
      exact inside token (List.mem_cons_of_mem _ isIn)

/-- A lexer that supplies tokens puts a cursor at the first of them, and the cursor
can go past all of them but the last. -/
theorem exists_passes_of_supplies {lexer : Lexer} {tokens : List Token} {last : Token}
    (valid : lexer.Valid) (supplies : lexer.Supplies (tokens ++ [last])) :
    ∃ cursor target, Heads lexer cursor ∧ cursor.Passes tokens target ∧
      target.current = last ∧ last.kind = .endOfInput := by
  induction tokens generalizing lexer with
  | nil =>
      cases supplies with
      | last first isEnd =>
          have reads := Lexer.reads_of_next valid first
          obtain ⟨after, second, _⟩ := Lexer.next_of_ended (reads.ended isEnd)
          exact ⟨⟨after, last, .endOfInput⟩, _, ⟨_, first, second⟩, .none _, rfl, isEnd⟩
      | more _ _ others => cases others
  | cons token rest inductionHypothesis =>
      rw [List.cons_append] at supplies
      generalize whole : rest ++ [last] = remaining at supplies
      cases supplies with
      | last => simp at whole
      | @more _ after _ _ first notEnd others =>
          subst whole
          have reads := Lexer.reads_of_next valid first
          obtain ⟨next, target, ⟨middle, second, third⟩, passes, here, isEnd⟩ :=
            inductionHypothesis reads.valid others
          exact ⟨⟨middle, token, next.current⟩, target, ⟨after, first, second⟩,
            .one third passes, here, isEnd⟩

end Cursor

end TeenyC
