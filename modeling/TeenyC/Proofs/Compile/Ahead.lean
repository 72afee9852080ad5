import TeenyC.Proofs.Compile.Action
import TeenyC.Proofs.Token.Drain

/-!
# What is ahead of a cursor

The tokens from the current one on, and the way they end, say all that a rule can learn
from a cursor.  The end of the input can be seen and passed again and again; a fault is
met when the token behind the next one would be it, so that a cursor always has two
tokens in front of a fault.
-/

namespace TeenyC

namespace Cursor

/-- From the current token on the cursor has these tokens ahead, and then the end of the
input, or a fault where one is given. -/
inductive Ahead : Cursor → List Token → Option LexicalError → Prop
  | ended {cursor : Cursor} (isEnd : cursor.current.kind = .endOfInput) : Ahead cursor [] none
  | fault {cursor : Cursor} {after : Lexer} {error : LexicalError}
      (currentInside : cursor.current.kind ≠ .endOfInput)
      (lookaheadInside : cursor.lookahead.kind ≠ .endOfInput)
      (fails : cursor.lexer.next = .error error after) :
      Ahead cursor [cursor.current, cursor.lookahead] (some error)
  | more {cursor : Cursor} {after : Lexer} {token : Token} {others : List Token}
      {ending : Option LexicalError} (currentInside : cursor.current.kind ≠ .endOfInput)
      (read : cursor.lexer.next = .ok token after)
      (rest : Ahead ⟨after, cursor.lookahead, token⟩ others ending) :
      Ahead cursor (cursor.current :: others) ending

variable {cursor : Cursor} {tokens : List Token} {ending : Option LexicalError}

theorem Ahead.current_eq (ahead : cursor.Ahead tokens ending) (valid : cursor.Valid) :
    cursor.current = tokens.head?.getD .endOfInput := by
  cases ahead with
  | ended isEnd => exact valid.current.eq_endOfInput isEnd
  | fault => rfl
  | more => rfl

theorem Ahead.lookahead_eq (ahead : cursor.Ahead tokens ending) (valid : cursor.Valid)
    (inside : tokens ≠ []) : cursor.lookahead = tokens.tail.head?.getD .endOfInput := by
  cases ahead with
  | ended => exact absurd rfl inside
  | fault => rfl
  | more _ read rest =>
      have reads := Lexer.reads_of_next valid.lexer read
      exact rest.current_eq ⟨reads.valid, valid.lookahead, reads.wellFormed⟩

theorem Ahead.ne_nil_iff (ahead : cursor.Ahead tokens ending) :
    tokens ≠ [] ↔ cursor.current.kind ≠ .endOfInput := by
  cases ahead with
  | ended isEnd => simp [isEnd]
  | fault currentInside => simp [currentInside]
  | more currentInside => simp [currentInside]

/-- A cursor comes no closer to a fault than two tokens. -/
theorem Ahead.two_le_length {error : LexicalError} (ahead : cursor.Ahead tokens ending)
    (isFault : ending = some error) : 2 ≤ tokens.length := by
  induction ahead with
  | ended => cases isFault
  | fault => exact Nat.le_refl _
  | more _ _ _ inductionHypothesis =>
      have others := inductionHypothesis isFault
      rw [List.length_cons]
      omega

theorem Ahead.length_le_weight (ahead : cursor.Ahead tokens ending) (valid : cursor.Valid) :
    tokens.length ≤ cursor.weight := by
  induction ahead with
  | ended => exact Nat.zero_le _
  | fault currentInside lookaheadInside =>
      simp [weight, tokenWeight_of_ne currentInside, tokenWeight_of_ne lookaheadInside]
  | @more cursor after token others ending currentInside read _ inductionHypothesis =>
      have passes : cursor.Passes [cursor.current] ⟨after, cursor.lookahead, token⟩ :=
        .one read (.none _)
      have others := inductionHypothesis (passes.valid valid)
      have lighter := passes.lighter valid currentInside
      rw [List.length_cons]
      omega

/-- What a lexer gives is ahead of the cursor at its first token.  There is no such cursor
if a fault comes before two tokens are read. -/
theorem exists_ahead_of_drains {lexer : Lexer} (drains : lexer.Drains tokens ending)
    (valid : lexer.Valid) :
    (∃ cursor, Heads lexer cursor ∧ cursor.Ahead tokens ending) ∨
      (∃ error, ending = some error ∧ tokens.length < 2) := by
  induction drains with
  | @ended lexer after token read isEnd =>
      have reads := Lexer.reads_of_next valid read
      obtain ⟨last, readAgain, _⟩ := Lexer.next_of_ended (reads.ended isEnd)
      exact .inl ⟨⟨last, token, .endOfInput⟩, ⟨after, read, readAgain⟩, .ended isEnd⟩
  | @fault lexer after error fails => exact .inr ⟨error, rfl, Nat.two_pos⟩
  | @more lexer after token others ending read notEnd rest inductionHypothesis =>
      rcases inductionHypothesis (Lexer.reads_of_next valid read).valid with
        ⟨next, ⟨middle, second, third⟩, ahead⟩ | ⟨error, isFault, short⟩
      · exact .inl ⟨⟨middle, token, next.current⟩, ⟨after, read, second⟩, .more notEnd third ahead⟩
      · cases rest with
        | ended => cases isFault
        | fault => exact .inr ⟨error, isFault, Nat.one_lt_two⟩
        | more second secondInside last =>
            cases last with
            | ended => cases isFault
            | fault fails =>
                exact .inl ⟨⟨_, token, _⟩, ⟨after, read, second⟩, .fault notEnd secondInside fails⟩
            | more => exact absurd short (by simp only [List.length_cons]; omega)

end Cursor

namespace Session

/-- The session is at a place of a source text with these tokens ahead. -/
structure Sees (session : Session) (tokens : List Token) (ending : Option LexicalError) :
    Prop where
  valid : session.Valid
  ahead : session.cursor.Ahead tokens ending

/-- The result of going on to where these tokens are ahead: nothing but the place has
changed, or a fault has been met, before which less than two of the tokens stand. -/
def Reaches (session : Session) (tokens : List Token) (ending : Option LexicalError)
    (result : EStateM.Result Error Session Unit) : Prop :=
  (∃ place, result = .ok () (session.moveTo place) ∧ (session.moveTo place).Sees tokens ending) ∨
    (∃ error after, result = .error (.lexical error) after ∧ ending = some error ∧
      tokens.length < 2)

end Session

namespace Rule

open Session (Sees Reaches)

variable {session : Session} {tokens : List Token} {ending : Option LexicalError}

theorem shift_reaches (sees : session.Sees tokens ending)
    (inside : session.current.kind ≠ .endOfInput) :
    session.Reaches tokens.tail ending (shift session) := by
  rcases sees with ⟨valid, ahead⟩
  generalize isCursor : session.cursor = cursor at ahead
  have lexer_eq : cursor.lexer = session.lexer := by rw [← isCursor]; rfl
  cases ahead with
  | ended isEnd =>
      rw [← isCursor] at isEnd
      exact absurd isEnd inside
  | @fault _ after error _ _ fails =>
      rw [lexer_eq] at fails
      refine .inr ⟨error, { session with lexer := after }, ?_, rfl, Nat.one_lt_two⟩
      rw [shift, fails]
  | @more _ after token others _ _ read rest =>
      rw [lexer_eq] at read
      have passes : session.cursor.Passes [session.current] ⟨after, session.lookahead, token⟩ :=
        .one read (.none _)
      refine .inl ⟨⟨after, cursor.lookahead, token⟩, ?_, ?_, rest⟩
      · rw [shift, read, ← isCursor]
        rfl
      · rw [← isCursor]
        exact valid.moveTo passes

theorem skipNewlines_reaches (sees : session.Sees tokens ending) :
    session.Reaches (tokens.dropWhile (·.is .newline)) ending (skipNewlines session) := by
  induction tokens generalizing session with
  | nil =>
      have atEnd : session.current = .endOfInput := sees.ahead.current_eq sees.valid
      have stops : session.isAt .newline = false := by rw [Session.isAt, atEnd]; rfl
      refine .inl ⟨session.cursor, ?_, sees⟩
      rw [skipNewlines, repeatWhile_eq newlines_progress sees.valid, stops]
      rfl
  | cons token others inductionHypothesis =>
      have here : session.current = token := sees.ahead.current_eq sees.valid
      rw [skipNewlines, repeatWhile_eq newlines_progress sees.valid, List.dropWhile_cons,
        Session.isAt, here]
      by_cases isNewline : token.is .newline = true
      · have inside : session.current.kind ≠ .endOfInput := by
          rw [here, Token.is_eq_true_iff.mp isNewline]
          decide
        rw [if_pos isNewline, if_pos isNewline, bind_apply]
        rcases shift_reaches sees inside with
          ⟨place, moved, seesThere⟩ | ⟨error, after, fails, isFault, short⟩
        · rw [moved]
          exact inductionHypothesis seesThere
        · rw [fails]
          refine .inr ⟨error, after, rfl, isFault, ?_⟩
          exact (List.length_dropWhile_le _ others).trans_lt short
      · rw [if_neg isNewline, if_neg isNewline]
        exact .inl ⟨session.cursor, rfl, sees⟩

end Rule

end TeenyC
