import TeenyC.Error
import TeenyC.Proofs.Token.Boundary

/-!
# The lexer after a fault

A lexer can be asked for tokens again after a fault.  What it gives then is settled by the place
where the fault has left it.  A character that starts no token is met again and again; behind the
digits in front of a lone point it is the point; and a string that is cut short leaves the lexer
at the line end that has cut it short, which is a token of its own.  Behind the end of the text
there is nothing but the end of the input: `next_after_fault`.
-/

namespace TeenyC

/-! ## Where readings fail -/

namespace Lexeme

variable {first : Char} {text : List Char} {cause : LexicalCause}

/-- What a failed reading leaves: nothing was passed in front of a character that starts no token,
and otherwise the text goes on with the point or the line end at which the reading has failed. -/
def LeftBy (text : List Char) (passed : Nat) : LexicalCause → Prop
  | .unknownCharacter _ | .loneExclamation _ => passed = 0
  | .openNumber => ∃ rest, text.drop passed = '.' :: rest
  | .openString => ∃ rest, text.drop passed = '\n' :: rest
  | .insideCharacter => False

theorem readNumber_leaves (result : (readNumber text).result = .error cause) :
    LeftBy text (readNumber text).passed cause := by
  revert result
  simp only [readNumber]
  split
  · next rest atPoint =>
      split
      · rintro ⟨⟩
        exact ⟨rest, atPoint⟩
      · simp
  · simp

theorem readString_leaves (closed : Closed text) (notNil : text ≠ [])
    (result : (readString text).result = .error cause) :
    LeftBy (first :: text) (readString text).passed cause := by
  obtain ⟨_, _, _, goesOn⟩ := closed.run_append notNil isStringCharacter rfl []
  obtain ⟨c, rest, isRest⟩ := List.exists_cons_of_ne_nil goesOn
  have stops : isStringCharacter c = false :=
    stops_dropWhile isStringCharacter text c (by rw [isRest]; rfl)
  have cases_c : c = '"' ∨ c = '\n' := by
    simpa [isStringCharacter, or_iff_not_imp_left] using stops
  revert result
  simp only [readString, drop_length_takeWhile, isRest]
  rcases cases_c with rfl | rfl
  · simp
  · rintro ⟨⟩
    refine ⟨rest, ?_⟩
    change (first :: text).drop ((text.takeWhile isStringCharacter).length + 1) = _
    rw [List.drop_succ_cons, drop_length_takeWhile, isRest]

theorem readSymbol_leaves (result : (readSymbol first text).result = .error cause) :
    LeftBy (first :: text) (readSymbol first text).passed cause := by
  revert result
  simp only [readSymbol]
  split
  · simp
  · split
    · simp
    · split <;> (rintro ⟨⟩; rfl)

/-- In a text that closes with a line end a failed reading leaves one of these. -/
theorem read_leaves (closed : Closed text) (result : (read text).result = .error cause) :
    LeftBy text (read text).passed cause := by
  cases text with
  | nil => cases result
  | cons first rest =>
      revert result
      simp only [read]
      split
      · simp [readWord]
      · split
        · exact readNumber_leaves
        · split
          · next isQuote =>
              obtain ⟨restClosed, restNotNil⟩ := closed.tail (by rw [isQuote]; decide)
              exact readString_leaves restClosed restNotNil
          · exact readSymbol_leaves

theorem read_point (rest : List Char) : read ('.' :: rest) = ⟨0, .error (.unknownCharacter '.')⟩ :=
  rfl

theorem read_newline (rest : List Char) : read ('\n' :: rest) = ⟨1, .ok .newline⟩ :=
  rfl

end Lexeme

/-! ## Gaps that have been passed -/

/-- The text starts with neither a blank nor a comment. -/
def StartsAtOnce (text : List Char) : Prop :=
  Stops Lexer.isBlank text ∧ Stops (· == '#') text

theorem startsAtOnce_cons {c : Char} (notBlank : Lexer.isBlank c = false) (notComment : c ≠ '#')
    (rest : List Char) : StartsAtOnce (c :: rest) := by
  constructor <;> (rintro _ ⟨⟩)
  · exact notBlank
  · simpa using notComment

/-- Behind a gap there is no further one. -/
theorem startsAtOnce_afterGap (text : List Char) : StartsAtOnce (afterGap text) := by
  rw [afterGap]
  split
  · next rest _ =>
      cases isRest : rest.dropWhile (· != '\n') with
      | nil => simp [StartsAtOnce, Stops]
      | cons c line =>
          have stops := stops_dropWhile (· != '\n') rest c (by rw [isRest]; rfl)
          obtain rfl : c = '\n' := by simpa using stops
          exact startsAtOnce_cons rfl (by decide) line
  · next noComment =>
      refine ⟨stops_dropWhile Lexer.isBlank text, ?_⟩
      intro c isHead
      obtain ⟨rest, isText⟩ := List.head?_eq_some_iff.mp (Option.mem_def.mp isHead)
      apply beq_eq_false_iff_ne.mpr
      rintro rfl
      exact noComment rest isText

namespace Lexer

variable {lexer after later : Lexer} {text : List Char} {error : LexicalError}
  {cause : LexicalCause} {token : Token}

theorem tokenStart_of_startsAtOnce (between : lexer.inside = 0)
    (atOnce : StartsAtOnce lexer.rest) : lexer.tokenStart = lexer := by
  have noBlanks : lexer.skipBlanks = lexer := by
    rw [skipBlanks, if_pos between, takeWhile_eq_nil_of_stops atOnce.1]
    rfl
  rw [tokenStart, noBlanks, skipComment]
  split
  · next rest _ isComment =>
      have noComment := atOnce.2 '#' (by rw [isComment]; rfl)
      cases noComment
  · rfl

/-! ## Asking again -/

/-- What asking for a token keeps, asking for tokens keeps. -/
theorem ReadsTo.keeps {holds : Lexer → Prop} (reads : lexer.ReadsTo later) (first : holds lexer)
    (step : ∀ lexer, holds lexer → holds lexer.afterNext) : holds later := by
  obtain ⟨n, rfl⟩ := reads
  induction n generalizing lexer with
  | zero => exact first
  | succ n inductionHypothesis => exact inductionHypothesis (step lexer first)

/-- A lexer that a fault leaves as it is does not change any more. -/
theorem ReadsTo.eq_of_fault (reads : lexer.ReadsTo later)
    (fails : lexer.next = .error error lexer) : later = lexer := by
  apply Eq.symm
  refine reads.keeps rfl ?_
  rintro _ rfl
  rw [afterNext, fails]

/-- Behind the text there is nothing but the end of the input. -/
theorem ReadsTo.ended (reads : lexer.ReadsTo later) (ended : lexer.Ended) : later.Ended := by
  refine reads.keeps ended ?_
  intro lexer ended
  obtain ⟨after, read, endedAfter⟩ := next_of_ended ended
  rwa [afterNext, read]

/-- Where a character starts no token it is met again and again. -/
theorem ReadsTo.repeats (reads : lexer.ReadsTo later) (between : lexer.inside = 0)
    (atOnce : StartsAtOnce lexer.rest) (stuck : Lexeme.read lexer.rest = ⟨0, .error cause⟩) :
    later = lexer ∧ later.next = .error ⟨lexer.position, cause⟩ later := by
  have fails : lexer.next = .error ⟨lexer.position, cause⟩ lexer := by
    rw [next_eq, tokenStart_of_startsAtOnce between atOnce, if_pos between, stuck]
    rfl
  obtain rfl := reads.eq_of_fault fails
  exact ⟨rfl, fails⟩

/-- A fault leaves the lexer behind the gap, where its reading has failed. -/
theorem next_eq_error (between : lexer.inside = 0) (fails : lexer.next = .error error after) :
    (Lexeme.read (afterGap lexer.rest)).result = .error error.cause ∧
      after.rest = (afterGap lexer.rest).drop (Lexeme.read (afterGap lexer.rest)).passed ∧
      after.inside = 0 ∧ error.position = after.position := by
  have start := inside_tokenStart between
  rw [next_eq, if_pos start, rest_tokenStart between] at fails
  cases result : (Lexeme.read (afterGap lexer.rest)).result with
  | ok token => simp [result] at fails
  | error cause =>
      simp only [result, EStateM.Result.error.injEq] at fails
      obtain ⟨rfl, rfl⟩ := fails
      exact ⟨rfl, by rw [rest_pass, rest_tokenStart between], by rw [inside_pass, start], rfl⟩

/-- What is met when tokens are asked for again after a fault. -/
def Continues (error : LexicalError) (after : Lexer) : Prop :=
  match error.cause with
  | .unknownCharacter _ | .loneExclamation _ =>
    ∀ later, after.ReadsTo later → later = after ∧ later.next = .error error later
  | .openNumber =>
    ∀ later, after.ReadsTo later →
      later = after ∧ later.next = .error ⟨error.position, .unknownCharacter '.'⟩ later
  | .openString => ∃ last, after.next = .ok .newline last
  | .insideCharacter => False

/-- A fault settles what is met after it. -/
theorem continues_of_next (between : lexer.inside = 0) (closed : Closed (afterGap lexer.rest))
    (fails : lexer.next = .error error after) : Continues error after := by
  obtain ⟨result, isRest, betweenAfter, isPlace⟩ := next_eq_error between fails
  have leaves := Lexeme.read_leaves closed result
  obtain ⟨position, cause⟩ := error
  obtain rfl : position = after.position := isPlace
  have stays (stuck : (Lexeme.read (afterGap lexer.rest)).passed = 0) :
      StartsAtOnce after.rest ∧ Lexeme.read after.rest = ⟨0, .error cause⟩ := by
    rw [stuck, List.drop_zero] at isRest
    rw [isRest, ← stuck, ← result]
    exact ⟨startsAtOnce_afterGap lexer.rest, rfl⟩
  cases cause with
  | unknownCharacter c =>
      obtain ⟨atOnce, stuck⟩ := stays leaves
      exact fun later reads => reads.repeats betweenAfter atOnce stuck
  | loneExclamation c =>
      obtain ⟨atOnce, stuck⟩ := stays leaves
      exact fun later reads => reads.repeats betweenAfter atOnce stuck
  | openNumber =>
      obtain ⟨rest, atPoint⟩ := leaves
      rw [atPoint] at isRest
      have atOnce : StartsAtOnce after.rest := isRest ▸ startsAtOnce_cons rfl (by decide) rest
      have stuck := isRest ▸ Lexeme.read_point rest
      exact fun later reads => reads.repeats betweenAfter atOnce stuck
  | openString =>
      obtain ⟨rest, atLineEnd⟩ := leaves
      rw [atLineEnd] at isRest
      have atOnce : StartsAtOnce after.rest := isRest ▸ startsAtOnce_cons rfl (by decide) rest
      refine ⟨after.pass 1, ?_⟩
      rw [next_eq, tokenStart_of_startsAtOnce betweenAfter atOnce, if_pos betweenAfter, isRest,
        Lexeme.read_newline]
  | insideCharacter => exact leaves

end Lexer

/-- A fault is reported at the place of the cursor behind it, and settles what is met when tokens
are asked for again: the same fault for ever, the point that no digit follows for ever, or the
line end that has cut a string short.  And behind the end of the input there is nothing else. -/
theorem next_after_fault {source : String} {lexer : Lexer}
    (reads : (Lexer.ofString source).ReadsTo lexer) :
    (∀ error after, lexer.next = .error error after →
      error.position = after.position ∧ Lexer.Continues error after) ∧
    ∀ token after, lexer.next = .ok token after → token.kind = .endOfInput →
      ∀ later, after.ReadsTo later → ∃ last, later.next = .ok .endOfInput last := by
  obtain ⟨tracks, between⟩ := reads.settled
  constructor
  · intro error after fails
    have closed : Closed (afterGap lexer.rest) := by
      rw [← Lexer.rest_tokenStart between]
      exact tracks.tokenStart.closed
    obtain ⟨_, _, _, isPlace⟩ := Lexer.next_eq_error between fails
    exact ⟨isPlace, Lexer.continues_of_next between closed fails⟩
  · intro token after read isEnd later readsOn
    have ended := (Lexer.reads_of_next tracks.valid read).ended isEnd
    obtain ⟨last, readsEnd, _⟩ := Lexer.next_of_ended (readsOn.ended ended)
    exact ⟨last, readsEnd⟩

/-- A number with a lone point, and an open string behind a line end. -/
theorem next_after_fault_number :
    (∀ later, (⟨['.', '\n'], 2, 0, 4⟩ : Lexer).ReadsTo later →
      later.next = .error ⟨2, .unknownCharacter '.'⟩ later) ∧
    LexicalCause.message (.unknownCharacter '.') = "unknown token: ." := by
  have fails : (Lexer.ofString " 1.").next =
      .error ⟨2, .openNumber⟩ ⟨['.', '\n'], 2, 0, 4⟩ := rfl
  refine ⟨?_, by decide +kernel⟩
  intro later reads
  exact ((next_after_fault (.refl (.ofString " 1."))).1 _ _ fails).2 later reads |>.2

end TeenyC
