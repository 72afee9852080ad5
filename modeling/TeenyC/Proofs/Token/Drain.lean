import TeenyC.Proofs.Token.Grammar

/-!
# Draining a lexer

All that a lexer gives is its tokens and the way they end: with the end of the input, or
with a fault.  `tokenize` gives the one or the other.  Reading never looks past the end of
a line, so a text that is continued on a new line gives the same tokens as before, and in
place of the end of the input all that the continuation gives.
-/

namespace TeenyC

open String (utf8Len)

namespace Lexer

/-- The lexer hands out the tokens one after the other, and then the end of the input, or
a fault where one is given. -/
inductive Drains : Lexer → List Token → Option LexicalError → Prop
  | ended {lexer after : Lexer} {token : Token} (read : lexer.next = .ok token after)
      (isEnd : token.kind = .endOfInput) : Drains lexer [] none
  | fault {lexer after : Lexer} {error : LexicalError} (read : lexer.next = .error error after) :
      Drains lexer [] (some error)
  | more {lexer after : Lexer} {token : Token} {others : List Token}
      {ending : Option LexicalError} (read : lexer.next = .ok token after)
      (notEnd : token.kind ≠ .endOfInput) (rest : Drains after others ending) :
      Drains lexer (token :: others) ending

/-- Every lexer can be drained, as each token takes some of its text. -/
theorem exists_drains {lexer : Lexer} (valid : lexer.Valid) :
    ∃ tokens ending, lexer.Drains tokens ending := by
  induction unreadEq : lexer.unread using Nat.strong_induction_on generalizing lexer with
  | _ unread inductionHypothesis =>
      cases read : lexer.next with
      | error error after => exact ⟨[], some error, .fault read⟩
      | ok token after =>
          by_cases isEnd : token.kind = .endOfInput
          · exact ⟨[], none, .ended read isEnd⟩
          · have reads := reads_of_next valid read
            have fewer := reads.moves isEnd
            obtain ⟨tokens, ending, rest⟩ :=
              inductionHypothesis after.unread (by omega) reads.valid rfl
            exact ⟨token :: tokens, ending, .more read isEnd rest⟩

/-- What a lexer gives in one go. -/
def outcome (tokens : List Token) : Option LexicalError → Except LexicalError (List Token)
  | none => .ok (tokens ++ [.endOfInput])
  | some error => .error error

theorem Drains.tokens_eq {lexer : Lexer} {tokens : List Token} {ending : Option LexicalError}
    (drains : lexer.Drains tokens ending) (valid : lexer.Valid) {n : Nat}
    (enough : lexer.unread < n) : lexer.tokens n = outcome tokens ending := by
  induction drains generalizing n with
  | @ended lexer after token read isEnd =>
      obtain ⟨n, rfl⟩ := Nat.exists_eq_add_one_of_ne_zero (Nat.ne_zero_of_lt enough)
      have token_eq := (reads_of_next valid read).wellFormed.eq_endOfInput isEnd
      rw [Lexer.tokens, read, token_eq]
      rfl
  | @fault lexer after error read =>
      obtain ⟨n, rfl⟩ := Nat.exists_eq_add_one_of_ne_zero (Nat.ne_zero_of_lt enough)
      rw [Lexer.tokens, read]
      rfl
  | @more lexer after token others ending read notEnd _ inductionHypothesis =>
      obtain ⟨n, rfl⟩ := Nat.exists_eq_add_one_of_ne_zero (Nat.ne_zero_of_lt enough)
      have reads := reads_of_next valid read
      have fewer := reads.moves notEnd
      rw [Lexer.tokens, read]
      simp only [notEnd, if_false]
      rw [inductionHypothesis reads.valid (by omega)]
      cases ending <;> rfl

theorem Drains.of_supplies {lexer : Lexer} {tokens : List Token}
    (supplies : lexer.Supplies (tokens ++ [.endOfInput])) : lexer.Drains tokens none := by
  induction tokens generalizing lexer with
  | nil =>
      cases supplies with
      | last read isEnd => exact .ended read isEnd
      | more _ notEnd _ => exact absurd rfl notEnd
  | cons token tokens inductionHypothesis =>
      rw [List.cons_append] at supplies
      generalize whole : tokens ++ [.endOfInput] = remaining at supplies
      cases supplies with
      | last => simp at whole
      | more read notEnd others =>
          subst whole
          exact .more read notEnd (inductionHypothesis others)

end Lexer

/-- What `tokenize` gives is what a lexer on the source text gives. -/
theorem tokenize_eq_outcome {source : String} {tokens : List Token}
    {ending : Option LexicalError} (drains : (Lexer.ofString source).Drains tokens ending) :
    tokenize source = Lexer.outcome tokens ending :=
  drains.tokens_eq (Lexer.valid_ofString source) (Nat.lt_succ_self _)

theorem exists_drains_of_tokenize_ok {source : String} {tokens : List Token}
    (lexes : tokenize source = .ok tokens) :
    ∃ inside, tokens = inside ++ [.endOfInput] ∧
      (Lexer.ofString source).Drains inside none := by
  obtain ⟨inside, ending, drains⟩ := Lexer.exists_drains (Lexer.valid_ofString source)
  rw [tokenize_eq_outcome drains] at lexes
  cases ending with
  | none =>
      cases lexes
      exact ⟨inside, rfl, drains⟩
  | some error => cases lexes

/-! ## Reading stays on its line -/

section Lines

variable {first : Char} {line more : List Char}

theorem Closed.newline_mem (closed : Closed line) (notNil : line ≠ []) : '\n' ∈ line := by
  have isLast := closed _ (List.getLast?_eq_some_getLast notNil)
  rw [← isLast]
  exact List.getLast_mem notNil

/-- A closed line that does not start with its line end goes on. -/
theorem Closed.tail (closed : Closed (first :: line)) (notNewline : first ≠ '\n') :
    Closed line ∧ line ≠ [] := by
  constructor
  · rw [← List.singleton_append] at closed
    exact closed.of_append
  · rintro rfl
    exact notNewline (closed first rfl)

/-- A run of characters does not go past a line end that does not belong to it. -/
theorem Closed.run_append (closed : Closed line) (notNil : line ≠ []) (among : Char → Bool)
    (stops : among '\n' = false) (more : List Char) :
    (line ++ more).takeWhile among = line.takeWhile among ∧
      (line ++ more).dropWhile among = line.dropWhile among ++ more ∧
      Closed (line.dropWhile among) ∧ line.dropWhile among ≠ [] := by
  have goesOn : line.dropWhile among ≠ [] := by
    intro nothing
    have inside := List.dropWhile_eq_nil_iff.mp nothing '\n' (closed.newline_mem notNil)
    rw [stops] at inside
    contradiction
  have split : line.takeWhile among ++ line.dropWhile among = line :=
    List.takeWhile_append_dropWhile
  have inside : ∀ c ∈ line.takeWhile among, among c = true :=
    fun c isIn => List.mem_takeWhile_imp isIn
  have stopsBefore : Stops among (line.dropWhile among ++ more) := by
    intro c isHead
    rw [List.head?_append_of_ne_nil _ goesOn] at isHead
    exact stops_dropWhile among line c isHead
  have whole : line ++ more = line.takeWhile among ++ (line.dropWhile among ++ more) := by
    rw [← List.append_assoc, split]
  refine ⟨?_, ?_, ?_, goesOn⟩
  · rw [whole, takeWhile_append_of_stops inside stopsBefore]
  · rw [whole, dropWhile_append_of_stops inside stopsBefore]
  · rw [← split] at closed
    exact closed.of_append

namespace Lexeme

theorem readNumber_append (closed : Closed line) (notNil : line ≠ []) :
    readNumber (line ++ more) = readNumber line := by
  obtain ⟨taken, dropped, afterClosed, afterNotNil⟩ :=
    closed.run_append notNil Char.isDigit rfl more
  simp only [readNumber, drop_length_takeWhile]
  rw [taken, dropped]
  cases after : line.dropWhile Char.isDigit with
  | nil => exact absurd after afterNotNil
  | cons c rest =>
      by_cases isPoint : c = '.'
      · subst isPoint
        rw [after] at afterClosed
        obtain ⟨restClosed, restNotNil⟩ := afterClosed.tail (by decide)
        obtain ⟨fractionTaken, _⟩ :=
          restClosed.run_append restNotNil Char.isDigit rfl more
        simp only [List.cons_append, fractionTaken]
      · simp [isPoint]

theorem readString_append (closed : Closed line) (notNil : line ≠ []) :
    readString (line ++ more) = readString line := by
  obtain ⟨taken, dropped, _, afterNotNil⟩ :=
    closed.run_append notNil isStringCharacter rfl more
  simp only [readString, drop_length_takeWhile]
  rw [taken, dropped]
  cases after : line.dropWhile isStringCharacter with
  | nil => exact absurd after afterNotNil
  | cons c rest =>
      by_cases isQuote : c = '"'
      · subst isQuote
        rfl
      · simp [isQuote]

theorem readSymbol_append (closed : Closed (first :: line)) :
    readSymbol first (line ++ more) = readSymbol first line := by
  by_cases isNewline : first = '\n'
  · subst isNewline
    rfl
  · obtain ⟨_, notNil⟩ := closed.tail isNewline
    obtain ⟨c, rest, rfl⟩ := List.exists_cons_of_ne_nil notNil
    by_cases isEquals : c = '='
    · subst isEquals
      cases before : Kind.ofSymbolBeforeEquals? first <;> simp [readSymbol, before]
    · simp [readSymbol, isEquals]

/-- What is read at the start of a text is decided on its first line. -/
theorem read_append (closed : Closed line) (notNil : line ≠ []) (more : List Char) :
    read (line ++ more) = read line := by
  obtain ⟨first, rest, rfl⟩ := List.exists_cons_of_ne_nil notNil
  simp only [List.cons_append, read]
  split
  · next isLetter =>
      have notNewline : first ≠ '\n' := by
        rintro rfl
        contradiction
      obtain ⟨restClosed, restNotNil⟩ := closed.tail notNewline
      obtain ⟨taken, _⟩ := restClosed.run_append restNotNil isWordCharacter rfl more
      simp only [readWord, taken]
  · split
    · exact readNumber_append closed notNil
    · split
      · next isQuote =>
          obtain ⟨restClosed, restNotNil⟩ := closed.tail (by rw [isQuote]; decide)
          exact readString_append restClosed restNotNil
      · exact readSymbol_append closed

theorem readNumber_fault {cause : LexicalCause} (result : (readNumber line).result = .error cause) :
    (readNumber line).passed < line.length := by
  revert result
  simp only [readNumber]
  split
  · next rest atPoint =>
      split
      · intro _
        exact List.length_lt_of_drop_ne_nil (by simp [atPoint])
      · simp
  · simp

theorem readString_fault {cause : LexicalCause} (result : (readString line).result = .error cause) :
    (readString line).passed ≤ line.length + 1 := by
  have inside := length_takeWhile_le isStringCharacter line
  revert result
  simp only [readString]
  split
  · simp
  · intro _
    exact Nat.succ_le_succ inside

theorem readSymbol_fault {cause : LexicalCause}
    (result : (readSymbol first line).result = .error cause) :
    (readSymbol first line).passed = 0 := by
  revert result
  simp only [readSymbol]
  split
  · simp
  · split
    · simp
    · split <;> simp

/-- A reading, also one that fails, passes no more than there is. -/
theorem read_passed_le (notNil : line ≠ []) : (read line).passed ≤ line.length := by
  obtain ⟨first, rest, rfl⟩ := List.exists_cons_of_ne_nil notNil
  cases result : (read (first :: rest)).result with
  | ok token => exact (read_sound result).stays
  | error cause =>
      revert result
      simp only [read]
      split
      · simp [readWord]
      · split
        · exact fun result => (readNumber_fault result).le
        · split
          · exact readString_fault
          · intro result
            rw [readSymbol_fault result]
            exact Nat.zero_le _

end Lexeme

/-- The gap at the start of a text is on its first line. -/
theorem Closed.afterGap_append (closed : Closed line) (notNil : line ≠ []) (more : List Char) :
    afterGap (line ++ more) = afterGap line ++ more ∧ Closed (afterGap line) ∧
      afterGap line ≠ [] := by
  obtain ⟨_, dropped, afterClosed, afterNotNil⟩ :=
    closed.run_append notNil Lexer.isBlank rfl more
  simp only [afterGap]
  rw [dropped]
  cases after : line.dropWhile Lexer.isBlank with
  | nil => exact absurd after afterNotNil
  | cons c rest =>
      rw [after] at afterClosed
      by_cases isComment : c = '#'
      · subst isComment
        obtain ⟨restClosed, restNotNil⟩ := afterClosed.tail (by decide)
        obtain ⟨_, restDropped, stopClosed, stopNotNil⟩ :=
          restClosed.run_append restNotNil (· != '\n') rfl more
        exact ⟨restDropped, stopClosed, stopNotNil⟩
      · simp [isComment, afterClosed]

end Lines

/-- Only the token of a line end has one in its lexeme. -/
theorem Token.WellFormed.eq_newline {token : Token} (wellFormed : token.WellFormed)
    (isIn : '\n' ∈ token.lexeme) : token = .newline := by
  rcases token with ⟨kind, text⟩
  cases kind with
  | identifier =>
      obtain ⟨first, rest, spelled, isLetter, inside, _⟩ : IsName text := wellFormed
      simp only [lexeme, spelled] at isIn
      rcases List.mem_cons.mp isIn with rfl | isIn
      · contradiction
      · exact absurd (inside '\n' isIn) (by decide)
  | number =>
      rcases (wellFormed : IsNumeral text) with
        isWhole | ⟨whole, fraction, spelled, isWhole, isFraction⟩
      · exact absurd (isWhole.2 '\n' isIn) (by decide)
      · simp only [lexeme, spelled] at isIn
        rcases List.mem_append.mp isIn with isIn | isIn
        · exact absurd (isWhole.2 '\n' isIn) (by decide)
        · rcases List.mem_cons.mp isIn with isPoint | isIn
          · contradiction
          · exact absurd (isFraction.2 '\n' isIn) (by decide)
  | string =>
      have inside : '\n' ∈ text.toList := by simpa [lexeme] using isIn
      exact absurd ((wellFormed : IsContent text) '\n' inside) (by decide)
  | newline => exact eq_ofKind wellFormed rfl rfl
  | _ =>
      -- The text is the one of the kind.
      simp only [WellFormed] at wellFormed
      subst wellFormed
      exact absurd isIn (by decide)

/-! ## The end of the text -/

namespace Lexer

section TextEnd

variable {lexer after : Lexer} {token : Token}

/-- Passing characters of the text leaves the position of its end as it is. -/
theorem end_pass {n : Nat} (stays : n ≤ lexer.rest.length) :
    (lexer.pass n).position + utf8Len (lexer.pass n).rest =
      lexer.position + utf8Len lexer.rest := by
  have split : utf8Len (lexer.rest.take n) + utf8Len (lexer.rest.drop n) =
      utf8Len lexer.rest := by
    rw [← String.utf8Len_append, List.take_append_drop]
  rw [position_pass, rest_pass]
  omega

theorem end_skipBlanks (lexer : Lexer) :
    lexer.skipBlanks.position + utf8Len lexer.skipBlanks.rest =
      lexer.position + utf8Len lexer.rest := by
  rw [skipBlanks]
  split
  · exact end_pass (Lexeme.length_takeWhile_le isBlank lexer.rest)
  · rfl

theorem end_skipComment (lexer : Lexer) :
    lexer.skipComment.position + utf8Len lexer.skipComment.rest =
      lexer.position + utf8Len lexer.rest := by
  rw [skipComment]
  split
  · next line _ atComment =>
      apply end_pass
      have inside := Lexeme.length_takeWhile_le (· != '\n') line
      rw [atComment, List.length_cons]
      omega
  · rfl

/-- A token that is read from a closed text leaves the position of its end as it is. -/
theorem end_of_next (between : lexer.inside = 0) (closed : Closed lexer.rest)
    (notNil : lexer.rest ≠ []) (read : lexer.next = .ok token after) :
    after.position + utf8Len after.rest = lexer.position + utf8Len lexer.rest := by
  obtain ⟨_, rfl⟩ := (next_eq_ok_iff between).mp read
  obtain ⟨_, _, startNotNil⟩ := closed.afterGap_append notNil []
  rw [← rest_tokenStart between] at startNotNil ⊢
  rw [end_pass (Lexeme.read_passed_le startNotNil), tokenStart, end_skipComment, end_skipBlanks]

end TextEnd

/-! ## Texts that go on -/

/-- The other lexer is at the same place of a text that goes on with more. -/
structure Extends (longer lexer : Lexer) (more : List Char) : Prop where
  rest : longer.rest = lexer.rest ++ more
  position : longer.position = lexer.position
  insideLonger : longer.inside = 0
  inside : lexer.inside = 0

variable {lexer longer after : Lexer} {more : List Char} {token : Token} {tokens : List Token}
  {error : LexicalError} {ending : Option LexicalError}

theorem Extends.pass (goesOn : longer.Extends lexer more) {n : Nat}
    (stays : n ≤ lexer.rest.length) : (longer.pass n).Extends (lexer.pass n) more where
  rest := by rw [rest_pass, rest_pass, goesOn.rest, List.drop_append_of_le_length stays]
  position := by
    rw [position_pass, position_pass, goesOn.rest, goesOn.position,
      List.take_append_of_le_length stays, List.length_append]
    omega
  insideLonger := by rw [inside_pass, goesOn.insideLonger]
  inside := by rw [inside_pass, goesOn.inside]

theorem Extends.skipBlanks (goesOn : longer.Extends lexer more) (closed : Closed lexer.rest)
    (notNil : lexer.rest ≠ []) : longer.skipBlanks.Extends lexer.skipBlanks more := by
  obtain ⟨taken, _⟩ := closed.run_append notNil isBlank rfl more
  rw [Lexer.skipBlanks, Lexer.skipBlanks, if_pos goesOn.insideLonger, if_pos goesOn.inside,
    goesOn.rest, taken]
  exact goesOn.pass (Lexeme.length_takeWhile_le isBlank lexer.rest)

theorem Extends.skipComment (goesOn : longer.Extends lexer more) (closed : Closed lexer.rest)
    (notNil : lexer.rest ≠ []) : longer.skipComment.Extends lexer.skipComment more := by
  rw [Lexer.skipComment, Lexer.skipComment, goesOn.insideLonger, goesOn.inside, goesOn.rest]
  obtain ⟨first, line, isRest⟩ := List.exists_cons_of_ne_nil notNil
  rw [isRest] at closed
  rw [isRest, List.cons_append]
  by_cases isComment : first = '#'
  · subst isComment
    obtain ⟨lineClosed, lineNotNil⟩ := closed.tail (by decide)
    obtain ⟨taken, _⟩ := lineClosed.run_append lineNotNil (· != '\n') rfl more
    simp only [taken]
    apply goesOn.pass
    have inside := Lexeme.length_takeWhile_le (· != '\n') line
    rw [isRest, List.length_cons]
    omega
  · simpa [isComment] using goesOn

theorem Extends.tokenStart (goesOn : longer.Extends lexer more) (closed : Closed lexer.rest)
    (notNil : lexer.rest ≠ []) : longer.tokenStart.Extends lexer.tokenStart more := by
  obtain ⟨_, _, blanksClosed, blanksNotNil⟩ := closed.run_append notNil isBlank rfl more
  rw [← rest_skipBlanks goesOn.inside] at blanksClosed blanksNotNil
  exact (goesOn.skipBlanks closed notNil).skipComment blanksClosed blanksNotNil

/-- The next token of a text that goes on is the same, and so is the fault in place of one. -/
theorem Extends.next_eq (goesOn : longer.Extends lexer more) (closed : Closed lexer.rest)
    (notNil : lexer.rest ≠ []) :
    (∃ token after afterLonger, lexer.next = .ok token after ∧
      longer.next = .ok token afterLonger ∧ afterLonger.Extends after more ∧
      Closed after.rest ∧ token.kind ≠ .endOfInput) ∨
    (∃ error after afterLonger, lexer.next = .error error after ∧
      longer.next = .error error afterLonger) := by
  have starts := goesOn.tokenStart closed notNil
  obtain ⟨_, startClosed, startNotNil⟩ := closed.afterGap_append notNil more
  rw [← rest_tokenStart goesOn.inside] at startClosed startNotNil
  have same := Lexeme.read_append startClosed startNotNil more
  rw [← starts.rest] at same
  have passes := starts.pass (Lexeme.read_passed_le startNotNil)
  rw [Lexer.next_eq, Lexer.next_eq, if_pos starts.inside, if_pos starts.insideLonger, same]
  cases result : (Lexeme.read lexer.tokenStart.rest).result with
  | ok token =>
      refine .inl ⟨token, _, _, rfl, rfl, passes, ?_, ?_⟩
      · rw [rest_pass]
        rw [← List.take_append_drop (Lexeme.read lexer.tokenStart.rest).passed
          lexer.tokenStart.rest] at startClosed
        exact startClosed.of_append
      · obtain ⟨first, rest, isRest⟩ := List.exists_cons_of_ne_nil startNotNil
        rw [isRest] at result
        exact (Lexeme.read_sound result).notEnd
  | error cause =>
      right
      simp only [passes.position]
      exact ⟨_, _, _, rfl, rfl⟩

/-- A text that goes on behind a line end gives the same tokens.  After them it gives the same
fault, or else what the continuation gives, read from the end of the first text on. -/
theorem Drains.extend_from_end (drains : lexer.Drains tokens ending)
    (goesOn : longer.Extends lexer more) (closed : Closed lexer.rest) :
    (∃ error, ending = some error ∧ longer.Drains tokens ending) ∨
    (ending = none ∧ ∃ last : Lexer, last.rest = more ∧ last.inside = 0 ∧
      last.position = lexer.position + utf8Len lexer.rest ∧
      ∀ others otherEnding, last.Drains others otherEnding →
        longer.Drains (tokens ++ others) otherEnding) := by
  induction drains generalizing longer with
  | @ended lexer after token read isEnd =>
      by_cases atEnd : lexer.rest = []
      · refine .inr ⟨rfl, longer, ?_, goesOn.insideLonger, ?_, fun _ _ others => others⟩
        · rw [goesOn.rest, atEnd, List.nil_append]
        · rw [goesOn.position, atEnd, String.utf8Len_nil, Nat.add_zero]
      · rcases goesOn.next_eq closed atEnd with
          ⟨_, _, _, reads, _, _, _, notEnd⟩ | ⟨_, _, _, fails, _⟩
        · rw [reads] at read
          cases read
          exact absurd isEnd notEnd
        · rw [fails] at read
          cases read
  | @fault lexer after error fails =>
      by_cases atEnd : lexer.rest = []
      · obtain ⟨_, read, _⟩ := next_of_ended ⟨atEnd, goesOn.inside⟩
        rw [fails] at read
        cases read
      · rcases goesOn.next_eq closed atEnd with ⟨_, _, _, reads, _⟩ | ⟨_, _, _, same, sameLonger⟩
        · rw [reads] at fails
          cases fails
        · rw [same] at fails
          cases fails
          exact .inl ⟨error, rfl, .fault sameLonger⟩
  | @more lexer after token others ending read notEnd _ inductionHypothesis =>
      by_cases atEnd : lexer.rest = []
      · obtain ⟨_, endRead, _⟩ := next_of_ended ⟨atEnd, goesOn.inside⟩
        rw [read] at endRead
        cases endRead
        exact absurd rfl notEnd
      · rcases goesOn.next_eq closed atEnd with
          ⟨_, _, afterLonger, reads, readsLonger, goesOnAfter, closedAfter, _⟩ |
          ⟨_, _, _, fails, _⟩
        · rw [reads] at read
          cases read
          rcases inductionHypothesis goesOnAfter closedAfter with
            ⟨error, isError, rest⟩ | ⟨isEnd, last, lastRest, lastInside, lastPosition, rest⟩
          · exact .inl ⟨error, isError, .more readsLonger notEnd rest⟩
          · rw [end_of_next goesOn.inside closed atEnd reads] at lastPosition
            refine .inr ⟨isEnd, last, lastRest, lastInside, lastPosition, ?_⟩
            intro others otherEnding lastDrains
            exact .more readsLonger notEnd (rest others otherEnding lastDrains)
        · rw [fails] at read
          cases read

theorem Drains.extend (drains : lexer.Drains tokens ending) (goesOn : longer.Extends lexer more)
    (closed : Closed lexer.rest) :
    (∃ error, ending = some error ∧ longer.Drains tokens ending) ∨
    (ending = none ∧ ∃ last : Lexer, last.rest = more ∧ last.inside = 0 ∧
      ∀ others otherEnding, last.Drains others otherEnding →
        longer.Drains (tokens ++ others) otherEnding) := by
  rcases drains.extend_from_end goesOn closed with
    fails | ⟨isEnd, last, lastRest, lastInside, _, rest⟩
  · exact .inl fails
  · exact .inr ⟨isEnd, last, lastRest, lastInside, rest⟩

/-! ## The last token -/

/-- The tokens of a text that closes with a line end do so too. -/
theorem Drains.getLast?_eq (drains : lexer.Drains tokens none) (between : lexer.inside = 0)
    (closed : Closed lexer.rest) (notNil : lexer.rest ≠ []) :
    tokens.getLast? = some .newline := by
  generalize isEnding : (none : Option LexicalError) = ending at drains
  induction drains with
  | @ended lexer after token read isEnd =>
      obtain ⟨starts, _⟩ := starts_of_next between read
      obtain rfl : token = .endOfInput := starts.wellFormed.eq_endOfInput isEnd
      obtain ⟨_, _, atToken⟩ := closed.afterGap_append notNil []
      refine absurd ?_ atToken
      rw [starts.split, show after.rest = [] from starts.maximal]
      rfl
  | fault => cases isEnding
  | @more lexer after token others ending read notEnd rest inductionHypothesis =>
      obtain ⟨starts, stillBetween⟩ := starts_of_next between read
      obtain ⟨_, startClosed, startNotNil⟩ := closed.afterGap_append notNil []
      rw [starts.split] at startClosed startNotNil
      by_cases atEnd : after.rest = []
      · rw [atEnd, List.append_nil] at startClosed startNotNil
        have isNewline := starts.wellFormed.eq_newline (startClosed.newline_mem startNotNil)
        obtain ⟨_, endRead, _⟩ := next_of_ended ⟨atEnd, stillBetween⟩
        cases rest with
        | ended => rw [isNewline]; rfl
        | fault fails =>
            rw [fails] at endRead
            cases endRead
        | more readMore notEndMore _ =>
            rw [readMore] at endRead
            cases endRead
            exact absurd rfl notEndMore
      · have last := inductionHypothesis stillBetween startClosed.of_append atEnd isEnding
        rw [List.getLast?_cons, last]
        rfl

end Lexer

end TeenyC
