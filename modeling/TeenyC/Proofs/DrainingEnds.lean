import TeenyC.Proofs.Token.Boundary

/-!
# Draining ends

`tokenize` asks for tokens until the end of the input comes, and nothing but the text tells it
when to stop.  It does stop: every token but the end of the input takes some bytes of the text, so
there is at most one for every byte and one for the line end behind them.  A zero byte inside the
text is no end of the input, and the end of the input is never given before the line end.
-/

namespace TeenyC

open String (utf8Len)

/-- A reading that gives a token passes a character, or the end of the text. -/
theorem Lexeme.passed_pos {text : List Char} {token : Token}
    (result : (read text).result = .ok token) : 0 < (read text).passed := by
  cases text with
  | nil => exact Nat.one_pos
  | cons first rest => exact (read_sound result).moves

namespace Lexer

variable {lexer after : Lexer} {text : List Char} {token : Token} {tokens : List Token}
  {ending : Option LexicalError}

/-! ## Moving on -/

/-- Every place that is passed counts for a byte at least. -/
theorem position_add_le_pass (n : Nat) (lexer : Lexer) :
    lexer.position + n ≤ (lexer.pass n).position := by
  rw [position_pass]
  by_cases inside : n ≤ lexer.rest.length
  · have taken := le_utf8Len_take inside
    omega
  · have whole := le_utf8Len_take (Nat.le_refl lexer.rest.length)
    rw [List.take_length] at whole
    rw [List.take_of_length_le (Nat.le_of_not_le inside)]
    omega

theorem position_le_tokenStart (between : lexer.inside = 0) :
    lexer.position ≤ lexer.tokenStart.position := by
  obtain ⟨blanks, isBlanks⟩ := skipBlanks_eq_pass between
  obtain ⟨comment, isComment⟩ := skipComment_eq_pass lexer.skipBlanks
  rw [tokenStart, isComment, isBlanks]
  have overBlanks := position_add_le_pass blanks lexer
  have overComment := position_add_le_pass comment (lexer.pass blanks)
  omega

/-- A token moves the cursor on, and so does the end of the input. -/
theorem position_lt_of_next (read : lexer.next = .ok token after) :
    lexer.position < after.position := by
  have between := inside_of_next read
  obtain ⟨result, rfl⟩ := (next_eq_ok_iff between).mp read
  have moves := Lexeme.passed_pos result
  have start := position_le_tokenStart between
  have further := position_add_le_pass (Lexeme.read (afterGap lexer.rest)).passed lexer.tokenStart
  omega

/-- A token that is not the end of the input does not reach past the end of the text. -/
theorem Tracks.position_le_of_next (tracks : lexer.Tracks text) (closed : Closed lexer.rest)
    (read : lexer.next = .ok token after) (notEnd : token.kind ≠ .endOfInput) :
    after.position ≤ utf8Len text := by
  have between := inside_of_next read
  have notNil : lexer.rest ≠ [] := by
    intro atEnd
    obtain ⟨_, readEnd, _⟩ := next_of_ended ⟨atEnd, between⟩
    rw [read] at readEnd
    cases readEnd
    exact notEnd rfl
  have counted := tracks.valid.counted notNil
  have sameEnd := end_of_next between closed notNil read
  rw [tracks.size, between] at counted
  omega

/-! ## All tokens -/

/-- Asking for tokens up to the end of the input, with no bound on their number, takes so many
calls and gives this result.  A fault ends it too. -/
inductive Collects : Lexer → Nat → Except LexicalError (List Token) → Prop
  | ended {lexer after : Lexer} {token : Token} (read : lexer.next = .ok token after)
      (isEnd : token.kind = .endOfInput) : Collects lexer 1 (.ok [token])
  | fault {lexer after : Lexer} {error : LexicalError} (fails : lexer.next = .error error after) :
      Collects lexer 1 (.error error)
  | more {lexer after : Lexer} {token : Token} {calls : Nat}
      {result : Except LexicalError (List Token)} (read : lexer.next = .ok token after)
      (notEnd : token.kind ≠ .endOfInput) (rest : Collects after calls result) :
      Collects lexer (calls + 1) (result.map (token :: ·))

/-- Draining a lexer takes a call for each token, and one for what comes after them. -/
theorem Drains.collects (drains : lexer.Drains tokens ending) (valid : lexer.Valid) :
    lexer.Collects (tokens.length + 1) (outcome tokens ending) := by
  induction drains with
  | @ended lexer after token read isEnd =>
      obtain rfl := (reads_of_next valid read).wellFormed.eq_endOfInput isEnd
      exact .ended read isEnd
  | fault fails => exact .fault fails
  | @more lexer after token others ending read notEnd _ inductionHypothesis =>
      have others := inductionHypothesis (reads_of_next valid read).valid
      cases ending <;> exact .more read notEnd others

/-- Each token takes a byte of the text. -/
theorem Drains.length_le_unread (drains : lexer.Drains tokens ending) (valid : lexer.Valid) :
    tokens.length ≤ lexer.unread := by
  induction drains with
  | ended | fault => exact Nat.zero_le _
  | more read notEnd _ inductionHypothesis =>
      have reads := reads_of_next valid read
      have others := inductionHypothesis reads.valid
      have fewer := reads.moves notEnd
      rw [List.length_cons]
      omega

theorem Drains.inside (drains : lexer.Drains tokens ending) :
    ∀ token ∈ tokens, token.kind ≠ .endOfInput := by
  induction drains with
  | ended | fault => simp
  | more _ notEnd _ inductionHypothesis =>
      exact List.forall_mem_cons.mpr ⟨notEnd, inductionHypothesis⟩

end Lexer

theorem length_text (source : String) :
    utf8Len (source.toList ++ ['\n']) = source.utf8ByteSize + 1 := by
  have newline : '\n'.utf8Size = 1 := rfl
  simp [newline]

/-- Draining the lexer ends.  Every token but the end of the input moves the cursor on, up to the
end of the text at most.  So `tokenize` returns after a call for every byte, one for the line end
and one for the end of the input at most; and if it succeeds it gives a token for each call, of
which the last two are a line end and the end of the input, which comes nowhere else. -/
theorem draining_ends (source : String) :
    (∀ operations token after,
      ((Lexer.ofString source).performAll operations).next = .ok token after →
        token.kind ≠ .endOfInput →
        ((Lexer.ofString source).performAll operations).position < after.position ∧
          after.position ≤ source.utf8ByteSize + 1) ∧
    (∃ calls, calls ≤ source.utf8ByteSize + 2 ∧
      (Lexer.ofString source).Collects calls (tokenize source)) ∧
    ∀ tokens, tokenize source = .ok tokens →
      tokens.length ≤ source.utf8ByteSize + 2 ∧
        ∃ front, tokens = front ++ [.newline, .endOfInput] ∧
          ∀ token ∈ front, token.kind ≠ .endOfInput := by
  have valid := Lexer.valid_ofString source
  have bytes : (Lexer.ofString source).unread = source.utf8ByteSize + 1 := rfl
  refine ⟨?_, ?_, ?_⟩
  · intro operations token after read notEnd
    have tracks := (Lexer.tracks_ofString source).performAll operations
    have stays := tracks.position_le_of_next tracks.closed read notEnd
    rw [length_text] at stays
    exact ⟨Lexer.position_lt_of_next read, stays⟩
  · obtain ⟨tokens, ending, drains⟩ := Lexer.exists_drains valid
    have few := drains.length_le_unread valid
    rw [tokenize_eq_outcome drains]
    exact ⟨tokens.length + 1, by omega, drains.collects valid⟩
  · intro tokens lexes
    obtain ⟨inside, rfl, drains⟩ := exists_drains_of_tokenize_ok lexes
    have few := drains.length_le_unread valid
    have last : inside.getLast? = some .newline :=
      drains.getLast?_eq rfl (closed_append_newline source.toList) (by simp [Lexer.ofString])
    obtain ⟨front, rfl⟩ := List.getLast?_eq_some_iff.mp last
    refine ⟨?_, front, by simp, ?_⟩
    · rw [List.length_append, List.length_singleton]
      omega
    · intro token isFront
      exact drains.inside token (List.mem_append_left _ isFront)

/-- A string with a zero byte in it, and a parenthesis. -/
theorem draining_ends_zero_byte :
    (∃ token after, (Lexer.ofString "\"\x00\"(").next = .ok token after ∧
      token = ⟨.string, "\x00"⟩ ∧ 0 < after.position ∧ after.position ≤ 5) ∧
    ∃ tokens front, tokenize "\"\x00\"(" = .ok tokens ∧ tokens.length ≤ 6 ∧
      tokens = front ++ [.newline, .endOfInput] ∧ ∀ token ∈ front, token.kind ≠ .endOfInput := by
  have ends := draining_ends "\"\x00\"("
  constructor
  · refine ⟨⟨.string, "\x00"⟩, _, rfl, rfl, ?_⟩
    exact ends.1 [] ⟨.string, "\x00"⟩ _ rfl (by decide)
  · have lexes : tokenize "\"\x00\"(" =
        .ok [⟨.string, "\x00"⟩, .ofKind .leftParen, .newline, .endOfInput] := by
      decide +kernel
    obtain ⟨few, front, isFront, inside⟩ := ends.2.2 _ lexes
    exact ⟨_, front, lexes, few, isFront, inside⟩

end TeenyC
