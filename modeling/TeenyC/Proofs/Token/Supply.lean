import Mathlib.Data.String.Basic
import TeenyC.Proofs.Token.WellFormed
import TeenyC.Token.Lexer

/-!
# The supply of tokens

A lexer that starts at a source text counts its position in step with the text
that is left.  Under this invariant every token but the end of the input takes at
least one byte, the end of the input comes again and again once it has come, and
the bound that `tokenize` puts on the number of tokens never cuts anything off:
`tokenize` gives exactly the tokens that the lexer hands out one by one.
-/

namespace TeenyC

open String (utf8Len)

namespace Lexer

/-! ## Passing characters -/

@[simp]
theorem inside_pass (n : Nat) (lexer : Lexer) : (lexer.pass n).inside = lexer.inside := by
  induction n generalizing lexer with
  | zero => rfl
  | succ n inductionHypothesis =>
      rw [pass]
      split <;> rw [inductionHypothesis]

@[simp]
theorem size_pass (n : Nat) (lexer : Lexer) : (lexer.pass n).size = lexer.size := by
  induction n generalizing lexer with
  | zero => rfl
  | succ n inductionHypothesis =>
      rw [pass]
      split <;> rw [inductionHypothesis]

@[simp]
theorem rest_pass (n : Nat) (lexer : Lexer) : (lexer.pass n).rest = lexer.rest.drop n := by
  induction n generalizing lexer with
  | zero => rfl
  | succ n inductionHypothesis =>
      rw [pass]
      split
      · next atEnd => simp [inductionHypothesis, atEnd]
      · next c rest here => simp [inductionHypothesis, here]

/-- The position moves by the bytes passed, and by one for each place past the end. -/
theorem position_pass (n : Nat) (lexer : Lexer) :
    (lexer.pass n).position =
      lexer.position + utf8Len (lexer.rest.take n) + (n - lexer.rest.length) := by
  induction n generalizing lexer with
  | zero => simp [pass]
  | succ n inductionHypothesis =>
      rw [pass]
      split
      · next atEnd =>
          rw [inductionHypothesis]
          simp only [atEnd, List.take_nil, String.utf8Len_nil, List.length_nil]
          omega
      · next c rest here =>
          rw [inductionHypothesis]
          simp only [here, List.take_succ_cons, String.utf8Len_cons, List.length_cons]
          omega

theorem le_utf8Len_take {n : Nat} {text : List Char} (inside : n ≤ text.length) :
    n ≤ utf8Len (text.take n) := by
  induction text generalizing n with
  | nil => simp_all
  | cons c rest inductionHypothesis =>
      cases n with
      | zero => simp
      | succ n =>
          have tail := inductionHypothesis (Nat.le_of_succ_le_succ inside)
          have head := Char.utf8Size_pos c
          simp only [List.take_succ_cons, String.utf8Len_cons]
          omega

/-! ## Valid lexers -/

/-- The position is in step with the text that is left: behind the text at the end,
and before the end as many bytes as are left from the character at the cursor on. -/
structure Valid (lexer : Lexer) : Prop where
  ended : lexer.rest = [] → lexer.size ≤ lexer.position
  counted : lexer.rest ≠ [] →
    lexer.position + utf8Len lexer.rest = lexer.size + lexer.inside

theorem valid_ofString (source : String) : (ofString source).Valid where
  ended := by simp [ofString]
  counted := by
    have sized : utf8Len source.toList = source.utf8ByteSize := by
      rw [← String.utf8ByteSize_ofList, String.ofList_toList]
    have newline : '\n'.utf8Size = 1 := rfl
    simp [ofString, sized, newline]

theorem Valid.pass {lexer : Lexer} (valid : lexer.Valid) (between : lexer.inside = 0)
    (n : Nat) : (lexer.pass n).Valid := by
  have split : utf8Len (lexer.rest.take n) + utf8Len (lexer.rest.drop n) =
      utf8Len lexer.rest := by
    rw [← String.utf8Len_append, List.take_append_drop]
  constructor
  · intro atEnd
    rw [rest_pass] at atEnd
    rw [atEnd, String.utf8Len_nil] at split
    rw [position_pass, size_pass]
    by_cases empty : lexer.rest = []
    · have ended := valid.ended empty
      omega
    · have counted := valid.counted empty
      omega
  · intro more
    rw [rest_pass] at more
    have nonempty : lexer.rest ≠ [] := by
      intro empty
      simp [empty] at more
    have short : n < lexer.rest.length := by
      simpa using more
    have counted := valid.counted nonempty
    rw [position_pass, size_pass, rest_pass, inside_pass]
    omega

theorem unread_pass_le (n : Nat) (lexer : Lexer) : (lexer.pass n).unread ≤ lexer.unread := by
  simp only [unread, size_pass, position_pass]
  omega

/-- Passing characters of the text leaves less of it unread. -/
theorem unread_pass_lt {n : Nat} {lexer : Lexer} (valid : lexer.Valid)
    (between : lexer.inside = 0) (moves : 0 < n) (stays : n ≤ lexer.rest.length) :
    (lexer.pass n).unread < lexer.unread := by
  have taken := le_utf8Len_take stays
  have counted := valid.counted (List.ne_nil_of_length_pos (by omega))
  have split : utf8Len (lexer.rest.take n) + utf8Len (lexer.rest.drop n) =
      utf8Len lexer.rest := by
    rw [← String.utf8Len_append, List.take_append_drop]
  simp only [unread, size_pass, position_pass]
  omega

/-! ## Blanks and comments -/

/-- The cursor behind the blanks and the comment in front of the next token. -/
def tokenStart (lexer : Lexer) : Lexer :=
  lexer.skipBlanks.skipComment

theorem skipBlanks_eq_pass {lexer : Lexer} (between : lexer.inside = 0) :
    ∃ n, lexer.skipBlanks = lexer.pass n :=
  ⟨_, if_pos between⟩

theorem skipComment_eq_pass (lexer : Lexer) : ∃ n, lexer.skipComment = lexer.pass n := by
  rw [skipComment]
  split
  · exact ⟨_, rfl⟩
  · exact ⟨0, rfl⟩

theorem tokenStart_of_inside {lexer : Lexer} (within : lexer.inside ≠ 0) :
    lexer.tokenStart = lexer := by
  rw [tokenStart, skipBlanks, if_neg within, skipComment]
  split
  · next isZero _ => exact absurd isZero within
  · rfl

theorem tokenStart_of_rest_nil {lexer : Lexer} (atEnd : lexer.rest = []) :
    lexer.tokenStart = lexer := by
  have blanks : lexer.skipBlanks = lexer := by
    rw [skipBlanks]
    split
    · simp [atEnd, pass]
    · rfl
  rw [tokenStart, blanks, skipComment]
  split
  · next found => simp [atEnd] at found
  · rfl

theorem tokenStart_spec {lexer : Lexer} (valid : lexer.Valid) (between : lexer.inside = 0) :
    lexer.tokenStart.Valid ∧ lexer.tokenStart.inside = 0 ∧
      lexer.tokenStart.unread ≤ lexer.unread := by
  obtain ⟨blanks, blanksEq⟩ := skipBlanks_eq_pass between
  obtain ⟨comment, commentEq⟩ := skipComment_eq_pass lexer.skipBlanks
  rw [tokenStart, commentEq, blanksEq]
  have betweenBlanks : (lexer.pass blanks).inside = 0 := by
    rw [inside_pass, between]
  refine ⟨(valid.pass between blanks).pass betweenBlanks comment, ?_, ?_⟩
  · rw [inside_pass, betweenBlanks]
  · exact (unread_pass_le _ _).trans (unread_pass_le _ _)

/-! ## One token -/

/-- A lexer behind its text, at a place where a token can be read. -/
def Ended (lexer : Lexer) : Prop :=
  lexer.rest = [] ∧ lexer.inside = 0

/-- What reading a token does to a valid lexer.  The end of the input is read only
behind the text, and every other token takes some of it. -/
structure Reads (lexer : Lexer) (token : Token) (after : Lexer) : Prop where
  valid : after.Valid
  wellFormed : token.WellFormed
  ended : token.kind = .endOfInput → after.Ended
  moves : token.kind ≠ .endOfInput → after.unread < lexer.unread
  bounded : after.unread ≤ lexer.unread

theorem next_eq {lexer : Lexer} :
    lexer.next =
      if lexer.tokenStart.inside = 0 then
        match (Lexeme.read lexer.tokenStart.rest).result with
        | .ok token =>
          .ok token (lexer.tokenStart.pass (Lexeme.read lexer.tokenStart.rest).passed)
        | .error cause =>
          .error
            ⟨(lexer.tokenStart.pass (Lexeme.read lexer.tokenStart.rest).passed).position, cause⟩
            (lexer.tokenStart.pass (Lexeme.read lexer.tokenStart.rest).passed)
      else
        .error ⟨lexer.tokenStart.position, .insideCharacter⟩ lexer.tokenStart :=
  rfl

/-- Behind the text the next token is the end of the input, again and again. -/
theorem next_of_ended {lexer : Lexer} (ended : lexer.Ended) :
    ∃ after, lexer.next = .ok .endOfInput after ∧ after.Ended := by
  have start := tokenStart_of_rest_nil ended.1
  refine ⟨lexer.pass 1, ?_, ?_, ?_⟩
  · rw [next_eq, start, if_pos ended.2, ended.1]
    rfl
  · simp [ended.1]
  · simp [ended.2]

/-- In the middle of a character no token can be read. -/
theorem inside_of_next {lexer after : Lexer} {token : Token}
    (read : lexer.next = .ok token after) : lexer.inside = 0 := by
  apply Decidable.byContradiction
  intro within
  rw [next_eq, tokenStart_of_inside within, if_neg within] at read
  contradiction

theorem reads_of_next {lexer after : Lexer} {token : Token} (valid : lexer.Valid)
    (read : lexer.next = .ok token after) : lexer.Reads token after := by
  have between := inside_of_next read
  obtain ⟨startValid, startBetween, startUnread⟩ := tokenStart_spec valid between
  rw [next_eq, if_pos startBetween] at read
  cases here : lexer.tokenStart.rest with
  | nil =>
      rw [here] at read
      simp only [Lexeme.read, EStateM.Result.ok.injEq] at read
      rcases read with ⟨rfl, rfl⟩
      refine ⟨startValid.pass startBetween 1, rfl, ?_, ?_, ?_⟩
      · intro _
        exact ⟨by simp [here], by simp [startBetween]⟩
      · intro notEnd
        exact absurd rfl notEnd
      · exact (unread_pass_le _ _).trans startUnread
  | cons first rest =>
      rw [here] at read
      cases found : (Lexeme.read (first :: rest)).result with
      | error cause => simp [found] at read
      | ok given =>
          simp only [found, EStateM.Result.ok.injEq] at read
          rcases read with ⟨rfl, rfl⟩
          have sound := Lexeme.read_sound found
          have stays : (Lexeme.read (first :: rest)).passed ≤ lexer.tokenStart.rest.length := by
            rw [here]
            exact sound.stays
          refine ⟨startValid.pass startBetween _, sound.wellFormed, ?_, ?_, ?_⟩
          · intro isEnd
            exact absurd isEnd sound.notEnd
          · intro _
            exact (unread_pass_lt startValid startBetween sound.moves stays).trans_le startUnread
          · exact (unread_pass_le _ _).trans startUnread

/-! ## All tokens -/

/-- The lexer hands out these tokens one after the other, the last of which is the
end of the input and the first one to be that. -/
inductive Supplies : Lexer → List Token → Prop
  | last {lexer after : Lexer} {token : Token} (read : lexer.next = .ok token after)
      (isEnd : token.kind = .endOfInput) : Supplies lexer [token]
  | more {lexer after : Lexer} {token : Token} {rest : List Token}
      (read : lexer.next = .ok token after) (notEnd : token.kind ≠ .endOfInput)
      (others : Supplies after rest) : Supplies lexer (token :: rest)

/-- A bound above the unread bytes does not cut the tokens off. -/
theorem tokens_eq_ok_iff {n : Nat} {lexer : Lexer} (valid : lexer.Valid)
    (enough : lexer.unread < n) {tokens : List Token} :
    lexer.tokens n = .ok tokens ↔ lexer.Supplies tokens := by
  induction n generalizing lexer tokens with
  | zero => omega
  | succ n inductionHypothesis =>
      rw [Lexer.tokens]
      cases read : lexer.next with
      | error error after =>
          refine ⟨nofun, ?_⟩
          intro supplies
          cases supplies <;> simp_all
      | ok token after =>
          have reads := reads_of_next valid read
          by_cases isEnd : token.kind = .endOfInput
          · simp only [isEnd, if_true, Except.ok.injEq]
            constructor
            · rintro rfl
              exact .last read isEnd
            · intro supplies
              cases supplies <;> simp_all
          · have remaining := reads.moves isEnd
            have tail := @inductionHypothesis after reads.valid (by omega)
            simp only [isEnd, if_false]
            constructor
            · intro found
              cases others : after.tokens n with
              | error error => simp [others, Except.map] at found
              | ok rest =>
                  simp only [others, Except.map, Except.ok.injEq] at found
                  subst found
                  exact .more read isEnd (tail.mp others)
            · intro supplies
              cases supplies with
              | last => simp_all
              | more readAgain _ others =>
                  simp only [read, EStateM.Result.ok.injEq] at readAgain
                  rcases readAgain with ⟨rfl, rfl⟩
                  rw [tail.mpr others]
                  rfl

end Lexer

/-- The tokens of a source text are the ones that a lexer on it hands out. -/
theorem tokenize_eq_ok_iff {source : String} {tokens : List Token} :
    tokenize source = .ok tokens ↔ (Lexer.ofString source).Supplies tokens :=
  Lexer.tokens_eq_ok_iff (Lexer.valid_ofString source) (Nat.lt_succ_self _)

end TeenyC
