import TeenyC.Proofs.LineByLine
import TeenyC.Proofs.Token.Boundary

/-!
# Answers of a lexer

What a lexer answers, whatever is done with it, depends on the text from its cursor on and not on
the text before it: a lexer at the same text, so many bytes further on, gives the same answers,
with faults so many bytes further on.  Moving by single bytes over some characters of a text leads
to such a lexer.
-/

namespace TeenyC

open String (utf8Len)

namespace Lexer

/-! ## Answers -/

/-- What is learnt from an operation. -/
inductive Answer where
  | nothing
  | token (token : Token)
  | fault (error : LexicalError)
  | byte (value : UInt8)

/-- The same answer of a lexer that is so many bytes further on. -/
def Answer.shift (distance : Nat) : Answer → Answer
  | .fault error => .fault (error.shift distance)
  | answer => answer

/-- The answer to an operation. -/
def answer (lexer : Lexer) : Operation → Answer
  | .next =>
    match lexer.next with
    | .ok token _ => .token token
    | .error error _ => .fault error
  | .peek => .byte lexer.peek
  | .advance | .skipBlanks | .skipComment => .nothing

/-- The answers to operations, one after the other. -/
def answers (lexer : Lexer) : List Operation → List Answer
  | [] => []
  | operation :: operations => lexer.answer operation :: (lexer.perform operation).answers operations

section Answers

variable {later lexer : Lexer} {distance : Nat}

theorem Shifted.advance (shifted : later.Shifted lexer distance) :
    later.advance.Shifted lexer.advance distance := by
  have further : later.position + 1 = lexer.position + 1 + distance := by
    rw [shifted.position]
    omega
  rw [Lexer.advance, Lexer.advance, shifted.rest, shifted.inside]
  split
  · exact ⟨rfl, rfl, further⟩
  · split <;> exact ⟨rfl, rfl, further⟩

/-- Operations keep the distance. -/
theorem Shifted.perform (shifted : later.Shifted lexer distance) (operation : Operation) :
    (later.perform operation).Shifted (lexer.perform operation) distance := by
  cases operation with
  | next =>
      rw [Lexer.perform, Lexer.perform, afterNext, afterNext]
      rcases shifted.next_eq with ⟨token, after, afterLater, read, readLater, shiftedAfter⟩ |
        ⟨error, after, afterLater, fails, failsLater, shiftedAfter⟩
      · rwa [read, readLater]
      · rwa [fails, failsLater]
  | advance => exact shifted.advance
  | skipBlanks => exact shifted.skipBlanks
  | skipComment => exact shifted.skipComment
  | peek => exact shifted

theorem Shifted.answer (shifted : later.Shifted lexer distance) (operation : Operation) :
    later.answer operation = (lexer.answer operation).shift distance := by
  cases operation with
  | next =>
      rw [Lexer.answer, Lexer.answer]
      rcases shifted.next_eq with ⟨token, after, afterLater, read, readLater, _⟩ |
        ⟨error, after, afterLater, fails, failsLater, _⟩
      · rw [read, readLater]
        rfl
      · rw [fails, failsLater]
        rfl
  | peek =>
      rw [Lexer.answer, Lexer.answer, peek, peek, upcoming, upcoming, shifted.rest, shifted.inside]
      rfl
  | advance | skipBlanks | skipComment => rfl

/-- The same text in another place gives the same answers for ever. -/
theorem Shifted.answers (shifted : later.Shifted lexer distance) (operations : List Operation) :
    later.answers operations = (lexer.answers operations).map (·.shift distance) := by
  induction operations generalizing later lexer with
  | nil => rfl
  | cons operation operations inductionHypothesis =>
      rw [Lexer.answers, Lexer.answers, List.map_cons, shifted.answer,
        inductionHypothesis (shifted.perform operation)]

end Answers

/-! ## Text in front -/

/-- The lexer with so many bytes in front of its text. -/
def behind (lexer : Lexer) (distance : Nat) : Lexer :=
  { lexer with position := lexer.position + distance, size := lexer.size + distance }

section Behind

variable {lexer later : Lexer} {distance : Nat}

theorem shifted_behind (lexer : Lexer) (distance : Nat) :
    (lexer.behind distance).Shifted lexer distance :=
  ⟨rfl, rfl, rfl⟩

theorem Shifted.eq_behind (shifted : later.Shifted lexer distance)
    (size : later.size = lexer.size + distance) : later = lexer.behind distance := by
  obtain ⟨rest, position, inside, size⟩ := later
  obtain ⟨rfl, rfl, rfl⟩ := shifted
  obtain rfl := size
  rfl

theorem unread_behind (lexer : Lexer) (distance : Nat) :
    (lexer.behind distance).unread = lexer.unread :=
  Nat.add_sub_add_right ..

theorem size_afterNext (lexer : Lexer) : lexer.afterNext.size = lexer.size := by
  have start : lexer.tokenStart.size = lexer.size := by
    obtain ⟨comment, isComment⟩ := skipComment_eq_pass lexer.skipBlanks
    rw [tokenStart, isComment, size_pass, skipBlanks]
    split
    · exact size_pass ..
    · rfl
  rw [afterNext_eq]
  split
  · rw [size_pass, start]
  · exact start

/-- The next token does not depend on the bytes in front of the text. -/
theorem next_behind (lexer : Lexer) (distance : Nat) :
    (lexer.behind distance).next =
      match lexer.next with
      | .ok token after => .ok token (after.behind distance)
      | .error error after => .error (error.shift distance) (after.behind distance) := by
  have size := size_afterNext lexer
  have sizeLater := size_afterNext (lexer.behind distance)
  rw [afterNext] at size sizeLater
  rcases (shifted_behind lexer distance).next_eq with
    ⟨token, after, afterLater, read, readLater, shifted⟩ |
    ⟨error, after, afterLater, fails, failsLater, shifted⟩
  · rw [read] at size
    rw [readLater] at sizeLater
    dsimp only at size sizeLater
    rw [read, readLater, shifted.eq_behind (by rw [sizeLater, size, behind])]
  · rw [fails] at size
    rw [failsLater] at sizeLater
    dsimp only at size sizeLater
    rw [fails, failsLater, shifted.eq_behind (by rw [sizeLater, size, behind])]

end Behind

/-! ## Moving over characters -/

section Moving

variable {lexer : Lexer} {before after : List Char} {c : Char} {n : Nat}

theorem performAll_append (lexer : Lexer) (first second : List Operation) :
    lexer.performAll (first ++ second) = (lexer.performAll first).performAll second :=
  List.foldl_append

/-- Moving within a character. -/
theorem advances_inside (here : lexer.rest = c :: after) (short : lexer.inside + n < c.utf8Size) :
    lexer.performAll (List.replicate n .advance) =
      { lexer with position := lexer.position + n, inside := lexer.inside + n } := by
  induction n with
  | zero => rfl
  | succ n inductionHypothesis =>
      have within : lexer.inside + n + 1 < c.utf8Size := short
      rw [List.replicate_succ', performAll_append, inductionHypothesis (by omega)]
      change advance _ = _
      rw [advance, here]
      dsimp only
      rw [if_pos within]
      rfl

/-- Moving over a character. -/
theorem advances_character (between : lexer.inside = 0) (here : lexer.rest = c :: after) :
    lexer.performAll (List.replicate c.utf8Size .advance) =
      { lexer with rest := after, position := lexer.position + c.utf8Size } := by
  obtain ⟨n, isSize⟩ := Nat.exists_eq_succ_of_ne_zero c.utf8Size_pos.ne'
  rw [isSize, List.replicate_succ', performAll_append,
    advances_inside here (by rw [between, isSize]; omega)]
  change advance _ = _
  rw [advance, here]
  dsimp only
  rw [if_neg (by rw [between, isSize]; omega), ← between]
  rfl

/-- Moving over some characters. -/
theorem advances_text (between : lexer.inside = 0) (here : lexer.rest = before ++ after) :
    lexer.performAll (List.replicate (utf8Len before) .advance) =
      { lexer with rest := after, position := lexer.position + utf8Len before } := by
  induction before generalizing lexer with
  | nil =>
      obtain rfl : lexer.rest = after := here
      rfl
  | cons c before inductionHypothesis =>
      rw [String.utf8Len_cons, Nat.add_comm, List.replicate_add, performAll_append,
        advances_character between here]
      refine Eq.trans (inductionHypothesis ?_ ?_) ?_
      · exact between
      · rfl
      · rw [Nat.add_assoc]

/-- Over the first part of a text one comes to the second part, with the first in front of it. -/
theorem advances_ofString (before after : String) :
    (ofString (before ++ after)).performAll (List.replicate before.utf8ByteSize .advance) =
      (ofString after).behind before.utf8ByteSize := by
  have here : (ofString (before ++ after)).rest = before.toList ++ (ofString after).rest := by
    simp [ofString]
  have size : (ofString (before ++ after)).size =
      (ofString after).size + before.utf8ByteSize := by
    simp only [ofString, String.utf8ByteSize_append]
    omega
  rw [← String.utf8Len_toList, advances_text rfl here, String.utf8Len_toList, behind, ← size]
  rfl

end Moving

end Lexer

end TeenyC
