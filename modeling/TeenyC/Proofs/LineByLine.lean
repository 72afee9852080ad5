import TeenyC.Proofs.FirstFault

/-!
# Tokens line by line

Nothing that is read depends on what stands before the cursor, and nothing looks past the end
of its line.  So the tokens of two texts with a line end between them are those of the first
text and then those of the second: the line end takes the place of the one that the first text
is given behind its end.  Only the positions of faults in the second text tell where it stands.
-/

namespace TeenyC

/-- The same fault, at a place so many bytes further on. -/
def LexicalError.shift (error : LexicalError) (distance : Nat) : LexicalError :=
  { error with position := error.position + distance }

namespace Lexer

/-! ## The same text in another place -/

/-- The other lexer is at the same text, so many bytes further on. -/
structure Shifted (later lexer : Lexer) (distance : Nat) : Prop where
  rest : later.rest = lexer.rest
  inside : later.inside = lexer.inside
  position : later.position = lexer.position + distance

variable {later lexer : Lexer} {distance : Nat} {tokens : List Token}
  {ending : Option LexicalError}

theorem Shifted.pass (shifted : later.Shifted lexer distance) (n : Nat) :
    (later.pass n).Shifted (lexer.pass n) distance where
  rest := by rw [rest_pass, rest_pass, shifted.rest]
  inside := by rw [inside_pass, inside_pass, shifted.inside]
  position := by
    rw [position_pass, position_pass, shifted.position, shifted.rest]
    omega

theorem Shifted.skipBlanks (shifted : later.Shifted lexer distance) :
    later.skipBlanks.Shifted lexer.skipBlanks distance := by
  rw [Lexer.skipBlanks, Lexer.skipBlanks, shifted.inside, shifted.rest]
  split
  · exact shifted.pass _
  · exact shifted

theorem Shifted.skipComment (shifted : later.Shifted lexer distance) :
    later.skipComment.Shifted lexer.skipComment distance := by
  rw [Lexer.skipComment, Lexer.skipComment, shifted.inside, shifted.rest]
  split
  · exact shifted.pass _
  · exact shifted

/-- What is read does not depend on the place, and a fault is at the same distance. -/
theorem Shifted.next_eq (shifted : later.Shifted lexer distance) :
    (∃ token after afterLater, lexer.next = .ok token after ∧
      later.next = .ok token afterLater ∧ afterLater.Shifted after distance) ∨
    (∃ error after afterLater, lexer.next = .error error after ∧
      later.next = .error (error.shift distance) afterLater ∧
      afterLater.Shifted after distance) := by
  have start : later.tokenStart.Shifted lexer.tokenStart distance :=
    shifted.skipBlanks.skipComment
  rw [Lexer.next_eq, Lexer.next_eq, start.inside, start.rest]
  split
  · have passed := start.pass (Lexeme.read lexer.tokenStart.rest).passed
    cases (Lexeme.read lexer.tokenStart.rest).result with
    | ok token => exact .inl ⟨token, _, _, rfl, rfl, passed⟩
    | error cause =>
        refine .inr ⟨_, _, _, rfl, ?_, passed⟩
        rw [passed.position]
        rfl
  · refine .inr ⟨_, _, _, rfl, ?_, start⟩
    rw [start.position]
    rfl

/-- A lexer that stands further on gives the same tokens, and its fault there. -/
theorem Drains.shift (drains : lexer.Drains tokens ending)
    (shifted : later.Shifted lexer distance) :
    later.Drains tokens (ending.map (·.shift distance)) := by
  induction drains generalizing later with
  | @ended lexer after token read isEnd =>
      rcases shifted.next_eq with ⟨_, _, _, same, reads, _⟩ | ⟨_, _, _, fails, _⟩
      · rw [same] at read
        cases read
        exact .ended reads isEnd
      · rw [fails] at read
        cases read
  | @fault lexer after error fails =>
      rcases shifted.next_eq with ⟨_, _, _, reads, _⟩ | ⟨_, _, _, same, failsLater, _⟩
      · rw [reads] at fails
        cases fails
      · rw [same] at fails
        cases fails
        exact .fault failsLater
  | @more lexer after token others ending read notEnd _ inductionHypothesis =>
      rcases shifted.next_eq with ⟨_, _, _, same, reads, shiftedAfter⟩ | ⟨_, _, _, fails, _⟩
      · rw [same] at read
        cases read
        exact .more reads notEnd (inductionHypothesis shiftedAfter)
      · rw [fails] at read
        cases read

end Lexer

/-! ## Two texts with a line end between them -/

/-- What two texts give one after the other, line by line: the tokens of the first and then all
that the second gives, or the fault of the first. -/
theorem drains_append_line (first second : String) {tokens others : List Token}
    {ending otherEnding : Option LexicalError}
    (drains : (Lexer.ofString first).Drains tokens ending)
    (otherDrains : (Lexer.ofString second).Drains others otherEnding) :
    (∃ error, ending = some error ∧
      (Lexer.ofString (first ++ "\n" ++ second)).Drains tokens (some error)) ∨
    (ending = none ∧
      (Lexer.ofString (first ++ "\n" ++ second)).Drains (tokens ++ others)
        (otherEnding.map (·.shift (first.utf8ByteSize + 1)))) := by
  have closed : Closed (Lexer.ofString first).rest := closed_append_newline first.toList
  rcases drains.extend_from_end (Lexer.extends_ofString first second) closed with
    ⟨error, rfl, fails⟩ | ⟨isEnd, last, lastRest, lastInside, lastPosition, rest⟩
  · exact .inl ⟨error, rfl, fails⟩
  · have shifted : last.Shifted (.ofString second) (first.utf8ByteSize + 1) := by
      refine ⟨lastRest, lastInside, ?_⟩
      have newline : '\n'.utf8Size = 1 := rfl
      rw [lastPosition]
      simp [Lexer.ofString, newline]
    exact .inr ⟨isEnd, rest _ _ (otherDrains.shift shifted)⟩

/-- The tokens of a text are those of its lines.  With a line end and more text behind it, a text
that has tokens gives them and then what the second text gives, with faults as many bytes further
on as stand before it; and a text with a fault gives this fault. -/
theorem tokenize_append_line (first second : String) :
    (∀ tokens, tokenize first = .ok (tokens ++ [.endOfInput]) →
      tokenize (first ++ "\n" ++ second) =
        match tokenize second with
        | .ok others => .ok (tokens ++ others)
        | .error fault => .error (fault.shift (first.utf8ByteSize + 1))) ∧
    (∀ fault, tokenize first = .error fault →
      tokenize (first ++ "\n" ++ second) = .error fault) := by
  obtain ⟨inside, ending, drains⟩ := Lexer.exists_drains (Lexer.valid_ofString first)
  obtain ⟨others, otherEnding, otherDrains⟩ := Lexer.exists_drains (Lexer.valid_ofString second)
  rw [tokenize_eq_outcome drains, tokenize_eq_outcome otherDrains]
  rcases drains_append_line first second drains otherDrains with
    ⟨error, rfl, fails⟩ | ⟨rfl, goesOn⟩
  · rw [tokenize_eq_outcome fails]
    exact ⟨nofun, fun _ same => same⟩
  · rw [tokenize_eq_outcome goesOn]
    refine ⟨?_, nofun⟩
    intro tokens same
    obtain rfl : inside = tokens := List.append_cancel_right (Except.ok.inj same)
    cases otherEnding with
    | none => exact congrArg Except.ok (List.append_assoc ..)
    | some fault => rfl

/-- A quote is not closed on a later line, and a fault there counts from the start of the text. -/
example : tokenize ("print \"é" ++ "\n" ++ "\"") = .error ⟨9, .openString⟩ ∧
    tokenize ("print \"é\"" ++ "\n" ++ "!") = .error ⟨11, .loneExclamation '\n'⟩ := by
  decide +kernel

end TeenyC
