import TeenyC.Proofs.Compile.OnDemand

/-!
# Reading tokens inside a character

A lexer can be used in any order: tokens can be asked for, also after a fault and behind the
end of the text, blanks and comments can be skipped, and the cursor can be moved by single
bytes.  Asking for a token fails without a proper fault exactly where the cursor is inside a
character, and only moving by single bytes takes it there.
-/

namespace TeenyC

open Lexer (Operation)

/-- A token cannot be read exactly where the cursor is strictly inside a character, and asking
for one there changes nothing.  As long as the cursor is not moved by single bytes it is at
boundaries between characters of the source or past its end, tokens can be read everywhere, and
faults are at boundaries; so it is in the whole of `tokenize` and `compile`. -/
theorem next_failsInside_iff (source : String) :
    (∀ operations lexer, (Lexer.ofString source).performAll operations = lexer →
      (lexer.FailsInside ↔ InsideCharacter source lexer.position) ∧
      (∀ error after, lexer.next = .error error after → error.cause = .insideCharacter →
        after = lexer) ∧
      (Operation.advance ∉ operations →
        lexer.AtBoundary source ∧ ¬ lexer.FailsInside ∧
          ∀ error after, lexer.next = .error error after →
            String.Pos.Raw.IsValid source ⟨error.position⟩)) ∧
    (∀ fault, tokenize source = .error fault →
      fault.cause ≠ .insideCharacter ∧ String.Pos.Raw.IsValid source ⟨fault.position⟩) ∧
    (∀ fault, compile source = .error (.lexical fault) →
      fault.cause ≠ .insideCharacter ∧ String.Pos.Raw.IsValid source ⟨fault.position⟩) ∧
    (∀ unit session, Session.start (.ofString source) unit = .ok session →
      session.lexer.AtBoundary source ∧
      (∀ summary after, Rule.program session = .ok summary after →
        after.lexer.AtBoundary source) ∧
      (∀ error after, Rule.program session = .error error after →
        after.lexer.AtBoundary source)) := by
  refine ⟨?_, ?_, ?_, ?_⟩
  · rintro operations lexer rfl
    have tracks := (Lexer.tracks_ofString source).performAll operations
    refine ⟨?_, ?_, ?_⟩
    · rw [tracks.failsInside_iff, tracks.insideCharacter_iff]
    · intro error after fails isInside
      have within : ((Lexer.ofString source).performAll operations).inside ≠ 0 := by
        intro between
        exact (tracks.isValid_of_fault between fails).2 isInside
      rw [Lexer.next_of_inside within] at fails
      cases fails
      rfl
    · intro whole
      have between := Lexer.inside_performAll (rfl : (Lexer.ofString source).inside = 0) whole
      refine ⟨tracks.atBoundary between, ?_, ?_⟩
      · rw [tracks.failsInside_iff]
        exact not_not_intro between
      · intro error after fails
        exact (tracks.isValid_of_fault between fails).1
  · intro fault fails
    exact (Lexer.meets_of_tokens fails).isValid
  · intro fault fails
    exact (meets_of_compile fails).isValid
  · intro unit session starts
    have begins := Session.start_onlyReads (.ofString source) unit
    rw [starts] at begins
    have runs := Rule.onlyReads_program begins
    refine ⟨begins.atBoundary, ?_, ?_⟩
    · intro summary after run
      rw [run] at runs
      exact runs.atBoundary
    · intro error after run
      rw [run] at runs
      exact runs.1.atBoundary

/-- One byte into a character no token is read, and behind it reading goes on. -/
example : ((Lexer.ofString "é+").performAll [.advance]).FailsInside ∧
    ∃ after, ((Lexer.ofString "é+").performAll [.advance, .next, .advance]).next =
      .ok (.ofKind .plus) after :=
  ⟨⟨_, _, rfl⟩, _, rfl⟩

end TeenyC
