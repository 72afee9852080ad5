import TeenyC.Proofs.Compile.Agreement

/-!
# Blank lines and other layout

Compilation sees a source text through its tokens only, and of line ends in a row it sees
only that there are some.  So texts whose tokens are the same without blank lines compile to
the same artifact, or fail with the same error.
-/

namespace TeenyC

open Syntax (collapse)

/-! ## Tokens without blank lines -/

/-- Blank lines are skipped or taken out, with the same result. -/
theorem collapse_dropWhile (tokens : List Token) :
    collapse false (tokens.dropWhile (·.is .newline)) = collapse true tokens := by
  induction tokens with
  | nil => rfl
  | cons token rest inductionHypothesis =>
      rw [List.dropWhile_cons, collapse]
      by_cases isNewline : token.kind = .newline
      · rw [if_pos (Token.is_eq_true_iff.mpr isNewline), if_pos isNewline, if_pos rfl,
          inductionHypothesis]
      · rw [if_neg (mt Token.is_eq_true_iff.mp isNewline), if_neg isNewline, collapse,
          if_neg isNewline]

theorem head?_collapse (tokens : List Token) :
    (collapse false tokens).head? = tokens.head? := by
  cases tokens with
  | nil => rfl
  | cons token rest =>
      rw [collapse]
      split <;> rfl

theorem collapse_cons_newline {token : Token} (isNewline : token.kind = .newline)
    (rest : List Token) : collapse false (token :: rest) = token :: collapse true rest := by
  rw [collapse, if_pos isNewline, if_neg Bool.false_ne_true]

theorem collapse_cons_inline {token : Token} (onLine : token.kind ≠ .newline)
    (rest : List Token) : collapse false (token :: rest) = token :: collapse false rest := by
  rw [collapse, if_neg onLine]

/-- The end of the input is left where it is. -/
theorem collapse_append_endOfInput (ended : Bool) (tokens : List Token) :
    collapse ended (tokens ++ [.endOfInput]) = collapse ended tokens ++ [.endOfInput] := by
  induction tokens generalizing ended with
  | nil => rfl
  | cons token rest inductionHypothesis =>
      simp only [List.cons_append, collapse, inductionHypothesis]
      split
      · split <;> rfl
      · rfl

/-! ## Runs on tokens that differ in blank lines -/

/-- Two runs on tokens that are the same without blank lines. -/
def Lockstep.blankLines : Lockstep where
  ending := none
  otherEnding := none
  goesOn := False
  opening tokens others := collapse true tokens = collapse true others
  inLine tokens others := collapse false tokens = collapse false others
  skip := by
    intro tokens others same
    left
    rw [collapse_dropWhile, collapse_dropWhile, same]
  head := by
    intro tokens others same
    rw [← head?_collapse tokens, same, head?_collapse]
  inside := by
    intro token tokens others same onLine
    rw [collapse_cons_inline onLine, collapse_cons_inline onLine] at same
    exact (List.cons.inj same).2
  line := by
    intro token tokens others same isNewline
    rw [collapse_cons_newline isNewline, collapse_cons_newline isNewline] at same
    exact (List.cons.inj same).2
  faults := .inl ⟨rfl, rfl⟩

/-- Layout does not matter: source texts with the same tokens up to blank lines compile to the
same artifact or fail with the same error. -/
theorem compile_eq_of_collapse_eq {source other : String} {tokens others : List Token}
    (lexes : tokenize source = .ok tokens) (otherLexes : tokenize other = .ok others)
    (same : collapse true tokens = collapse true others) : compile source = compile other := by
  obtain ⟨inside, rfl, drains⟩ := exists_drains_of_tokenize_ok lexes
  obtain ⟨otherInside, rfl, otherDrains⟩ := exists_drains_of_tokenize_ok otherLexes
  rw [collapse_append_endOfInput, collapse_append_endOfInput] at same
  have foretells := Lockstep.blankLines.foretells_of_drains drains otherDrains
    (List.append_cancel_right same)
  cases result : compile source with
  | ok artifact =>
      obtain ⟨_, sameResult | never⟩ := foretells.ofOk result
      · exact sameResult.symm
      · exact never.elim
  | error error =>
      obtain ⟨_, sameResult | ⟨never, _⟩⟩ := foretells.ofError result
      · exact sameResult.symm
      · exact never.elim

/-- Blanks, comments and blank lines, before and between the lines and at the end. -/
theorem compile_eq_of_collapse_eq_comments :
    tokenize "# squares\n\n\nlet x=2# two\n\t\nprint x*x" =
      .ok [.newline, .newline, .newline, .ofKind .letKeyword, .ofName "x", .ofKind .assign,
        ⟨.number, "2"⟩, .newline, .newline, .ofKind .printKeyword, .ofName "x", .ofKind .times,
        .ofName "x", .newline, .endOfInput] ∧
    tokenize "let x = 2\nprint x * x\n\n" =
      .ok [.ofKind .letKeyword, .ofName "x", .ofKind .assign, ⟨.number, "2"⟩, .newline,
        .ofKind .printKeyword, .ofName "x", .ofKind .times, .ofName "x", .newline, .newline,
        .newline, .endOfInput] ∧
    compile "# squares\n\n\nlet x=2# two\n\t\nprint x*x" =
      compile "let x = 2\nprint x * x\n\n" := by
  have lexes : tokenize "# squares\n\n\nlet x=2# two\n\t\nprint x*x" =
      .ok [.newline, .newline, .newline, .ofKind .letKeyword, .ofName "x", .ofKind .assign,
        ⟨.number, "2"⟩, .newline, .newline, .ofKind .printKeyword, .ofName "x", .ofKind .times,
        .ofName "x", .newline, .endOfInput] := by
    decide +kernel
  have otherLexes : tokenize "let x = 2\nprint x * x\n\n" =
      .ok [.ofKind .letKeyword, .ofName "x", .ofKind .assign, ⟨.number, "2"⟩, .newline,
        .ofKind .printKeyword, .ofName "x", .ofKind .times, .ofName "x", .newline, .newline,
        .newline, .endOfInput] := by
    decide +kernel
  exact ⟨lexes, otherLexes, compile_eq_of_collapse_eq lexes otherLexes (by decide)⟩

end TeenyC
