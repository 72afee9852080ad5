import TeenyC.Proofs.Compile.Agreement

/-!
# The first fault

A program is rejected for the first fault that is met while reading it.  Tokens are read on
demand and only two at a time, so a fault of the grammar may be met before a lexical fault
further on; but nothing that is said at the end of the input is said where a lexical fault
stands before it, and the lexical fault that is met is the one that `tokenize` meets.

For the same reason no text behind a fault can make up for it, unless the fault is that
something is missing at the end of the input.
-/

namespace TeenyC

/-- Two runs on the same tokens, which end in the same way. -/
def Lockstep.same (ending : Option LexicalError) : Lockstep where
  ending := ending
  otherEnding := ending
  goesOn := False
  opening := Eq
  inLine := Eq
  skip := by
    rintro tokens _ rfl
    exact .inl rfl
  head := by
    rintro tokens _ rfl
    rfl
  inside related _ := (List.cons.inj related).2
  line related _ := (List.cons.inj related).2
  faults := .inr ⟨id, rfl, id, id⟩

/-! ## Tokens on demand -/

/-- Compilation meets the lexical faults that `tokenize` meets: it succeeds only on texts
that have tokens, a lexical error of it is the one of `tokenize`, and before a lexical fault
it stops there or earlier, without having come to the end of the input. -/
theorem compile_meets_faults_of_tokenize (source : String) :
    (∀ artifact, compile source = .ok artifact → ∃ tokens, tokenize source = .ok tokens) ∧
    (∀ fault, compile source = .error (.lexical fault) → tokenize source = .error fault) ∧
    (∀ fault, tokenize source = .error fault →
      compile source = .error (.lexical fault) ∨
      (∃ earlier, compile source = .error (.syntactic earlier) ∧
        earlier.found ≠ .endOfInput) ∨
      (∃ earlier, compile source = .error (.semantic earlier) ∧
        ∀ name, earlier ≠ .unknownLabel name)) := by
  obtain ⟨tokens, ending, drains⟩ := Lexer.exists_drains (Lexer.valid_ofString source)
  have foretells := (Lockstep.same ending).foretells_of_drains drains drains rfl
  rw [tokenize_eq_outcome drains]
  refine ⟨?_, ?_, ?_⟩
  · intro artifact compiles
    obtain ⟨noFault, _⟩ := foretells.ofOk compiles
    obtain rfl : ending = none := noFault
    exact ⟨_, rfl⟩
  · intro fault fails
    obtain ⟨fits, _⟩ := foretells.ofError fails
    obtain rfl : ending = some fault := fits
    rfl
  · intro fault lexFails
    cases ending with
    | none => cases lexFails
    | some found =>
        cases lexFails
        cases result : compile source with
        | ok artifact =>
            obtain ⟨noFault, _⟩ := foretells.ofOk result
            cases noFault
        | error error =>
            obtain ⟨fits, _⟩ := foretells.ofError result
            cases error with
            | lexical met =>
                obtain rfl : fault = met := Option.some.inj fits
                exact .inl rfl
            | syntactic earlier =>
                refine .inr (.inl ⟨earlier, rfl, ?_⟩)
                intro atEnd
                cases fits atEnd
            | semantic earlier =>
                refine .inr (.inr ⟨earlier, rfl, ?_⟩)
                rintro name rfl
                cases fits

/-- The lexical fault on the third line is not met, as the call on the first one fails. -/
example : tokenize "f\n\n?" = .error ⟨3, .unknownCharacter '?'⟩ ∧
    compile "f\n\n?" = .error (.semantic (.unknownFunction "f" false)) := by
  decide +kernel

/-! ## More text behind a fault -/

/-- The tokens close with a line end. -/
def EndsInLine (tokens : List Token) : Prop :=
  tokens.getLast? = some .newline

theorem EndsInLine.ne_nil {tokens : List Token} (ends : EndsInLine tokens) : tokens ≠ [] := by
  rintro rfl
  cases ends

theorem EndsInLine.of_cons {token : Token} {tokens : List Token}
    (ends : EndsInLine (token :: tokens)) :
    (token = .newline ∧ tokens = []) ∨ EndsInLine tokens := by
  cases tokens with
  | nil => exact .inl ⟨Option.some.inj ends, rfl⟩
  | cons next others =>
      right
      rwa [EndsInLine, List.getLast?_cons_cons] at ends

theorem EndsInLine.dropWhile {tokens : List Token} (ends : EndsInLine tokens)
    {among : Token → Bool} (notNil : tokens.dropWhile among ≠ []) :
    EndsInLine (tokens.dropWhile among) := by
  have split : tokens.takeWhile among ++ tokens.dropWhile among = tokens :=
    List.takeWhile_append_dropWhile
  rwa [← split, EndsInLine, List.getLast?_append_of_ne_nil _ notNil] at ends

/-- The second run has more tokens behind the lines of the first one. -/
def Lockstep.continued (more : List Token) : Lockstep where
  ending := none
  otherEnding := none
  goesOn := True
  opening tokens others := (tokens = [] ∨ EndsInLine tokens) ∧ others = tokens ++ more
  inLine tokens others := EndsInLine tokens ∧ others = tokens ++ more
  skip := by
    rintro tokens _ ⟨ends, rfl⟩
    by_cases nothing : tokens.dropWhile (·.is .newline) = []
    · exact .inr ⟨trivial, nothing⟩
    · left
      have ends := ends.resolve_left (by rintro rfl; exact nothing rfl)
      refine ⟨ends.dropWhile nothing, ?_⟩
      rw [List.dropWhile_append, if_neg (by simpa using nothing)]
  head := by
    rintro tokens _ ⟨ends, rfl⟩
    exact (List.head?_append_of_ne_nil _ ends.ne_nil).symm
  inside := by
    rintro token tokens others ⟨ends, isMore⟩ onLine
    refine ⟨ends.of_cons.resolve_left ?_, (List.cons.inj isMore).2⟩
    rintro ⟨rfl, _⟩
    exact onLine rfl
  line := by
    rintro token tokens others ⟨ends, isMore⟩ _
    exact ⟨ends.of_cons.imp And.right id, (List.cons.inj isMore).2⟩
  faults := .inl ⟨rfl, rfl⟩

/-- A lexer at a text gives what `tokenize` gives for it, wherever the text stands. -/
theorem Lexer.drains_of_tokenize {lexer : Lexer} {source : String} {tokens : List Token}
    (lexes : tokenize source = .ok tokens) (isRest : lexer.rest = source.toList ++ ['\n'])
    (between : lexer.inside = 0) : ∃ inside, lexer.Drains inside none := by
  have supplies := tokenize_eq_ok_iff.mp lexes
  have spells := supplies.spells rfl (closed_append_newline source.toList)
  obtain ⟨inside, isTokens, _⟩ := exists_drains_of_tokenize_ok lexes
  rw [isTokens] at spells
  exact ⟨inside, .of_supplies (supplies_of_spells spells between isRest)⟩

theorem Lexer.extends_ofString (source more : String) :
    (Lexer.ofString (source ++ "\n" ++ more)).Extends (Lexer.ofString source)
      (more.toList ++ ['\n']) where
  rest := by simp [ofString]
  position := rfl
  insideLonger := rfl
  inside := rfl

/-- Fail fast: an error is the same whatever follows on further lines, as long as it has
tokens, unless the error is a block that is not closed or a label that is not declared. -/
theorem compile_error_of_continued {source more : String} {tokens : List Token} {error : Error}
    (lexes : tokenize more = .ok tokens) (fails : compile source = .error error)
    (notLabel : ∀ name, error ≠ .semantic (.unknownLabel name))
    (notUnclosed : error ≠ .syntactic (.wrongKind .endKeyword .endOfInput)) :
    compile (source ++ "\n" ++ more) = .error error := by
  have firm : ¬ error.Tentative := by
    rintro (unclosed | ⟨name, unknown⟩)
    · exact notUnclosed unclosed
    · exact notLabel name unknown
  have closed : Closed (Lexer.ofString source).rest := closed_append_newline source.toList
  obtain ⟨inside, ending, drains⟩ := Lexer.exists_drains (Lexer.valid_ofString source)
  rcases drains.extend (Lexer.extends_ofString source more) closed with
    ⟨_, _, longerDrains⟩ | ⟨rfl, last, lastRest, lastBetween, longerDrains⟩
  · obtain ⟨_, same | ⟨never, _⟩⟩ :=
      ((Lockstep.same ending).foretells_of_drains drains longerDrains rfl).ofError fails
    · exact same
    · exact never.elim
  · obtain ⟨others, lastDrains⟩ := Lexer.drains_of_tokenize lexes lastRest lastBetween
    have ends : EndsInLine inside := drains.getLast?_eq rfl closed (by simp [Lexer.ofString])
    obtain ⟨_, same | ⟨_, tentative⟩⟩ :=
      ((Lockstep.continued others).foretells_of_drains drains
        (longerDrains others none lastDrains) ⟨.inr ends, rfl⟩).ofError fails
    · exact same
    · exact absurd tentative firm

/-- A variable that is used too early stays so, though what follows closes the block that it
stands in and declares it. -/
theorem compile_error_of_continued_open_block :
    tokenize "end\nlet y = 1" =
      .ok [.ofKind .endKeyword, .newline, .ofKind .letKeyword, .ofName "y", .ofKind .assign,
        ⟨.number, "1"⟩, .newline, .endOfInput] ∧
    compile "while (1 < 2)\nprint y" = .error (.semantic (.unknownVariable "y")) ∧
    compile ("while (1 < 2)\nprint y" ++ "\n" ++ "end\nlet y = 1") =
      .error (.semantic (.unknownVariable "y")) := by
  have lexes : tokenize "end\nlet y = 1" =
      .ok [.ofKind .endKeyword, .newline, .ofKind .letKeyword, .ofName "y", .ofKind .assign,
        ⟨.number, "1"⟩, .newline, .endOfInput] := by
    decide +kernel
  have fails : compile "while (1 < 2)\nprint y" =
      .error (.semantic (.unknownVariable "y")) := by
    decide +kernel
  exact ⟨lexes, fails, compile_error_of_continued lexes fails (by simp) (by simp)⟩

end TeenyC
