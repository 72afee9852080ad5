import TeenyC.Proofs.Token.Drain

/-!
# Printed tokens

Tokens are printed by their lexemes, with a space between neighbours.  A space ends every
lexeme and so does a line end, so reading a printed text gives the tokens back, and after them
the line end that closes every source text.

The tokens of any source text can be printed, so each accepted source text has a form with the
same tokens in which a space is all that stands between two of them.
-/

namespace TeenyC

/-- The lexemes of the tokens, with a space between neighbours. -/
def printedCharacters (tokens : List Token) : List Char :=
  [' '].intercalate (tokens.map Token.lexeme)

/-- The text that prints the tokens. -/
def printTokens (tokens : List Token) : String :=
  String.ofList (printedCharacters tokens)

/-- A token that a text can hold: it is well-formed, and not the end of the input. -/
structure Token.Printable (token : Token) : Prop where
  wellFormed : token.WellFormed
  notEnd : token.kind ≠ .endOfInput

/-! ## Reading a printed text -/

section Reading

variable {separator : Char} {text : List Char} {token : Token} {tokens : List Token}

/-- Neither a space nor a line end goes on with a lexeme. -/
theorem Token.Printable.maximal (printable : token.Printable)
    (separates : separator = ' ' ∨ separator = '\n') (rest : List Char) :
    token.Maximal (separator :: rest) := by
  have stops : ∀ {among : Char → Bool}, among ' ' = false → among '\n' = false →
      Stops among (separator :: rest) := by
    intro among notSpace notNewline c isHead
    cases isHead
    rcases separates with rfl | rfl
    · exact notSpace
    · exact notNewline
  rcases token with ⟨kind, spelling⟩
  cases kind with
  | endOfInput => exact absurd rfl printable.notEnd
  | number => exact ⟨stops rfl rfl, fun _ => stops rfl rfl⟩
  | newline | string | leftParen | rightParen | plus | minus | times | divide | equal | notEqual
  | lessEqual | greaterEqual => trivial
  | _ => exact stops rfl rfl

/-- A space in front of a text does not change what it spells. -/
theorem Spells.cons_space (spells : Spells text tokens) : Spells (' ' :: text) tokens := by
  have blank : ∀ {gap : List Char}, (∀ c ∈ gap, Lexer.isBlank c = true) →
      ∀ c ∈ ' ' :: gap, Lexer.isBlank c = true := by
    intro gap blank c isIn
    rcases List.mem_cons.mp isIn with rfl | isIn
    · rfl
    · exact blank c isIn
  have widened : ∀ {gap : List Char} {kind : Kind}, Gap gap kind → Gap (' ' :: gap) kind := by
    intro gap kind between
    cases between with
    | blanks gapBlank => exact .blanks (blank gapBlank)
    | comment gapBlank onLine => exact .comment (blank gapBlank) onLine
  cases spells with
  | last between => exact .last (widened between)
  | more between wellFormed inside maximal tail =>
      exact .more (widened between) wellFormed inside maximal tail

theorem gap_nil (kind : Kind) : Gap [] kind :=
  .blanks fun _ isIn => absurd isIn List.not_mem_nil

/-- A printable token in front of a separator is spelled by its lexeme. -/
theorem Token.Printable.spells (printable : token.Printable)
    (separates : separator = ' ' ∨ separator = '\n') (tail : Spells (separator :: text) tokens) :
    Spells (token.lexeme ++ separator :: text) (token :: tokens) :=
  .more (gap_nil token.kind) printable.wellFormed printable.notEnd
    (printable.maximal separates text) tail

/-- A printed text spells its tokens and the line end behind it. -/
theorem spells_printedCharacters (printable : ∀ token ∈ tokens, token.Printable) :
    Spells (printedCharacters tokens ++ ['\n']) (tokens ++ [.newline, .endOfInput]) := by
  have lineEnd : Spells ['\n'] [.newline, .endOfInput] :=
    @Spells.more [] [] .newline _ (gap_nil .newline) rfl nofun trivial (.last (gap_nil _))
  induction tokens with
  | nil => exact lineEnd
  | cons token others inductionHypothesis =>
      have first := printable token List.mem_cons_self
      have tail := inductionHypothesis fun other isIn =>
        printable other (List.mem_cons_of_mem token isIn)
      cases others with
      | nil =>
          rw [printedCharacters, List.map_singleton, List.intercalate_singleton]
          exact first.spells (.inr rfl) lineEnd
      | cons next others =>
          rw [printedCharacters, List.map_cons, List.map_cons, List.intercalate_cons_cons,
            List.append_assoc, List.append_assoc]
          exact first.spells (.inl rfl) tail.cons_space

/-- Reading printed tokens gives them back. -/
theorem tokenize_printTokens (printable : ∀ token ∈ tokens, token.Printable) :
    tokenize (printTokens tokens) = .ok (tokens ++ [.newline, .endOfInput]) := by
  rw [tokenize_eq_ok_iff_spells, printTokens, String.toList_ofList]
  exact spells_printedCharacters printable

end Reading

/-! ## Printing what was read -/

/-- The tokens that a text spells are printable up to the end of the input. -/
theorem Spells.exists_printable {text : List Char} {tokens : List Token}
    (spells : Spells text tokens) :
    ∃ inside, tokens = inside ++ [.endOfInput] ∧ ∀ token ∈ inside, token.Printable := by
  induction spells with
  | last => exact ⟨[], rfl, nofun⟩
  | @more gap rest token others between wellFormed notEnd maximal tail inductionHypothesis =>
      obtain ⟨inside, rfl, printable⟩ := inductionHypothesis
      refine ⟨token :: inside, rfl, ?_⟩
      intro other isIn
      rcases List.mem_cons.mp isIn with rfl | isIn
      · exact ⟨wellFormed, notEnd⟩
      · exact printable other isIn

/-- The tokens of a source text are printable ones, a line end and the end of the input. -/
theorem exists_printable_of_tokenize {source : String} {tokens : List Token}
    (lexes : tokenize source = .ok tokens) :
    ∃ printed, tokens = printed ++ [.newline, .endOfInput] ∧
      ∀ token ∈ printed, token.Printable := by
  obtain ⟨inside, rfl, printable⟩ :=
    ((tokenize_eq_ok_iff_spells source tokens).mp lexes).exists_printable
  obtain ⟨drained, same, drains⟩ := exists_drains_of_tokenize_ok lexes
  obtain rfl : inside = drained := List.append_cancel_right same
  have isLast : inside.getLast? = some .newline :=
    drains.getLast?_eq rfl (closed_append_newline source.toList) (by simp [Lexer.ofString])
  obtain ⟨printed, rfl⟩ := List.getLast?_eq_some_iff.mp isLast
  refine ⟨printed, by simp, ?_⟩
  intro token isIn
  exact printable token (List.mem_append_left _ isIn)

/-- Printing and reading are inverse to each other: printable tokens are read back from their
printed text, and what a source text gives is given again by the text that prints it. -/
theorem tokenize_inverts_printTokens :
    (∀ tokens : List Token, (∀ token ∈ tokens, token.Printable) →
      tokenize (printTokens tokens) = .ok (tokens ++ [.newline, .endOfInput])) ∧
    (∀ (source : String) (tokens : List Token), tokenize source = .ok tokens →
      ∃ printed, tokens = printed ++ [.newline, .endOfInput] ∧
        tokenize (printTokens printed) = .ok tokens) := by
  refine ⟨fun _ => tokenize_printTokens, ?_⟩
  intro source tokens lexes
  obtain ⟨printed, rfl, printable⟩ := exists_printable_of_tokenize lexes
  exact ⟨printed, rfl, tokenize_printTokens printable⟩

/-- Tokens that would be other ones without the spaces, a word that starts like a keyword, and
a string that looks like a comment. -/
theorem tokenize_inverts_printTokens_neighbours :
    tokenize (printTokens [.ofName "ends", .ofKind .assign, .ofKind .equal, ⟨.number, "1"⟩,
        ⟨.number, "2.5"⟩, ⟨.string, "# \\é\x00"⟩, .newline, .ofKind .endKeyword]) =
      .ok [.ofName "ends", .ofKind .assign, .ofKind .equal, ⟨.number, "1"⟩, ⟨.number, "2.5"⟩,
        ⟨.string, "# \\é\x00"⟩, .newline, .ofKind .endKeyword, .newline, .endOfInput] := by
  apply tokenize_inverts_printTokens.1
  have name : Token.Printable (.ofName "ends") :=
    ⟨⟨'e', ['n', 'd', 's'], rfl, rfl, List.all_eq_true.mp rfl, by decide⟩, nofun⟩
  have whole : Token.Printable ⟨.number, "1"⟩ :=
    ⟨.inl ⟨by decide, List.all_eq_true.mp rfl⟩, nofun⟩
  have decimal : Token.Printable ⟨.number, "2.5"⟩ :=
    ⟨.inr ⟨['2'], ['5'], rfl, ⟨by decide, List.all_eq_true.mp rfl⟩, by decide,
      List.all_eq_true.mp rfl⟩, nofun⟩
  have string : Token.Printable ⟨.string, "# \\é\x00"⟩ := by
    refine ⟨?_, nofun⟩
    change ∀ c ∈ "# \\é\x00".toList, Lexeme.isStringCharacter c = true
    exact List.all_eq_true.mp rfl
  have fixed : ∀ kind : Kind, kind.isFixed = true → Token.Printable (.ofKind kind) := by
    intro kind isFixed
    refine ⟨?_, Kind.ne_endOfInput_of_isFixed isFixed⟩
    cases kind <;> first | rfl | contradiction
  simpa [name, whole, decimal, string] using
    ⟨fixed .assign rfl, fixed .equal rfl, fixed .newline rfl, fixed .endKeyword rfl⟩

end TeenyC
