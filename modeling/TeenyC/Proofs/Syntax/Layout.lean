import TeenyC.Proofs.Syntax.Block

/-!
# Line ends in the tokens of a tree

A phrase has no line end inside it: line ends stand only after statements and after
the first line of a block.  The end of the input stands nowhere in a tree.  Blank lines
can be taken out of the tokens or out of the tree, with the same result.
-/

namespace TeenyC.Syntax

/-- The tokens stand on one line. -/
def Inline (tokens : List Token) : Prop :=
  ∀ token ∈ tokens, token.kind ≠ .newline ∧ token.kind ≠ .endOfInput

@[simp]
theorem inline_nil : Inline [] := nofun

@[simp]
theorem inline_cons {token : Token} {rest : List Token} :
    Inline (token :: rest) ↔
      (token.kind ≠ .newline ∧ token.kind ≠ .endOfInput) ∧ Inline rest :=
  List.forall_mem_cons

@[simp]
theorem inline_append {first second : List Token} :
    Inline (first ++ second) ↔ Inline first ∧ Inline second :=
  List.forall_mem_append

/-! ## Phrases -/

/-- The kinds of the tokens that expressions and comparisons are made of. -/
def isOfPhrase : Kind → Bool
  | .number | .identifier => true
  | kind => kind.isSign || kind.isScale || kind.isComparison

theorem operand_isOfPhrase (operand : Operand) :
    ∀ token ∈ Phrase.tokens operand, isOfPhrase token.kind = true := by
  cases operand <;> simp [Phrase.tokens, Operand.token, isOfPhrase]

theorem unary_isOfPhrase (unary : Unary) :
    ∀ token ∈ Phrase.tokens unary, isOfPhrase token.kind = true := by
  rcases unary with ⟨sign, operand⟩
  refine List.forall_mem_append.mpr ⟨?_, operand_isOfPhrase operand⟩
  cases sign with
  | none => exact nofun
  | some kind =>
      rcases kind with ⟨kind, isSign⟩
      cases kind <;> first | contradiction | simp [signTokens, isOfPhrase, Kind.isSign]

/-- A chain is made of such tokens if its items and operators are. -/
theorem chain_isOfPhrase {joins : Kind → Bool} {α : Type} [Phrase α]
    (items : ∀ (item : α), ∀ token ∈ Phrase.tokens item, isOfPhrase token.kind = true)
    (operators : ∀ ⦃kind : Kind⦄, joins kind = true → isOfPhrase kind = true)
    (chain : Chain joins α) : ∀ token ∈ Phrase.tokens chain, isOfPhrase token.kind = true := by
  rcases chain with ⟨head, tail⟩
  refine List.forall_mem_append.mpr ⟨items head, ?_⟩
  induction tail with
  | nil => exact nofun
  | cons link rest inductionHypothesis =>
      rcases link with ⟨kind, item⟩
      have tokens : tailTokens ((kind, item) :: rest) =
          Token.ofKind kind :: (Phrase.tokens item ++ tailTokens rest) := by
        simp [tailTokens]
      rw [tokens]
      exact List.forall_mem_cons.mpr ⟨operators kind.2,
        List.forall_mem_append.mpr ⟨items item, inductionHypothesis⟩⟩

theorem expression_isOfPhrase (expression : Expression) :
    ∀ token ∈ Phrase.tokens expression, isOfPhrase token.kind = true := by
  have terms : ∀ term : Term, ∀ token ∈ Phrase.tokens term, isOfPhrase token.kind = true :=
    chain_isOfPhrase unary_isOfPhrase fun kind isScale => by
      cases kind <;> first | rfl | contradiction
  exact chain_isOfPhrase terms
    (fun kind isSign => by cases kind <;> first | rfl | contradiction) expression

theorem comparison_isOfPhrase (comparison : Comparison) :
    ∀ token ∈ Phrase.tokens comparison, isOfPhrase token.kind = true :=
  chain_isOfPhrase expression_isOfPhrase
    (fun kind compares => by cases kind <;> first | rfl | contradiction) comparison.toChain

theorem inline_of_isOfPhrase {tokens : List Token}
    (ofPhrase : ∀ token ∈ tokens, isOfPhrase token.kind = true) : Inline tokens := by
  intro token isIn
  have isKind := ofPhrase token isIn
  constructor <;> (intro other; rw [other] at isKind; contradiction)

@[simp]
theorem inline_expression (expression : Expression) : Inline (Phrase.tokens expression) :=
  inline_of_isOfPhrase (expression_isOfPhrase expression)

@[simp]
theorem inline_comparison (comparison : Comparison) : Inline (Phrase.tokens comparison) :=
  inline_of_isOfPhrase (comparison_isOfPhrase comparison)

@[simp]
theorem inline_action (statement : Action) : Inline statement.tokens := by
  cases statement <;> simp [Action.tokens]

theorem inline_functionHead (name : String) : Inline (functionHead name) := by
  simp [functionHead]

theorem inline_guardHead (guard : Guard) (condition : Comparison) :
    Inline (guardHead guard condition) := by
  cases guard <;> simp [guardHead, Guard.kind]

/-! ## First tokens -/

/-- An expression does not start with a string. -/
theorem expression_head (value : Expression) :
    ∃ token rest, Phrase.tokens value = token :: rest ∧ token.kind ≠ .string := by
  rcases value with ⟨⟨⟨sign, operand⟩, tail⟩, tail'⟩
  cases sign with
  | none => exact ⟨operand.token, _, rfl, by cases operand <;> exact nofun⟩
  | some kind =>
      rcases kind with ⟨kind, isSign⟩
      refine ⟨.ofKind kind, _, rfl, ?_⟩
      rintro rfl
      contradiction

/-- The kind of the first token of an action. -/
def Action.kind : Action → Kind
  | printText _ | printValue _ => .printKeyword
  | call _ => .identifier
  | label _ => .labelKeyword
  | jump _ => .gotoKeyword
  | assign _ _ => .letKeyword
  | input _ => .inputKeyword

theorem Action.head (statement : Action) :
    ∃ token rest, statement.tokens = token :: rest ∧ token.kind = statement.kind := by
  cases statement <;> exact ⟨_, _, rfl, rfl⟩

/-- The kinds of the tokens that start a statement. -/
def startsStatement : Kind → Bool
  | .printKeyword | .identifier | .fnKeyword | .ifKeyword | .whileKeyword | .labelKeyword
  | .gotoKeyword | .letKeyword | .inputKeyword => true
  | _ => false

theorem Action.startsStatement_kind (statement : Action) :
    startsStatement statement.kind = true := by
  cases statement <;> rfl

theorem Block.head (block : Block) (notNil : block ≠ .nil) :
    ∃ token rest, block.tokens = token :: rest ∧ startsStatement token.kind = true := by
  cases block with
  | nil => contradiction
  | action statement gap rest =>
      rcases statement.head with ⟨token, others, tokens, isKind⟩
      refine ⟨token, _, by rw [Block.tokens, tokens]; rfl, ?_⟩
      rw [isKind]
      exact statement.startsStatement_kind
  | function name gap body endGap rest => exact ⟨_, _, rfl, rfl⟩
  | guarded guard condition gap body endGap rest =>
      exact ⟨_, _, rfl, by cases guard <;> rfl⟩

/-! ## The end of the input -/

theorem Inline.inside {tokens : List Token} (inline : Inline tokens) :
    ∀ token ∈ tokens, token.kind ≠ .endOfInput :=
  fun token isIn => (inline token isIn).2

theorem newlines_inside (count : Nat) :
    ∀ token ∈ List.replicate count Token.newline, token.kind ≠ .endOfInput := by
  intro token isIn
  rw [List.eq_of_mem_replicate isIn]
  decide

/-- The end of the input stands nowhere in a sequence of statements. -/
theorem Block.tokens_inside (block : Block) :
    ∀ token ∈ block.tokens, token.kind ≠ .endOfInput := by
  induction block with
  | nil => exact nofun
  | action statement gap rest inductionHypothesis =>
      simp only [tokens, List.forall_mem_append]
      exact ⟨⟨(inline_action statement).inside, newlines_inside _⟩, inductionHypothesis⟩
  | function name gap body endGap rest bodyHypothesis restHypothesis =>
      simp only [tokens, List.forall_mem_append, List.forall_mem_cons]
      exact ⟨⟨⟨(inline_functionHead name).inside, newlines_inside _⟩, bodyHypothesis⟩,
        by decide, newlines_inside _, restHypothesis⟩
  | guarded guard condition gap body endGap rest bodyHypothesis restHypothesis =>
      simp only [tokens, List.forall_mem_append, List.forall_mem_cons]
      exact ⟨⟨⟨(inline_guardHead guard condition).inside, newlines_inside _⟩, bodyHypothesis⟩,
        by decide, newlines_inside _, restHypothesis⟩

/-! ## Blank lines -/

/-- The tokens without blank lines: of line ends in a row one is left, or none if a line
has just ended. -/
def collapse (ended : Bool) : List Token → List Token
  | [] => []
  | token :: rest =>
    if token.kind = .newline then
      if ended then collapse true rest else token :: collapse true rest
    else token :: collapse false rest

theorem collapse_newlines (count : Nat) (rest : List Token) :
    collapse true (List.replicate count .newline ++ rest) = collapse true rest := by
  induction count with
  | zero => rfl
  | succ count inductionHypothesis =>
      rw [List.replicate_succ]
      exact inductionHypothesis

theorem collapse_lineEnd (gap : Nat) (rest : List Token) :
    collapse false (lineEnd gap ++ rest) = lineEnd 0 ++ collapse true rest :=
  congrArg (Token.newline :: ·) (collapse_newlines gap rest)

theorem collapse_inline {tokens : List Token} (inline : Inline tokens) (rest : List Token) :
    collapse false (tokens ++ rest) = tokens ++ collapse false rest := by
  induction tokens with
  | nil => rfl
  | cons token tokens inductionHypothesis =>
      rcases inline_cons.mp inline with ⟨⟨notNewline, _⟩, inline⟩
      simp only [List.cons_append, collapse, notNewline, if_false, inductionHypothesis inline]

/-- A line is left as it is, and its blank lines are taken out. -/
theorem collapse_line {tokens : List Token} (inline : Inline tokens) (notNil : tokens ≠ [])
    (gap : Nat) (rest : List Token) :
    collapse true (tokens ++ (lineEnd gap ++ rest)) =
      tokens ++ (lineEnd 0 ++ collapse true rest) := by
  obtain ⟨token, tokens, rfl⟩ := List.exists_cons_of_ne_nil notNil
  rcases inline_cons.mp inline with ⟨⟨notNewline, _⟩, inline⟩
  simp only [List.cons_append, collapse, notNewline, if_false, collapse_inline inline,
    collapse_lineEnd]

/-- The statements without blank lines. -/
def Block.compact : Block → Block
  | nil => nil
  | action statement _ rest => action statement 0 rest.compact
  | function name _ body _ rest => function name 0 body.compact 0 rest.compact
  | guarded guard condition _ body _ rest =>
    guarded guard condition 0 body.compact 0 rest.compact

theorem Action.tokens_ne_nil (statement : Action) : statement.tokens ≠ [] := by
  rcases statement.head with ⟨token, rest, tokens, _⟩
  simp [tokens]

theorem collapse_end (gap : Nat) (rest : List Token) :
    collapse true (.ofKind .endKeyword :: (lineEnd gap ++ rest)) =
      .ofKind .endKeyword :: (lineEnd 0 ++ collapse true rest) :=
  collapse_line (show Inline [.ofKind .endKeyword] by simp) (by simp) gap rest

theorem Block.collapse_tokens_append (block : Block) (rest : List Token) :
    collapse true (block.tokens ++ rest) = block.compact.tokens ++ collapse true rest := by
  induction block generalizing rest with
  | nil => rfl
  | action statement gap tail inductionHypothesis =>
      simp only [tokens, compact, List.append_assoc]
      rw [collapse_line (inline_action statement) statement.tokens_ne_nil, inductionHypothesis]
  | function name gap body endGap tail bodyHypothesis tailHypothesis =>
      simp only [tokens, compact, List.append_assoc, List.cons_append]
      rw [collapse_line (inline_functionHead name) (by simp [functionHead]), bodyHypothesis,
        collapse_end, tailHypothesis]
  | guarded guard condition gap body endGap tail bodyHypothesis tailHypothesis =>
      simp only [tokens, compact, List.append_assoc, List.cons_append]
      rw [collapse_line (inline_guardHead guard condition) (by simp [guardHead]), bodyHypothesis,
        collapse_end, tailHypothesis]

/-- The tokens of statements without blank lines. -/
theorem Block.collapse_tokens (block : Block) :
    collapse true block.tokens = block.compact.tokens := by
  have whole := block.collapse_tokens_append []
  rwa [collapse, List.append_nil, List.append_nil] at whole

end TeenyC.Syntax
