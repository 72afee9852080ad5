import TeenyC.Proofs.Syntax.Layout
import TeenyC.Proofs.Syntax.Spelling

/-!
# The grammar is unambiguous

No two programs have the same tokens, so that one can speak of the tree of a source
text.  Each kind of phrase is read back from its tokens in turn: chains by
`chain_decodes`, and statements by the kind of their first token.
-/

namespace TeenyC.Syntax

/-- The tokens do not start with one of the given kinds. -/
def NotAt (kinds : Kind → Bool) (rest : List Token) : Prop :=
  ∀ token ∈ rest.head?, kinds token.kind = false

/-- The tokens of all phrases of a type can be read back, before tokens that do not
continue them. -/
def Readable (α : Type) [Phrase α] (continues : Kind → Bool) : Prop :=
  Decodes (fun _ : α => True) Phrase.tokens (NotAt continues)

/-! ## Phrases -/

theorem operand_token_injective {first second : Operand} (same : first.token = second.token) :
    first = second := by
  cases first <;> cases second <;> simp_all [Operand.token, Token.ofName]

theorem operand_ne_sign {operand : Operand} {kind : Kind} (isSign : kind.isSign = true) :
    operand.token ≠ .ofKind kind := by
  rintro same
  have sameKind : operand.token.kind = kind := congrArg Token.kind same
  subst sameKind
  cases operand <;> contradiction

theorem unary_readable : Readable Unary fun _ => false := by
  rintro ⟨sign, operand⟩ ⟨sign', operand'⟩ rest other _ _ _ _ same
  cases sign with
  | none =>
      cases sign' with
      | none =>
          obtain ⟨sameToken, sameRest⟩ := List.cons.inj same
          have sameOperand : operand = operand' := operand_token_injective sameToken
          rw [sameOperand]
          exact ⟨rfl, sameRest⟩
      | some kind => exact absurd (List.cons.inj same).1 (operand_ne_sign kind.2)
  | some kind =>
      cases sign' with
      | none => exact absurd (List.cons.inj same).1.symm (operand_ne_sign kind.2)
      | some kind' =>
          obtain ⟨sameSign, sameOthers⟩ := List.cons.inj same
          obtain ⟨sameToken, sameRest⟩ := List.cons.inj sameOthers
          have sameKind : kind = kind' := Subtype.ext (congrArg Token.kind sameSign)
          have sameOperand : operand = operand' := operand_token_injective sameToken
          rw [sameKind, sameOperand]
          exact ⟨rfl, sameRest⟩

/-- A chain is readable if its items are, and its operators do not continue them. -/
theorem chain_readable {joins continues : Kind → Bool} {α : Type} [Phrase α]
    (items : Readable α continues)
    (apart : ∀ ⦃kind : Kind⦄, joins kind = true → continues kind = false) :
    Readable (Chain joins α) fun kind => continues kind || joins kind := by
  have separates : Separates joins (fun kind => [Token.ofKind kind]) (NotAt continues) := by
    refine ⟨?_, ?_⟩
    · intro first second rest other _ _ same
      obtain ⟨sameToken, sameRest⟩ := List.cons.inj same
      exact ⟨congrArg Token.kind sameToken, sameRest⟩
    · intro kind rest joined token isHead
      cases isHead
      exact apart joined
  have weaker : ∀ rest, NotAt (fun kind => continues kind || joins kind) rest →
      StopsChain joins (fun kind => [Token.ofKind kind]) (NotAt continues) rest := by
    intro rest notAt
    refine ⟨fun token isHead => (Bool.or_eq_false_iff.mp (notAt token isHead)).1, ?_⟩
    rintro kind joined other rfl
    have notJoined := (Bool.or_eq_false_iff.mp (notAt _ rfl)).2
    rw [Token.kind_ofKind, joined] at notJoined
    contradiction
  intro first second rest other _ _ restStops otherStops same
  exact chain_decodes separates items ⟨trivial, fun _ _ => trivial⟩ ⟨trivial, fun _ _ => trivial⟩
    (weaker rest restStops) (weaker other otherStops) same

theorem term_readable : Readable Term Kind.isScale := by
  have chain : Readable (Chain Kind.isScale Unary) _ :=
    chain_readable unary_readable fun _ _ => rfl
  simpa only [Bool.false_or] using chain

theorem expression_readable : Readable Expression fun kind => kind.isScale || kind.isSign :=
  chain_readable term_readable fun kind isSign => by
    cases kind <;> simp_all [Kind.isSign, Kind.isScale]

theorem comparison_readable : Readable Comparison
    fun kind => kind.isScale || kind.isSign || kind.isComparison := by
  have chains : Readable (Chain Kind.isComparison Expression) _ :=
    chain_readable expression_readable fun kind compares => by
      cases kind <;> simp_all [Kind.isComparison, Kind.isSign, Kind.isScale]
  rintro ⟨first, _⟩ ⟨second, _⟩ rest other _ _ restStops otherStops same
  obtain ⟨sameChain, sameRest⟩ := chains trivial trivial restStops otherStops same
  subst sameChain
  exact ⟨rfl, sameRest⟩

/-! ## Line ends -/

/-- The tokens do not start with a line end. -/
def NotAtNewline (rest : List Token) : Prop :=
  ∀ token ∈ rest.head?, token.kind ≠ .newline

theorem newlines_decode :
    Decodes (fun _ => True) (fun count : Nat => List.replicate count Token.newline)
      NotAtNewline := by
  intro first second rest other _ _ restStops otherStops same
  have stops : ∀ rest, NotAtNewline rest → ∀ item ∈ rest.head?, ¬ item = Token.newline := by
    rintro rest notAt item isHead rfl
    exact notAt _ isHead rfl
  obtain ⟨sameRun, sameRest⟩ := run_decodes (· = Token.newline)
    (fun _ => List.eq_of_mem_replicate) (fun _ => List.eq_of_mem_replicate)
    (stops rest restStops) (stops other otherStops) same
  have sameLength := congrArg List.length sameRun
  simp only [List.length_replicate] at sameLength
  exact ⟨sameLength, sameRest⟩

theorem lineEnd_decodes : Decodes (fun _ => True) lineEnd NotAtNewline := by
  intro first second rest other _ _ restStops otherStops same
  obtain ⟨sameCount, sameRest⟩ := newlines_decode trivial trivial restStops otherStops same
  exact ⟨Nat.succ.inj sameCount, sameRest⟩

/-! ## Statements -/

/-- The tokens start with a line end. -/
def AtNewline (rest : List Token) : Prop :=
  ∃ others, rest = .newline :: others

theorem AtNewline.notAt {rest : List Token} (atNewline : AtNewline rest) :
    NotAt (fun kind => kind.isScale || kind.isSign) rest := by
  rcases atNewline with ⟨others, rfl⟩
  intro token isHead
  cases isHead
  rfl

theorem Action.kind_eq_of_append {first second : Action} {rest other : List Token}
    (same : first.tokens ++ rest = second.tokens ++ other) : first.kind = second.kind := by
  rcases first.head with ⟨token, others, tokens, isKind⟩
  rcases second.head with ⟨token', others', tokens', isKind'⟩
  rw [tokens, tokens'] at same
  rw [← isKind, ← isKind', (List.cons.inj same).1]

theorem string_ne_expression (content : String) (value : Expression) (rest other : List Token) :
    ⟨.string, content⟩ :: rest ≠ Phrase.tokens value ++ other := by
  intro same
  obtain ⟨token, others, tokens, notString⟩ := expression_head value
  rw [tokens] at same
  exact notString (congrArg Token.kind (List.cons.inj same).1).symm

theorem action_decodes : Decodes (fun _ => True) Action.tokens AtNewline := by
  intro first second rest other _ _ restStops otherStops same
  have sameKind := Action.kind_eq_of_append same
  cases first with
  | printText content =>
      cases second with
      | printText content' =>
          simp only [Action.tokens, List.cons_append, List.cons.injEq, Token.mk.injEq] at same
          exact ⟨congrArg _ same.2.1.2, same.2.2⟩
      | printValue value' =>
          exact absurd (List.cons.inj same).2 (string_ne_expression content value' rest other)
      | _ => contradiction
  | printValue value =>
      cases second with
      | printText content' =>
          exact absurd (List.cons.inj same).2.symm (string_ne_expression content' value other rest)
      | printValue value' =>
          obtain ⟨sameValue, sameRest⟩ := expression_readable trivial trivial restStops.notAt
            otherStops.notAt (List.cons.inj same).2
          exact ⟨congrArg _ sameValue, sameRest⟩
      | _ => contradiction
  | assign name value =>
      cases second with
      | assign name' value' =>
          simp only [Action.tokens, List.cons_append, List.cons.injEq, Token.ofName,
            Token.mk.injEq, true_and] at same
          obtain ⟨sameValue, sameRest⟩ := expression_readable trivial trivial restStops.notAt
            otherStops.notAt same.2
          exact ⟨by rw [same.1, sameValue], sameRest⟩
      | _ => contradiction
  | call name | label name | jump name | input name =>
      cases second <;> first
        | contradiction
        | simpa [Action.tokens, Token.ofName] using same

/-! ## Blocks -/

/-- The tokens start with the end of a block or of the input. -/
def AtStop (rest : List Token) : Prop :=
  ∃ token others, rest = token :: others ∧ startsStatement token.kind = false ∧
    token.kind ≠ .newline

theorem Block.notAtNewline (block : Block) {rest : List Token} (stops : AtStop rest) :
    NotAtNewline (block.tokens ++ rest) := by
  by_cases isNil : block = .nil
  · rcases stops with ⟨token, others, rfl, _, notNewline⟩
    subst isNil
    intro head isHead
    cases isHead
    exact notNewline
  · obtain ⟨token, others, tokens, starts⟩ := block.head isNil
    rw [tokens]
    intro head isHead
    cases isHead
    intro isNewline
    rw [isNewline] at starts
    contradiction

/-- Nothing and something are told apart by the first token. -/
theorem Block.tokens_ne_of_ne_nil {block : Block} {rest other : List Token}
    (notNil : block ≠ .nil) (stops : AtStop rest) : rest ≠ block.tokens ++ other := by
  rintro rfl
  rcases stops with ⟨token, others, same, notStart, _⟩
  obtain ⟨token', others', tokens, starts⟩ := block.head notNil
  rw [tokens] at same
  rw [(List.cons.inj same).1, notStart] at starts
  contradiction

theorem atStop_end (rest : List Token) : AtStop (.ofKind .endKeyword :: rest) :=
  ⟨_, rest, rfl, rfl, by decide⟩

/-- The tokens of a block can be read back. -/
def Block.ReadBack (block : Block) : Prop :=
  ∀ ⦃second : Block⦄ ⦃rest other : List Token⦄, AtStop rest → AtStop other →
    block.tokens ++ rest = second.tokens ++ other → block = second ∧ rest = other

/-- What follows the first line of a block, with the statements after the block. -/
theorem body_decodes {body next : Block} (bodyBack : body.ReadBack) (nextBack : next.ReadBack)
    {body' next' : Block} {gap gap' endGap endGap' : Nat} {rest other : List Token}
    (restStops : AtStop rest) (otherStops : AtStop other)
    (same : lineEnd gap ++ (body.tokens ++
        .ofKind .endKeyword :: (lineEnd endGap ++ (next.tokens ++ rest))) =
      lineEnd gap' ++ (body'.tokens ++
        .ofKind .endKeyword :: (lineEnd endGap' ++ (next'.tokens ++ other)))) :
    (gap = gap' ∧ body = body' ∧ endGap = endGap' ∧ next = next') ∧ rest = other := by
  obtain ⟨sameGap, afterGap⟩ := lineEnd_decodes trivial trivial (body.notAtNewline (atStop_end _))
    (body'.notAtNewline (atStop_end _)) same
  obtain ⟨sameBody, afterBody⟩ := bodyBack (atStop_end _) (atStop_end _) afterGap
  obtain ⟨sameEnd, afterEnd⟩ := lineEnd_decodes trivial trivial (next.notAtNewline restStops)
    (next'.notAtNewline otherStops) (List.cons.inj afterBody).2
  obtain ⟨sameNext, sameRest⟩ := nextBack restStops otherStops afterEnd
  exact ⟨⟨sameGap, sameBody, sameEnd, sameNext⟩, sameRest⟩

/-- An action does not start like a block. -/
theorem Action.kind_of_append {statement : Action} {kind : Kind} {rest others : List Token}
    (same : statement.tokens ++ rest = .ofKind kind :: others) : statement.kind = kind := by
  rcases statement.head with ⟨token, _, tokens, isKind⟩
  rw [tokens] at same
  rw [← isKind, (List.cons.inj same).1, Token.kind_ofKind]

theorem notAt_rightParen (rest : List Token) :
    NotAt (fun kind => kind.isScale || kind.isSign || kind.isComparison)
      (.ofKind .rightParen :: rest) := by
  intro token isHead
  cases isHead
  rfl

theorem block_readBack (block : Block) : block.ReadBack := by
  induction block with
  | nil =>
      intro second rest other restStops _ same
      by_cases isNil : second = .nil
      · subst isNil
        exact ⟨rfl, same⟩
      · exact absurd same (Block.tokens_ne_of_ne_nil isNil restStops)
  | action statement gap next inductionHypothesis =>
      intro second rest other restStops otherStops same
      cases second with
      | nil => exact absurd same.symm (Block.tokens_ne_of_ne_nil (by simp) otherStops)
      | action statement' gap' next' =>
          simp only [Block.tokens, List.append_assoc] at same
          obtain ⟨sameStatement, afterStatement⟩ := action_decodes trivial trivial
            ⟨_, rfl⟩ ⟨_, rfl⟩ same
          obtain ⟨sameGap, afterGap⟩ := lineEnd_decodes trivial trivial
            (next.notAtNewline restStops) (next'.notAtNewline otherStops) afterStatement
          obtain ⟨sameNext, sameRest⟩ := inductionHypothesis restStops otherStops afterGap
          exact ⟨by rw [sameStatement, sameGap, sameNext], sameRest⟩
      | function name' gap' body' endGap' next' =>
          simp only [Block.tokens, List.append_assoc] at same
          have isFunction := Action.kind_of_append same
          cases statement <;> contradiction
      | guarded guard' condition' gap' body' endGap' next' =>
          simp only [Block.tokens, List.append_assoc] at same
          have isGuard := Action.kind_of_append same
          cases statement <;> cases guard' <;> contradiction
  | function name gap body endGap next bodyHypothesis nextHypothesis =>
      intro second rest other restStops otherStops same
      cases second with
      | nil => exact absurd same.symm (Block.tokens_ne_of_ne_nil (by simp) otherStops)
      | action statement' gap' next' =>
          simp only [Block.tokens, List.append_assoc] at same
          have isFunction := Action.kind_of_append same.symm
          cases statement' <;> contradiction
      | function name' gap' body' endGap' next' =>
          simp only [Block.tokens, functionHead, List.cons_append, List.nil_append,
            List.append_assoc, List.cons.injEq, Token.ofName, Token.mk.injEq, true_and] at same
          obtain ⟨⟨sameGap, sameBody, sameEnd, sameNext⟩, sameRest⟩ :=
            body_decodes bodyHypothesis nextHypothesis restStops otherStops same.2
          exact ⟨by rw [same.1, sameGap, sameBody, sameEnd, sameNext], sameRest⟩
      | guarded guard' condition' gap' body' endGap' next' =>
          have isGuard := congrArg Token.kind (List.cons.inj same).1
          cases guard' <;> contradiction
  | guarded guard condition gap body endGap next bodyHypothesis nextHypothesis =>
      intro second rest other restStops otherStops same
      cases second with
      | nil => exact absurd same.symm (Block.tokens_ne_of_ne_nil (by simp) otherStops)
      | action statement' gap' next' =>
          simp only [Block.tokens, List.append_assoc] at same
          have isGuard := Action.kind_of_append same.symm
          cases statement' <;> cases guard <;> contradiction
      | function name' gap' body' endGap' next' =>
          have isGuard := congrArg Token.kind (List.cons.inj same).1
          cases guard <;> contradiction
      | guarded guard' condition' gap' body' endGap' next' =>
          have sameGuard : guard = guard' := by
            have sameKind := congrArg Token.kind (List.cons.inj same).1
            cases guard <;> cases guard' <;> first | rfl | contradiction
          simp only [Block.tokens, guardHead, List.cons_append, List.append_assoc,
            List.cons.injEq] at same
          obtain ⟨sameCondition, afterCondition⟩ := comparison_readable trivial trivial
            (notAt_rightParen _) (notAt_rightParen _) same.2.2
          obtain ⟨⟨sameGap, sameBody, sameEnd, sameNext⟩, sameRest⟩ :=
            body_decodes bodyHypothesis nextHypothesis restStops otherStops
              (List.cons.inj afterCondition).2
          exact ⟨by rw [sameGuard, sameCondition, sameGap, sameBody, sameEnd, sameNext], sameRest⟩

/-! ## Programs -/

/-- A program is told by its tokens. -/
theorem Program.tokens_injective {first second : Program} (same : first.tokens = second.tokens) :
    first = second := by
  rcases first with ⟨leading, body⟩
  rcases second with ⟨leading', body'⟩
  have atEnd : AtStop [.endOfInput] := ⟨_, [], rfl, rfl, by decide⟩
  simp only [Program.tokens, List.append_assoc] at same
  obtain ⟨sameLeading, afterLeading⟩ := newlines_decode trivial trivial
    (body.notAtNewline atEnd) (body'.notAtNewline atEnd) same
  obtain ⟨sameBody, _⟩ := block_readBack body atEnd atEnd afterLeading
  rw [sameLeading, sameBody]

end TeenyC.Syntax
