import TeenyC.Proofs.Syntax.Layout

/-!
# What follows a word

Some keywords tell what the token behind them is for: the name behind `fn` is that of a function,
the string behind `print` is printed.  `following` finds such tokens without a tree, and finds in
the tokens of a tree what stands in its statements, in order.
-/

namespace TeenyC.Syntax

/-- The texts of the tokens of one kind that come right after a token of another. -/
def following (word next : Kind) (tokens : List Token) : List String :=
  (tokens.zip tokens.tail).filterMap fun (first, second) =>
    if first.kind = word ∧ second.kind = next then some second.text else none

section Tokens

variable {word next : Kind} {first second : Token} {tokens rest : List Token}

@[simp]
theorem following_nil : following word next [] = [] := rfl

@[simp]
theorem following_singleton : following word next [first] = [] := rfl

theorem following_cons_cons :
    following word next (first :: second :: rest) =
      (if first.kind = word ∧ second.kind = next then [second.text] else []) ++
        following word next (second :: rest) := by
  by_cases found : first.kind = word ∧ second.kind = next <;> simp [following, found]

theorem following_cons_of_ne (notWord : first.kind ≠ word) :
    following word next (first :: rest) = following word next rest := by
  cases rest with
  | nil => rfl
  | cons second rest =>
      rw [following_cons_cons, if_neg (fun found => notWord found.1), List.nil_append]

theorem following_eq_nil (notWord : ∀ token ∈ tokens, token.kind ≠ word) :
    following word next tokens = [] := by
  induction tokens with
  | nil => rfl
  | cons first rest inductionHypothesis =>
      rcases List.forall_mem_cons.mp notWord with ⟨here, others⟩
      rw [following_cons_of_ne here, inductionHypothesis others]

/-- A token of neither kind separates what comes before it from what comes after it. -/
theorem following_append_cons (notWord : first.kind ≠ word) (notNext : first.kind ≠ next) :
    following word next (tokens ++ first :: rest) =
      following word next tokens ++ following word next rest := by
  induction tokens with
  | nil => exact following_cons_of_ne notWord
  | cons token tokens inductionHypothesis =>
      cases tokens with
      | nil =>
          rw [List.cons_append, List.nil_append, following_cons_cons,
            if_neg (fun found => notNext found.2), following_cons_of_ne notWord,
            following_singleton]
      | cons second tokens =>
          rw [List.cons_append] at inductionHypothesis
          rw [List.cons_append, List.cons_append, following_cons_cons, inductionHypothesis,
            following_cons_cons, List.append_assoc]

end Tokens

/-! ## Statements -/

/-- The keywords that `following` is used with. -/
def introduces : Kind → Bool
  | .fnKeyword | .labelKeyword | .gotoKeyword | .printKeyword => true
  | _ => false

/-- The kinds that a keyword introduces. -/
def isIntroduced : Kind → Bool
  | .identifier | .string => true
  | _ => false

section Statements

variable {word next : Kind}

theorem following_newlines (isWord : introduces word = true) (count : Nat) (rest : List Token) :
    following word next (List.replicate count .newline ++ rest) = following word next rest := by
  have notWord : Token.newline.kind ≠ word := by rintro rfl; contradiction
  induction count with
  | zero => rfl
  | succ count inductionHypothesis =>
      rw [List.replicate_succ, List.cons_append, following_cons_of_ne notWord,
        inductionHypothesis]

theorem following_lineEnd (isWord : introduces word = true) (isNext : isIntroduced next = true)
    (gap : Nat) (tokens rest : List Token) :
    following word next (tokens ++ lineEnd gap ++ rest) =
      following word next tokens ++ following word next rest := by
  have notWord : Token.newline.kind ≠ word := by rintro rfl; contradiction
  have notNext : Token.newline.kind ≠ next := by rintro rfl; contradiction
  rw [lineEnd, List.replicate_succ, List.append_assoc, List.cons_append,
    following_append_cons notWord notNext, following_newlines isWord]

/-- The tokens of a block: its first line, its statements and what comes after it. -/
theorem following_block (isWord : introduces word = true) (isNext : isIntroduced next = true)
    (head body rest : List Token) (gap endGap : Nat) :
    following word next
        (head ++ lineEnd gap ++ body ++ .ofKind .endKeyword :: (lineEnd endGap ++ rest)) =
      following word next head ++ (following word next body ++ following word next rest) := by
  have notWord : (Token.ofKind .endKeyword).kind ≠ word := by rintro rfl; contradiction
  have notNext : (Token.ofKind .endKeyword).kind ≠ next := by rintro rfl; contradiction
  rw [following_append_cons notWord notNext, following_lineEnd isWord isNext, lineEnd,
    following_newlines isWord, List.append_assoc]

/-- No phrase holds a keyword. -/
theorem kind_ne_of_isOfPhrase {token : Token} (isWord : introduces word = true)
    (ofPhrase : isOfPhrase token.kind = true) : token.kind ≠ word := by
  rintro rfl
  cases isKind : token.kind <;> rw [isKind] at isWord ofPhrase <;> contradiction

theorem following_expression (isWord : introduces word = true) (value : Expression) :
    following word next (Phrase.tokens value) = [] :=
  following_eq_nil fun token isIn =>
    kind_ne_of_isOfPhrase isWord (expression_isOfPhrase value token isIn)

theorem following_assign (isWord : introduces word = true) (name : String) (value : Expression) :
    following word next (Action.assign name value).tokens = [] := by
  have notLet : Kind.letKeyword ≠ word := by rintro rfl; contradiction
  have notName : Kind.identifier ≠ word := by rintro rfl; contradiction
  have notAssign : Kind.assign ≠ word := by rintro rfl; contradiction
  rw [Action.tokens, following_cons_of_ne notLet, following_cons_of_ne notName,
    following_cons_of_ne notAssign, following_expression isWord]

theorem following_guardHead (isWord : introduces word = true) (guard : Guard)
    (condition : Comparison) : following word next (guardHead guard condition) = [] := by
  have notGuard : guard.kind ≠ word := by cases guard <;> rintro rfl <;> contradiction
  have notLeft : Kind.leftParen ≠ word := by rintro rfl; contradiction
  have notRight : Kind.rightParen ≠ word := by rintro rfl; contradiction
  have inCondition : ∀ token ∈ Phrase.tokens condition, token.kind ≠ word := fun token isIn =>
    kind_ne_of_isOfPhrase isWord (comparison_isOfPhrase condition token isIn)
  apply following_eq_nil
  rw [guardHead]
  refine List.forall_mem_cons.mpr ⟨notGuard, List.forall_mem_cons.mpr ⟨notLeft, ?_⟩⟩
  exact List.forall_mem_append.mpr ⟨inCondition, List.forall_mem_singleton.mpr notRight⟩

theorem Program.following_tokens (isWord : introduces word = true)
    (isNext : isIntroduced next = true) (program : Program) :
    following word next program.tokens = following word next program.body.tokens := by
  have notEnd : Token.endOfInput.kind ≠ word := by rintro rfl; contradiction
  have notNext : Token.endOfInput.kind ≠ next := by rintro rfl; contradiction
  rw [tokens, following_append_cons notEnd notNext, following_nil, List.append_nil,
    following_newlines isWord]

end Statements

/-! ## Names behind keywords -/

/-- The name of an event that has this keyword in front of it. -/
def Event.nameAfter (word : Kind) : Event → Option String
  | header name => if word = .fnKeyword then some name else none
  | label name => if word = .labelKeyword then some name else none
  | jump name => if word = .gotoKeyword then some name else none
  | call _ | target _ | use _ => none

section Names

variable {word : Kind}

theorem nameAfter_uses (names : List String) :
    (names.map Event.use).filterMap (Event.nameAfter word) = [] := by
  simp [List.filterMap_map, Function.comp_def, Event.nameAfter]

theorem Action.nameAfter_events (isWord : introduces word = true) (notPrint : word ≠ .printKeyword)
    (statement : Action) :
    statement.events.filterMap (Event.nameAfter word) =
      following word .identifier statement.tokens := by
  cases statement with
  | printText | call | label | jump | input => cases word <;> first | contradiction | rfl
  | printValue value =>
      rw [tokens, following_cons_of_ne notPrint.symm, following_expression isWord]
      exact nameAfter_uses _
  | assign name value =>
      rw [following_assign isWord]
      exact nameAfter_uses _

theorem nameAfter_within (owner : String) (events : List Event) :
    (within owner events).filterMap (fun occurrence => occurrence.event.nameAfter word) =
      events.filterMap (Event.nameAfter word) := by
  rw [within, List.filterMap_map]
  rfl

/-- The names that a keyword introduces in statements are those of the events that it stands in
front of, in order. -/
theorem Block.nameAfter_occurrences (isWord : introduces word = true)
    (notPrint : word ≠ .printKeyword) (owner : String) (block : Block) :
    (block.occurrences owner).filterMap (fun occurrence => occurrence.event.nameAfter word) =
      following word .identifier block.tokens := by
  induction block generalizing owner with
  | nil => rfl
  | action statement gap rest inductionHypothesis =>
      rw [occurrences, List.filterMap_append, nameAfter_within, inductionHypothesis, tokens,
        following_lineEnd isWord rfl, statement.nameAfter_events isWord notPrint]
  | function name gap body endGap rest bodyHypothesis restHypothesis =>
      have head : [Event.header name].filterMap (Event.nameAfter word) =
          following word .identifier (functionHead name) := by
        cases word <;> first | contradiction | rfl
      have split : occurrences owner (function name gap body endGap rest) =
          within owner [.header name] ++ (body.occurrences name ++ rest.occurrences owner) := rfl
      rw [split, List.filterMap_append, List.filterMap_append, nameAfter_within, head,
        bodyHypothesis, restHypothesis, tokens, following_block isWord rfl]
  | guarded guard condition gap body endGap rest bodyHypothesis restHypothesis =>
      rw [occurrences, List.filterMap_append, List.filterMap_append, nameAfter_within,
        nameAfter_uses, bodyHypothesis, restHypothesis, tokens, following_block isWord rfl,
        following_guardHead isWord]

/-- The names that a keyword introduces in a program are those that are picked from its events,
if what is picked is the name behind that keyword. -/
theorem Program.filterMap_occurrences {pick : Occurrence → Option String}
    (isWord : introduces word = true) (notPrint : word ≠ .printKeyword)
    (picks : ∀ owner event, pick ⟨owner, event⟩ = event.nameAfter word) (program : Program) :
    program.occurrences.filterMap pick = following word .identifier program.tokens := by
  have same : pick = fun occurrence => occurrence.event.nameAfter word :=
    funext fun occurrence => picks occurrence.owner occurrence.event
  rw [same, following_tokens isWord rfl]
  exact program.body.nameAfter_occurrences isWord notPrint mainFunction

end Names

theorem Program.headers_eq_following (program : Program) :
    headers program.occurrences = following .fnKeyword .identifier program.tokens :=
  program.filterMap_occurrences rfl (by decide) fun _ event => by cases event <;> rfl

theorem Program.labels_eq_following (program : Program) :
    labels program.occurrences = following .labelKeyword .identifier program.tokens :=
  program.filterMap_occurrences rfl (by decide) fun _ event => by cases event <;> rfl

theorem Program.jumps_eq_following (program : Program) :
    jumps program.occurrences = following .gotoKeyword .identifier program.tokens :=
  program.filterMap_occurrences rfl (by decide) fun _ event => by cases event <;> rfl

end TeenyC.Syntax
