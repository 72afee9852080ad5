import Mathlib.Data.List.Chain
import TeenyC.Proofs.Coherence
import TeenyC.Proofs.Compile.Expression
import TeenyC.Proofs.Compile.Program
import TeenyC.Proofs.CText.Token
import TeenyC.Proofs.Token.Printing

/-!
# The tokens in the C text of an expression

The C text of an expression is read as the tokens of the expression, by Teeny and by C alike.
Both take the longest token that they can, and in the text every token ends where it should:
what follows an operand or an operator is a space or nothing, and what follows a sign is an
operand.

`Piecewise` is what a way of reading has to do with single tokens.  From that follows what it
does with all expressions and comparisons, so that each way of reading is looked at only token
by token.
-/

namespace TeenyC.Syntax

/-! ## Where tokens end -/

/-- What follows ends every token: nothing, a space or a line end. -/
def EndsPiece (rest : List Char) : Prop :=
  ∀ c ∈ rest.head?, c = ' ' ∨ c = '\n'

theorem endsPiece_space (rest : List Char) : EndsPiece (' ' :: rest) := by
  intro c isHead
  cases isHead
  exact .inl rfl

/-- Nothing that ends a piece could make a token of C longer. -/
theorem EndsPiece.longest {piece rest : List Char} (ends : EndsPiece rest) :
    ∀ more, more ≠ [] → more <+: rest → ¬ CToken (piece ++ more) := by
  rintro more notNil ⟨others, rfl⟩ isToken
  obtain ⟨c, more, rfl⟩ := List.exists_cons_of_ne_nil notNil
  have notBlank := isToken.not_blank c (by simp)
  rcases ends c rfl with rfl | rfl <;> exact notBlank (by decide)

/-! ## Reading token by token -/

/-- A way of reading texts as tokens that reads single tokens as they should be read: it skips
spaces, an operand or an operator ends where the next piece does not continue it, and a sign ends
before its operand. -/
structure Piecewise (Reads : List Char → List Token → Prop) : Prop where
  space : ∀ ⦃rest : List Char⦄ ⦃tokens : List Token⦄, Reads rest tokens →
    Reads (' ' :: rest) tokens
  operand : ∀ ⦃operand : Operand⦄ ⦃rest : List Char⦄ ⦃tokens : List Token⦄, Good operand →
    EndsPiece rest → Reads rest tokens →
    Reads (characters operand ++ rest) (operand.token :: tokens)
  operator : ∀ ⦃kind : Kind⦄ ⦃rest : List Char⦄ ⦃tokens : List Token⦄, isJoint kind = true →
    EndsPiece rest → Reads rest tokens →
    Reads (kind.spelling.toList ++ rest) (.ofKind kind :: tokens)
  sign : ∀ ⦃kind : Kind⦄ ⦃first : Char⦄ ⦃rest : List Char⦄ ⦃tokens : List Token⦄,
    kind.isSign = true → Lexeme.isWordCharacter first = true → Reads (first :: rest) tokens →
    Reads (kind.spelling.toList ++ first :: rest) (.ofKind kind :: tokens)

/-- A way of reading reads the C text of the phrases of a type as their tokens. -/
def ReadsPhrases (Reads : List Char → List Token → Prop) (α : Type) [Phrase α] : Prop :=
  ∀ ⦃phrase : α⦄ ⦃rest : List Char⦄ ⦃tokens : List Token⦄, Good phrase → EndsPiece rest →
    Reads rest tokens → Reads (characters phrase ++ rest) (Phrase.tokens phrase ++ tokens)

namespace Piecewise

variable {Reads : List Char → List Token → Prop} {joins : Kind → Bool} {α : Type} [Phrase α]

theorem unary (piecewise : Piecewise Reads) : ReadsPhrases Reads Unary := by
  rintro ⟨sign, operand⟩ rest tokens good ends reads
  have operandReads := piecewise.operand good.operand ends reads
  cases sign with
  | none =>
      rw [characters_unsigned]
      exact operandReads
  | some sign =>
      obtain ⟨first, others, starts, isWord⟩ := operand_starts good.operand
      rw [starts] at operandReads
      rw [characters_signed, List.append_assoc, starts]
      exact piecewise.sign sign.2 isWord operandReads

/-- The operators of a chain and the items after them are read if the items are. -/
theorem tail (piecewise : Piecewise Reads) (items : ReadsPhrases Reads α)
    (joint : ∀ ⦃kind : Kind⦄, joins kind = true → isJoint kind = true)
    {links : List ({ kind : Kind // joins kind = true } × α)} {rest : List Char}
    {tokens : List Token} (good : ∀ link ∈ links, Good link.2) (ends : EndsPiece rest)
    (reads : Reads rest tokens) :
    EndsPiece (spellTail spaced characters links ++ rest) ∧
      Reads (spellTail spaced characters links ++ rest) (tailTokens links ++ tokens) := by
  induction links with
  | nil => exact ⟨ends, reads⟩
  | cons link links inductionHypothesis =>
      rcases link with ⟨kind, item⟩
      rcases List.forall_mem_cons.mp good with ⟨itemGood, othersGood⟩
      obtain ⟨othersEnd, othersRead⟩ := inductionHypothesis othersGood
      have text : spellTail spaced characters ((kind, item) :: links) ++ rest =
          ' ' :: (kind.1.spelling.toList ++
            ' ' :: (characters item ++ (spellTail spaced characters links ++ rest))) := by
        simp [spellTail, spaced]
      have linkTokens : tailTokens ((kind, item) :: links) ++ tokens =
          Token.ofKind kind :: (Phrase.tokens item ++ (tailTokens links ++ tokens)) := by
        simp [tailTokens]
      rw [text, linkTokens]
      refine ⟨endsPiece_space _, piecewise.space ?_⟩
      apply piecewise.operator (joint kind.2) (endsPiece_space _)
      exact piecewise.space (items itemGood othersEnd othersRead)

theorem chain (piecewise : Piecewise Reads) (items : ReadsPhrases Reads α)
    (joint : ∀ ⦃kind : Kind⦄, joins kind = true → isJoint kind = true) :
    ReadsPhrases Reads (Chain joins α) := by
  intro chain rest tokens good ends reads
  rcases good.chain with ⟨headGood, tailGood⟩
  obtain ⟨tailEnds, tailReads⟩ := piecewise.tail items joint tailGood ends reads
  have chainTokens : Phrase.tokens chain = Phrase.tokens chain.head ++ tailTokens chain.tail := rfl
  rw [characters_chain, chainTokens, List.append_assoc, List.append_assoc]
  exact items headGood tailEnds tailReads

theorem expression (piecewise : Piecewise Reads) : ReadsPhrases Reads Expression :=
  piecewise.chain (piecewise.chain piecewise.unary fun _ => isJoint_of_isScale)
    fun _ => isJoint_of_isSign

theorem comparison (piecewise : Piecewise Reads) : ReadsPhrases Reads Comparison := by
  intro comparison
  exact @piecewise.chain _ _ _ _ piecewise.expression (fun _ => isJoint_of_isComparison)
    comparison.toChain

end Piecewise

/-! ## Teeny and C -/

theorem operand_printable {operand : Operand} (good : Good operand) : operand.token.Printable :=
  ⟨good operand.token List.mem_cons_self, by cases operand <;> exact nofun⟩

theorem operator_printable {kind : Kind} (joins : isJoint kind = true) :
    (Token.ofKind kind).Printable := by
  cases kind <;> first | contradiction | exact ⟨rfl, nofun⟩

/-- What ends a piece ends a token of Teeny. -/
theorem EndsPiece.maximal {token : Token} {rest : List Char} (ends : EndsPiece rest)
    (printable : token.Printable) : token.Maximal rest := by
  cases rest with
  | nil =>
      rcases token with ⟨kind, text⟩
      cases kind with
      | endOfInput => exact absurd rfl printable.notEnd
      | number => exact ⟨nofun, fun _ => nofun⟩
      | newline | string | leftParen | rightParen | plus | minus | times | divide | equal
      | notEqual | lessEqual | greaterEqual => trivial
      | _ => exact nofun
  | cons c rest => exact printable.maximal (ends c rfl) rest

/-- The lexeme of an operator is its spelling. -/
theorem operator_lexeme {kind : Kind} (joins : isJoint kind = true) :
    (Token.ofKind kind).lexeme = kind.spelling.toList := by
  cases kind <;> first | contradiction | rfl

theorem operand_lexeme (operand : Operand) : operand.token.lexeme = characters operand := by
  cases operand <;> rfl

/-- A sign is a single character. -/
theorem exists_sign {kind : Kind} (isSign : kind.isSign = true) :
    ∃ sign ∈ ['+', '-'], kind.spelling.toList = [sign] := by
  cases kind with
  | plus => exact ⟨'+', by decide, rfl⟩
  | minus => exact ⟨'-', by decide, rfl⟩
  | _ => contradiction

theorem spells_piecewise : Piecewise Spells where
  space _ _ reads := reads.cons_space
  operand operand rest tokens good ends reads := by
    have printable := operand_printable good
    rw [← operand_lexeme]
    exact .more (gap_nil _) printable.wellFormed printable.notEnd (ends.maximal printable) reads
  operator kind rest tokens joins ends reads := by
    have printable := operator_printable joins
    rw [← operator_lexeme joins]
    exact .more (gap_nil _) printable.wellFormed printable.notEnd (ends.maximal printable) reads
  sign kind first rest tokens isSign _ reads := by
    have joins := isJoint_of_isSign isSign
    have printable := operator_printable joins
    rw [← operator_lexeme joins]
    refine .more (gap_nil _) printable.wellFormed printable.notEnd ?_ reads
    cases kind <;> first | contradiction | trivial

/-- An operand is a token of C. -/
theorem operand_cToken {operand : Operand} (good : Good operand) :
    CToken (characters operand) := by
  have wellFormed := good operand.token List.mem_cons_self
  have isOperand := operand_characters good
  cases operand with
  | number text =>
      obtain ⟨first, rest, spelled, isDigit⟩ := (wellFormed.isNumeral rfl).starts
      have starts : characters (Operand.number text) = first :: rest := spelled
      rw [starts] at isOperand ⊢
      exact .number (cNumber_of_operandCharacters isDigit (List.forall_mem_cons.mp isOperand).2)
  | reference name =>
      obtain ⟨first, rest, spelled, isLetter, others, _⟩ := wellFormed.isName rfl
      have starts : characters (Operand.reference name) = first :: rest := spelled
      rw [starts]
      exact .word (.inl isLetter) others

/-- An operator is a token of C. -/
theorem operator_cToken {kind : Kind} (joins : isJoint kind = true) :
    CToken kind.spelling.toList := by
  cases kind <;> first | contradiction | exact .symbol (by decide +kernel)

theorem cSplits_piecewise :
    Piecewise fun text tokens => CSplits text (tokens.map Token.lexeme) where
  space _ _ reads := .blank (by decide) reads
  operand operand rest tokens good ends reads := by
    rw [List.map_cons, operand_lexeme]
    exact .piece (operand_cToken good) ends.longest reads
  operator kind rest tokens joins ends reads := by
    rw [List.map_cons, operator_lexeme joins]
    exact .piece (operator_cToken joins) ends.longest reads
  sign kind first rest tokens isSign isWord reads := by
    have joins := isJoint_of_isSign isSign
    obtain ⟨sign, isSignCharacter, spelled⟩ := exists_sign isSign
    rw [List.map_cons, operator_lexeme joins]
    refine .piece (operator_cToken joins) ?_ reads
    rintro more notNil ⟨others, split⟩ isToken
    obtain ⟨c, more, rfl⟩ := List.exists_cons_of_ne_nil notNil
    obtain ⟨rfl, _⟩ := List.cons.inj split
    rw [spelled] at isToken
    exact not_cToken_of_signed isSignCharacter isWord isToken

/-! ## Characters that run together -/

/-- The neighbours that C would take for one operator or for the start of a comment. -/
def fusions : List (Char × Char) :=
  [('+', '+'), ('-', '-'), ('/', '/'), ('/', '*')]

/-- No two neighbours in the text run together. -/
def Unfused (text : List Char) : Prop :=
  text.IsChain fun c d => (c, d) ∉ fusions

theorem Unfused.not_infix {text : List Char} {c d : Char} (unfused : Unfused text)
    (isFusion : (c, d) ∈ fusions) : ¬ [c, d] <:+: text := by
  intro isInside
  have apart := unfused.infix isInside
  rw [List.isChain_pair] at apart
  exact apart isFusion

/-- No operator is part of an operand. -/
theorem arithmetic_not_operand {c : Char} (isOperator : c ∈ ['+', '-', '/', '*']) :
    ¬ IsOperandCharacter c := by
  have all : ['+', '-', '/', '*'].all (fun c => !decide (IsOperandCharacter c)) = true := by decide
  have notOperand := List.all_eq_true.mp all c isOperator
  simpa using notOperand

theorem not_fusion_of_first {c d : Char} (apart : c ∉ ['+', '-', '/']) : (c, d) ∉ fusions := by
  simp only [fusions, List.mem_cons, Prod.mk.injEq, List.not_mem_nil, or_false] at apart ⊢
  tauto

theorem not_fusion_of_second {c d : Char} (apart : d ∉ ['+', '-', '/', '*']) :
    (c, d) ∉ fusions := by
  simp only [fusions, List.mem_cons, Prod.mk.injEq, List.not_mem_nil, or_false] at apart ⊢
  tauto

theorem Unfused.append {first rest : List Char} (apart : ∀ c ∈ first, c ∉ ['+', '-', '/'])
    (unfused : Unfused rest) : Unfused (first ++ rest) := by
  induction first with
  | nil => exact unfused
  | cons c first inductionHypothesis =>
      rcases List.forall_mem_cons.mp apart with ⟨here, others⟩
      exact List.isChain_cons.mpr
        ⟨fun d _ => not_fusion_of_first here, inductionHypothesis others⟩

theorem unfused_piecewise : Piecewise fun text _ => Unfused text where
  space rest _ unfused := Unfused.append (List.forall_mem_singleton.mpr (by decide)) unfused
  operand operand rest _ good _ unfused := by
    refine unfused.append fun c isIn isFirst => ?_
    exact arithmetic_not_operand (List.mem_append_left ['*'] isFirst)
      (operand_characters good c isIn)
  operator kind rest _ joins ends unfused := by
    have inside : Unfused kind.spelling.toList := by
      rw [Unfused]
      cases kind <;> first | contradiction | decide
    refine List.isChain_append.mpr ⟨inside, unfused, ?_⟩
    intro c _ d isHead
    apply not_fusion_of_second
    rcases ends d isHead with rfl | rfl <;> decide
  sign kind first rest _ isSign isWord unfused := by
    obtain ⟨sign, _, spelled⟩ := exists_sign isSign
    rw [spelled]
    refine List.isChain_cons.mpr ⟨?_, unfused⟩
    intro d isHead
    cases isHead
    apply not_fusion_of_second
    exact fun isSecond => arithmetic_not_operand isSecond (.inl isWord)

/-! ## What the rules write -/

/-- From one session to another the tokens were passed and the text was written, and the text is
read as these tokens again: by Teeny, which finds a line end and the end of the input after them,
and by C, which splits it into their lexemes and in no other way. -/
structure KeepsTokens (session after : Session) (passed : List Token) (text : String) : Prop where
  passes : session.cursor.Passes passed after.cursor
  writes : after.unit = session.unit.write text
  reads : tokenize text = .ok (passed ++ [.newline, .endOfInput])
  splits : ∀ pieces, CSplits text.toList pieces ↔ pieces = passed.map Token.lexeme
  unfused : ∀ c d, (c, d) ∈ fusions → ¬ [c, d] <:+: text.toList

theorem tokenize_phrase {α : Type} [Phrase α] {phrase : α} (reads : ReadsPhrases Spells α)
    (good : Good phrase) :
    tokenize (Phrase.text phrase) = .ok (Phrase.tokens phrase ++ [.newline, .endOfInput]) := by
  rw [tokenize_eq_ok_iff_spells]
  have lineEnd : Spells ['\n'] [.newline, .endOfInput] := @spells_printedCharacters [] nofun
  refine reads good ?_ lineEnd
  intro c isHead
  cases isHead
  exact .inr rfl

/-- A rule that recognises phrases keeps their tokens if every piecewise way of reading reads
their C text. -/
theorem keepsTokens_of_recognises {rule : Rule Unit} {α : Type} [Phrase α]
    {continues : Kind → Bool} {session after : Session} {value : Unit}
    (recognises : Rule.Recognises rule α continues)
    (reads : ∀ {Reads : List Char → List Token → Prop}, Piecewise Reads → ReadsPhrases Reads α)
    (valid : session.Valid) (run : rule session = .ok value after) :
    ∃ passed text, KeepsTokens session after passed text := by
  rcases (recognises valid).mp run with ⟨phrase, place, passes, _, _, rfl⟩
  have good : Good phrase := passes.wellFormed valid
  have ends : EndsPiece [] := nofun
  have splits : CSplits (characters phrase ++ []) ((Phrase.tokens phrase ++ []).map Token.lexeme) :=
    reads cSplits_piecewise good ends .done
  have unfused : Unfused (characters phrase ++ []) :=
    @reads _ unfused_piecewise phrase [] [] good ends .nil
  rw [List.append_nil] at splits unfused
  refine ⟨Phrase.tokens phrase, Phrase.text phrase, passes, rfl,
    tokenize_phrase (reads spells_piecewise) good, ?_, fun c d => unfused.not_infix⟩
  intro pieces
  rw [List.append_nil] at splits
  constructor
  · exact fun others => others.unique splits
  · rintro rfl
    exact splits

/-- Wherever the rule for expressions or the rule for comparisons succeeds, the text that it
writes is read as the tokens that it went past, by Teeny and by C. -/
theorem expression_keeps_tokens {rule : Rule Unit} {session after : Session} {value : Unit}
    (isRule : rule = Rule.expression ∨ rule = Rule.comparison) (valid : session.Valid)
    (run : rule session = .ok value after) :
    ∃ passed text, KeepsTokens session after passed text := by
  rcases isRule with rfl | rfl
  · exact keepsTokens_of_recognises Rule.expression_recognises Piecewise.expression valid run
  · exact keepsTokens_of_recognises Rule.comparison_recognises Piecewise.comparison valid run

/-- Signs behind operators and operators behind numbers, without a blank in the source. -/
theorem expression_keeps_tokens_signs :
    ∃ session after passed text,
      Session.start (.ofString "-1--2.5/+3<=4") .empty = .ok session ∧
        Rule.comparison session = .ok () after ∧
        after.unit.main = "-1 - -2.5 / +3 <= 4" ∧ KeepsTokens session after passed text := by
  have evaluates : ((Session.start (.ofString "-1--2.5/+3<=4") .empty).toOption.any
      fun session => Rule.comparison.succeedsAt session fun after =>
        after.unit.main == "-1 - -2.5 / +3 <= 4") = true := by
    decide +kernel
  cases starts : Session.start (.ofString "-1--2.5/+3<=4") .empty with
  | error error =>
      rw [starts] at evaluates
      contradiction
  | ok session =>
      rw [starts] at evaluates
      obtain ⟨after, run, written⟩ := Rule.exists_of_succeedsAt evaluates
      obtain ⟨cursor, heads, rfl⟩ := Session.start_eq_ok_iff.mp starts
      have valid : (Session.initial cursor .empty).Valid := heads.valid (Lexer.valid_ofString _)
      obtain ⟨passed, text, keeps⟩ := expression_keeps_tokens (.inr rfl) valid run
      exact ⟨_, after, passed, text, rfl, run, eq_of_beq written, keeps⟩

end TeenyC.Syntax
