import Mathlib.Data.List.Basic
import Mathlib.Data.List.Induction
import TeenyC.Proofs.Syntax.Text

/-!
# Tokens of C

C splits a text by longest match: between blanks it takes the longest token that the text starts
with, and goes on behind it.  The tokens are those of C99, without the ones that hold a quote.
A text can be split in one way at most.
-/

namespace TeenyC

/-! ## Tokens -/

/-- The punctuators of C99. -/
def punctuators : List String :=
  ["[", "]", "(", ")", "\x7b", "\x7d", ".", "->", "++", "--", "&", "*", "+", "-", "~", "!", "/",
    "%", "<<", ">>", "<", ">", "<=", ">=", "==", "!=", "^", "|", "&&", "||", "?", ":", ";", "...",
    "=", "*=", "/=", "%=", "+=", "-=", "<<=", ">>=", "&=", "^=", "|=", ",", "#", "##", "<:", ":>",
    "<%", "%>", "%:", "%:%:"]

/-- What opens a comment, wherever a token could start. -/
def commentOpenings : List String :=
  ["//", "/*"]

/-- What C takes for one number, before it asks whether there is a constant of that form. -/
inductive CNumber : List Char → Prop
  | digit {c : Char} (isDigit : c.isDigit = true) : CNumber [c]
  | point {c : Char} (isDigit : c.isDigit = true) : CNumber ['.', c]
  | more {text : List Char} {c : Char} (number : CNumber text) (isOperand : IsOperandCharacter c) :
      CNumber (text ++ [c])
  | exponent {text : List Char} {mark sign : Char} (number : CNumber text)
      (isMark : mark ∈ ['e', 'E', 'p', 'P']) (isSign : sign ∈ ['+', '-']) :
      CNumber (text ++ [mark, sign])

/-- The tokens of C that hold no quote, and what opens a comment. -/
inductive CToken : List Char → Prop
  | word {first : Char} {rest : List Char} (starts : first.isAlpha = true ∨ first = '_')
      (others : ∀ c ∈ rest, Lexeme.isWordCharacter c = true) : CToken (first :: rest)
  | number {text : List Char} (isNumber : CNumber text) : CToken text
  | symbol {text : String} (isSymbol : text ∈ punctuators ++ commentOpenings) :
      CToken text.toList

theorem CNumber.starts {text : List Char} (number : CNumber text) :
    ∃ first rest, text = first :: rest ∧ (first.isDigit = true ∨ first = '.') := by
  induction number with
  | digit isDigit => exact ⟨_, [], rfl, .inl isDigit⟩
  | point isDigit => exact ⟨'.', _, rfl, .inr rfl⟩
  | more _ _ inductionHypothesis | exponent _ _ _ inductionHypothesis =>
      obtain ⟨first, rest, rfl, starts⟩ := inductionHypothesis
      exact ⟨first, _, rfl, starts⟩

/-- A digit and then characters of operands are one number. -/
theorem cNumber_of_operandCharacters {first : Char} {rest : List Char}
    (isDigit : first.isDigit = true) (others : ∀ c ∈ rest, IsOperandCharacter c) :
    CNumber (first :: rest) := by
  induction rest using List.reverseRecOn with
  | nil => exact .digit isDigit
  | append_singleton rest c inductionHypothesis =>
      rcases List.forall_mem_append.mp others with ⟨before, last⟩
      exact (inductionHypothesis before).more (last c (List.mem_singleton.mpr rfl))

theorem CToken.ne_nil {text : List Char} (isToken : CToken text) : text ≠ [] := by
  cases isToken with
  | word => exact List.cons_ne_nil _ _
  | number isNumber =>
      obtain ⟨first, rest, rfl, _⟩ := isNumber.starts
      exact List.cons_ne_nil _ _
  | @symbol text isSymbol =>
      have all : ∀ text ∈ punctuators ++ commentOpenings, text.toList ≠ [] := by decide +kernel
      exact all text isSymbol

/-- No token starts with a sign and goes on with a letter, a digit or an underscore. -/
theorem not_cToken_of_signed {sign first : Char} {rest : List Char} (isSign : sign ∈ ['+', '-'])
    (isWord : Lexeme.isWordCharacter first = true) : ¬ CToken (sign :: first :: rest) := by
  have notStart : ¬ sign.isAlpha = true ∧ sign ≠ '_' ∧ ¬ sign.isDigit = true ∧ sign ≠ '.' := by
    rcases List.mem_pair.mp isSign with rfl | rfl <;> decide
  intro isToken
  generalize whole : sign :: first :: rest = text at isToken
  cases isToken with
  | word starts others =>
      obtain ⟨rfl, _⟩ := List.cons.inj whole
      exact starts.elim notStart.1 notStart.2.1
  | number isNumber =>
      obtain ⟨start, others, rfl, starts⟩ := isNumber.starts
      obtain ⟨rfl, _⟩ := List.cons.inj whole
      exact starts.elim notStart.2.2.1 notStart.2.2.2
  | @symbol text isSymbol =>
      have all : (punctuators ++ commentOpenings).all
          (fun text => text.toList.tail.all fun c => !Lexeme.isWordCharacter c) = true := by
        decide +kernel
      have notWord := List.all_eq_true.mp (List.all_eq_true.mp all text isSymbol) first
        (by simp [← whole])
      rw [isWord] at notWord
      contradiction

/-! ## Blanks -/

/-- The blanks of C. -/
def cBlanks : List Char :=
  [' ', '\t', '\n', '\x0b', '\x0c']

theorem isOperandCharacter_not_blank {c : Char} (isOperand : IsOperandCharacter c) :
    c ∉ cBlanks := by
  have blanks : cBlanks.all (fun c => !decide (IsOperandCharacter c)) = true := by decide
  intro isBlank
  have notOperand := List.all_eq_true.mp blanks c isBlank
  simp [isOperand] at notOperand

theorem CNumber.not_blank {text : List Char} (number : CNumber text) :
    ∀ c ∈ text, c ∉ cBlanks := by
  have digit : ∀ {c : Char}, c.isDigit = true → c ∉ cBlanks := fun isDigit =>
    isOperandCharacter_not_blank (.inl (isWordCharacter_of_isDigit isDigit))
  have marks : ∀ c ∈ ['e', 'E', 'p', 'P'], c ∉ cBlanks := by
    have letters : ['e', 'E', 'p', 'P'].all Char.isAlpha = true := by decide
    intro c isMark
    have isLetter := List.all_eq_true.mp letters c isMark
    exact isOperandCharacter_not_blank (.inl (isWordCharacter_of_isAlpha isLetter))
  have signs : ∀ c ∈ ['+', '-'], c ∉ cBlanks := by
    intro c isSign
    rcases List.mem_pair.mp isSign with rfl | rfl <;> decide
  induction number with
  | digit isDigit => exact List.forall_mem_singleton.mpr (digit isDigit)
  | point isDigit =>
      exact List.forall_mem_cons.mpr ⟨by decide, List.forall_mem_singleton.mpr (digit isDigit)⟩
  | more _ isOperand inductionHypothesis =>
      exact List.forall_mem_append.mpr ⟨inductionHypothesis,
        List.forall_mem_singleton.mpr (isOperandCharacter_not_blank isOperand)⟩
  | exponent _ isMark isSign inductionHypothesis =>
      exact List.forall_mem_append.mpr ⟨inductionHypothesis,
        List.forall_mem_cons.mpr ⟨marks _ isMark, List.forall_mem_singleton.mpr (signs _ isSign)⟩⟩

/-- No token holds a blank. -/
theorem CToken.not_blank {text : List Char} (isToken : CToken text) :
    ∀ c ∈ text, c ∉ cBlanks := by
  cases isToken with
  | word starts others =>
      refine List.forall_mem_cons.mpr ⟨isOperandCharacter_not_blank (.inl ?_), ?_⟩
      · rcases starts with isLetter | rfl
        · exact isWordCharacter_of_isAlpha isLetter
        · decide
      · exact fun c isIn => isOperandCharacter_not_blank (.inl (others c isIn))
  | number isNumber => exact isNumber.not_blank
  | @symbol text isSymbol =>
      have all : (punctuators ++ commentOpenings).all
          (fun text => text.toList.all fun c => !cBlanks.contains c) = true := by
        decide +kernel
      intro c isIn isBlank
      have notBlank := List.all_eq_true.mp (List.all_eq_true.mp all text isSymbol) c isIn
      simp [isBlank] at notBlank

/-! ## Longest match -/

/-- The text is split into these pieces: each is a token, and no longer beginning of what is left
of the text is one. -/
inductive CSplits : List Char → List (List Char) → Prop
  | done : CSplits [] []
  | blank {c : Char} {rest : List Char} {pieces : List (List Char)} (isBlank : c ∈ cBlanks)
      (tail : CSplits rest pieces) : CSplits (c :: rest) pieces
  | piece {piece rest : List Char} {pieces : List (List Char)} (isToken : CToken piece)
      (longest : ∀ more, more ≠ [] → more <+: rest → ¬ CToken (piece ++ more))
      (tail : CSplits rest pieces) : CSplits (piece ++ rest) (piece :: pieces)

/-- A text does not start with a token and with a blank. -/
theorem CToken.append_ne_blank {piece rest other : List Char} {c : Char} (isToken : CToken piece)
    (isBlank : c ∈ cBlanks) : piece ++ rest ≠ c :: other := by
  obtain ⟨first, others, rfl⟩ := List.exists_cons_of_ne_nil isToken.ne_nil
  intro same
  obtain ⟨rfl, _⟩ := List.cons.inj same
  exact isToken.not_blank _ List.mem_cons_self isBlank

/-- Two tokens that a text starts with are the same if neither could be longer. -/
theorem eq_of_longest {piece other rest remaining : List Char} (isToken : CToken piece)
    (otherToken : CToken other)
    (longest : ∀ more, more ≠ [] → more <+: rest → ¬ CToken (piece ++ more))
    (otherLongest : ∀ more, more ≠ [] → more <+: remaining → ¬ CToken (other ++ more))
    (same : piece ++ rest = other ++ remaining) : piece = other ∧ rest = remaining := by
  rcases List.append_eq_append_iff.mp same with ⟨more, rfl, rfl⟩ | ⟨more, rfl, rfl⟩
  · have nothing : more = [] := by
      by_contra notNil
      exact longest more notNil (List.prefix_append _ _) otherToken
    subst nothing
    simp
  · have nothing : more = [] := by
      by_contra notNil
      exact otherLongest more notNil (List.prefix_append _ _) isToken
    subst nothing
    simp

/-- A text is split in one way at most. -/
theorem CSplits.unique {text : List Char} {pieces others : List (List Char)}
    (splits : CSplits text pieces) (otherSplits : CSplits text others) : pieces = others := by
  induction splits generalizing others with
  | done =>
      generalize whole : [] = text at otherSplits
      cases otherSplits with
      | done => rfl
      | blank => cases whole
      | piece isToken => exact absurd (List.append_eq_nil_iff.mp whole.symm).1 isToken.ne_nil
  | @blank c rest pieces isBlank _ inductionHypothesis =>
      generalize whole : c :: rest = text at otherSplits
      cases otherSplits with
      | done => cases whole
      | blank _ tail =>
          obtain ⟨_, rfl⟩ := List.cons.inj whole
          exact inductionHypothesis tail
      | piece isToken => exact absurd whole.symm (isToken.append_ne_blank isBlank)
  | @piece piece rest pieces isToken longest _ inductionHypothesis =>
      generalize whole : piece ++ rest = text at otherSplits
      cases otherSplits with
      | done => exact absurd (List.append_eq_nil_iff.mp whole).1 isToken.ne_nil
      | blank isBlank => exact absurd whole (isToken.append_ne_blank isBlank)
      | piece otherToken otherLongest tail =>
          obtain ⟨rfl, rfl⟩ := eq_of_longest isToken otherToken longest otherLongest whole
          rw [inductionHypothesis tail]

end TeenyC
