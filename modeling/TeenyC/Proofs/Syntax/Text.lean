import TeenyC.Proofs.Syntax.Spelling

/-!
# The C text of phrases can be read back

An operand ends where its letters and digits end, and an operator stands between
spaces, so an expression or a comparison is told by its C text if its names and
numbers are those of tokens.
-/

namespace TeenyC

/-! ## Characters of names and numbers -/

/-- The characters of names and numbers. -/
def IsOperandCharacter (c : Char) : Prop :=
  Lexeme.isWordCharacter c = true ∨ c = '.'

instance (c : Char) : Decidable (IsOperandCharacter c) :=
  inferInstanceAs (Decidable (_ ∨ _))

/-- The text does not continue a name or a number. -/
def EndsOperand (rest : List Char) : Prop :=
  ∀ c ∈ rest.head?, ¬ IsOperandCharacter c

theorem IsName.isWordCharacter {text : String} (isName : IsName text) :
    ∀ c ∈ text.toList, Lexeme.isWordCharacter c = true := by
  rcases isName with ⟨first, rest, spelled, isLetter, others, _⟩
  rw [spelled]
  exact List.forall_mem_cons.mpr ⟨isWordCharacter_of_isAlpha isLetter, others⟩

theorem IsNumeral.isOperandCharacter {text : String} (isNumeral : IsNumeral text) :
    ∀ c ∈ text.toList, IsOperandCharacter c := by
  have digits : ∀ {run : List Char}, IsDigits run → ∀ c ∈ run, IsOperandCharacter c :=
    fun isDigits c isIn => .inl (isWordCharacter_of_isDigit (isDigits.2 c isIn))
  rcases isNumeral with whole | ⟨whole, fraction, spelled, isWhole, isFraction⟩
  · exact digits whole
  · rw [spelled]
    exact List.forall_mem_append.mpr ⟨digits isWhole,
      List.forall_mem_cons.mpr ⟨.inr rfl, digits isFraction⟩⟩

/-- No number is a name. -/
theorem IsNumeral.ne_name {number name : String} (isNumeral : IsNumeral number)
    (isName : IsName name) : number ≠ name := by
  rintro rfl
  rcases isNumeral.starts with ⟨first, rest, spelled, isDigit⟩
  rcases isName with ⟨first', rest', spelled', isLetter, _⟩
  rw [spelled] at spelled'
  rw [(List.cons.inj spelled').1] at isDigit
  exact not_isDigit_of_isAlpha isLetter isDigit

namespace Syntax

/-! ## Well-formed tokens -/

/-- The tokens have texts that tokens of their kinds can have. -/
def WellSpelled (tokens : List Token) : Prop :=
  ∀ token ∈ tokens, token.WellFormed

theorem wellSpelled_append {first second : List Token} :
    WellSpelled (first ++ second) ↔ WellSpelled first ∧ WellSpelled second :=
  List.forall_mem_append

theorem wellSpelled_cons {token : Token} {rest : List Token} :
    WellSpelled (token :: rest) ↔ token.WellFormed ∧ WellSpelled rest :=
  List.forall_mem_cons

/-! ## Operands -/

/-- The C text of a phrase, as characters. -/
def characters {α : Type} [Phrase α] (phrase : α) : List Char :=
  (Phrase.text phrase).toList

/-- The names and numbers of a phrase are those of tokens. -/
def Good {α : Type} [Phrase α] (phrase : α) : Prop :=
  WellSpelled (Phrase.tokens phrase)

theorem operand_characters {operand : Operand} (good : Good operand) :
    ∀ c ∈ characters operand, IsOperandCharacter c := by
  have wellFormed := good operand.token List.mem_cons_self
  cases operand with
  | number text => exact (wellFormed.isNumeral rfl).isOperandCharacter
  | reference name => exact fun c isIn => .inl ((wellFormed.isName rfl).isWordCharacter c isIn)

/-- An operand starts with a letter or a digit. -/
theorem operand_starts {operand : Operand} (good : Good operand) :
    ∃ first rest, characters operand = first :: rest ∧ Lexeme.isWordCharacter first = true := by
  have wellFormed := good operand.token List.mem_cons_self
  cases operand with
  | number text =>
      obtain ⟨first, rest, spelled, isDigit⟩ := (wellFormed.isNumeral rfl).starts
      exact ⟨first, rest, spelled, isWordCharacter_of_isDigit isDigit⟩
  | reference name =>
      obtain ⟨first, rest, spelled, isLetter, _⟩ := wellFormed.isName rfl
      exact ⟨first, rest, spelled, isWordCharacter_of_isAlpha isLetter⟩

theorem operand_decodes :
    Decodes (fun operand : Operand => Good operand) characters EndsOperand := by
  intro first second rest other firstGood secondGood restEnds otherEnds same
  obtain ⟨sameText, sameRest⟩ := run_decodes IsOperandCharacter (operand_characters firstGood)
    (operand_characters secondGood) restEnds otherEnds same
  have sameString : Phrase.text first = Phrase.text second := String.toList_injective sameText
  refine ⟨?_, sameRest⟩
  have firstWellFormed := firstGood first.token List.mem_cons_self
  have secondWellFormed := secondGood second.token List.mem_cons_self
  cases first with
  | number text =>
      cases second with
      | number text' => exact congrArg Operand.number sameString
      | reference name' =>
          exact absurd sameString ((firstWellFormed.isNumeral rfl).ne_name
            (secondWellFormed.isName rfl))
  | reference name =>
      cases second with
      | number text' =>
          exact absurd sameString.symm ((secondWellFormed.isNumeral rfl).ne_name
            (firstWellFormed.isName rfl))
      | reference name' => exact congrArg Operand.reference sameString

/-! ## Operators -/

/-- An operator between spaces. -/
def spaced (kind : Kind) : List Char :=
  ' ' :: (kind.spelling.toList ++ [' '])

/-- The kinds that join operands. -/
def isJoint (kind : Kind) : Bool :=
  kind.isScale || kind.isSign || kind.isComparison

/-- An operator is found by its spelling. -/
theorem find_joint {kind : Kind} (joins : isJoint kind = true) :
    Kind.all.find? (fun other => isJoint other && other.spelling == kind.spelling) =
      some kind := by
  cases kind <;> first | contradiction | decide

theorem joint_spelling_injective {first second : Kind} (firstJoins : isJoint first = true)
    (secondJoins : isJoint second = true) (same : first.spelling = second.spelling) :
    first = second := by
  have found := find_joint firstJoins
  rw [same, find_joint secondJoins] at found
  exact (Option.some.inj found).symm

theorem joint_spelling {kind : Kind} (joins : isJoint kind = true) :
    ∀ c ∈ kind.spelling.toList, c ≠ ' ' := by
  cases kind <;> first | contradiction | simp [Kind.spelling]

/-- Operators between spaces are told apart. -/
theorem spaced_decodes :
    Decodes (fun kind => isJoint kind = true) spaced (fun _ => True) := by
  intro first second rest other firstJoins secondJoins _ _ same
  simp only [spaced, List.cons_append, List.append_assoc, List.nil_append] at same
  obtain ⟨sameSpelling, afterSpelling⟩ := run_decodes (· ≠ ' ') (joint_spelling firstJoins)
    (joint_spelling secondJoins) (by simp) (by simp) (List.cons.inj same).2
  exact ⟨joint_spelling_injective firstJoins secondJoins (String.toList_injective sameSpelling),
    (List.cons.inj afterSpelling).2⟩

/-! ## Signs -/

theorem characters_unsigned (operand : Operand) :
    characters (⟨none, operand⟩ : Unary) = characters operand := by
  simp [characters, Phrase.text, signText]

theorem characters_signed (sign : { kind : Kind // kind.isSign = true }) (operand : Operand) :
    characters (⟨some sign, operand⟩ : Unary) =
      sign.1.spelling.toList ++ characters operand := by
  simp [characters, Phrase.text, signText]

theorem sign_spelling {kind : Kind} (isSign : kind.isSign = true) :
    ∃ c, kind.spelling.toList = [c] ∧ ¬ IsOperandCharacter c := by
  cases kind with
  | plus => exact ⟨'+', rfl, by decide⟩
  | minus => exact ⟨'-', rfl, by decide⟩
  | _ => contradiction

theorem isJoint_of_isSign {kind : Kind} (isSign : kind.isSign = true) : isJoint kind = true := by
  simp [isJoint, isSign]

theorem Good.operand {sign : Option { kind : Kind // kind.isSign = true }} {operand : Operand}
    (good : Good (⟨sign, operand⟩ : Unary)) : Good operand :=
  (wellSpelled_append.mp good).2

/-- An operand does not start with a sign. -/
theorem operand_ne_signed {operand : Operand} {kind : Kind} {rest other : List Char}
    (good : Good operand) (isSign : kind.isSign = true) :
    characters operand ++ rest ≠ kind.spelling.toList ++ other := by
  obtain ⟨first, others, starts, _⟩ := operand_starts good
  obtain ⟨c, spelled, notOperand⟩ := sign_spelling isSign
  rw [starts, spelled]
  intro same
  have isFirst := operand_characters good first (by simp [starts])
  rw [(List.cons.inj same).1] at isFirst
  exact notOperand isFirst

theorem unary_decodes : Decodes (fun unary : Unary => Good unary) characters EndsOperand := by
  rintro ⟨sign, operand⟩ ⟨sign', operand'⟩ rest other good good' restEnds otherEnds same
  cases sign with
  | none =>
      cases sign' with
      | none =>
          rw [characters_unsigned, characters_unsigned] at same
          obtain ⟨sameOperand, sameRest⟩ :=
            operand_decodes good.operand good'.operand restEnds otherEnds same
          exact ⟨congrArg _ sameOperand, sameRest⟩
      | some sign' =>
          rw [characters_unsigned, characters_signed, List.append_assoc] at same
          exact absurd same (operand_ne_signed good.operand sign'.2)
  | some sign =>
      cases sign' with
      | none =>
          rw [characters_unsigned, characters_signed, List.append_assoc] at same
          exact absurd same.symm (operand_ne_signed good'.operand sign.2)
      | some sign' =>
          rw [characters_signed, characters_signed, List.append_assoc, List.append_assoc] at same
          obtain ⟨c, spelled, _⟩ := sign_spelling sign.2
          obtain ⟨c', spelled', _⟩ := sign_spelling sign'.2
          rw [spelled, spelled'] at same
          obtain ⟨sameSign, afterSign⟩ := List.cons.inj same
          obtain ⟨sameOperand, sameRest⟩ :=
            operand_decodes good.operand good'.operand restEnds otherEnds afterSign
          have sameKind : sign = sign' := by
            apply Subtype.ext
            apply joint_spelling_injective (isJoint_of_isSign sign.2) (isJoint_of_isSign sign'.2)
            apply String.toList_injective
            rw [spelled, spelled', sameSign]
          exact ⟨by rw [sameKind, sameOperand], sameRest⟩

/-! ## Chains -/

section Chains

variable {joins : Kind → Bool} {α : Type} [Phrase α] {Stops : List Char → Prop}

theorem characters_tail (tail : List ({ kind : Kind // joins kind = true } × α)) :
    (tailText tail).toList = spellTail spaced characters tail := by
  induction tail with
  | nil => simp [tailText, spellTail]
  | cons link rest inductionHypothesis =>
      simp only [spellTail] at inductionHypothesis
      simp [tailText, spellTail, spaced, characters, inductionHypothesis]

theorem characters_chain (chain : Chain joins α) :
    characters chain = characters chain.head ++ spellTail spaced characters chain.tail := by
  rw [← characters_tail]
  exact String.toList_append

theorem Good.chain {chain : Chain joins α} (good : Good chain) :
    Good chain.head ∧ ∀ link ∈ chain.tail, Good link.2 := by
  rcases wellSpelled_append.mp good with ⟨headGood, tailGood⟩
  refine ⟨headGood, ?_⟩
  intro link isIn token isToken
  exact tailGood token (List.mem_flatMap.mpr ⟨link, isIn, List.mem_cons_of_mem _ isToken⟩)

/-- The C text of a chain can be read back if that of its items can. -/
theorem chain_characters_decode (separates : Separates joins spaced Stops)
    (items : Decodes (fun item : α => Good item) characters Stops) :
    Decodes (fun chain : Chain joins α => Good chain) characters
      (StopsChain joins spaced Stops) := by
  intro first second rest other firstGood secondGood restStops otherStops same
  rw [characters_chain, characters_chain] at same
  exact chain_decodes separates items firstGood.chain secondGood.chain restStops otherStops same

/-- Operators separate operands. -/
theorem separates_operands (joint : ∀ ⦃kind : Kind⦄, joins kind = true → isJoint kind = true) :
    Separates joins spaced EndsOperand where
  distinct first second rest other joined joined' same :=
    spaced_decodes (joint joined) (joint joined') trivial trivial same
  stops kind rest _ := by
    intro c isHead
    cases isHead
    decide

/-- Operators that separate items also separate chains with other operators. -/
theorem Separates.chains {inner : Kind → Bool} (separates : Separates joins spaced Stops)
    (joint : ∀ ⦃kind : Kind⦄, joins kind = true → isJoint kind = true ∧ inner kind = false)
    (innerJoint : ∀ ⦃kind : Kind⦄, inner kind = true → isJoint kind = true) :
    Separates joins spaced (StopsChain inner spaced Stops) where
  distinct := separates.distinct
  stops kind rest joined := by
    refine ⟨separates.stops rest joined, ?_⟩
    intro other isInner tail same
    have sameKind := (spaced_decodes (joint joined).1 (innerJoint isInner) trivial trivial same).1
    rw [← sameKind, (joint joined).2] at isInner
    contradiction

end Chains

/-- The text continues neither an operand nor a chain. -/
def EndsPhrase (rest : List Char) : Prop :=
  EndsOperand rest ∧ ∀ c ∈ rest.head?, c ≠ ' '

theorem EndsPhrase.stopsChain {joins : Kind → Bool} {Stops : List Char → Prop} {rest : List Char}
    (ends : EndsPhrase rest) (stops : Stops rest) : StopsChain joins spaced Stops rest := by
  refine ⟨stops, ?_⟩
  rintro kind _ other rfl
  exact ends.2 ' ' rfl rfl

theorem isJoint_of_isScale {kind : Kind} (isScale : kind.isScale = true) :
    isJoint kind = true := by
  simp [isJoint, isScale]

theorem isJoint_of_isComparison {kind : Kind} (compares : kind.isComparison = true) :
    isJoint kind = true := by
  simp [isJoint, compares]

theorem term_decodes : Decodes (fun term : Term => Good term) characters
    (StopsChain Kind.isScale spaced EndsOperand) :=
  chain_characters_decode (separates_operands fun _ => isJoint_of_isScale) unary_decodes

theorem expression_decodes : Decodes (fun expression : Expression => Good expression) characters
    (StopsChain Kind.isSign spaced (StopsChain Kind.isScale spaced EndsOperand)) := by
  have operands := separates_operands (fun _ => isJoint_of_isSign)
  refine chain_characters_decode (operands.chains ?_ fun _ => isJoint_of_isScale) term_decodes
  intro kind isSign
  cases kind <;> first | contradiction | exact ⟨rfl, rfl⟩

/-- An expression is told by its C text. -/
theorem expression_text_decodes :
    Decodes (fun expression : Expression => Good expression) characters EndsPhrase := by
  intro first second rest other firstGood secondGood restEnds otherEnds same
  exact expression_decodes firstGood secondGood
    (restEnds.stopsChain (restEnds.stopsChain restEnds.1))
    (otherEnds.stopsChain (otherEnds.stopsChain otherEnds.1)) same

/-- A comparison is told by its C text. -/
theorem comparison_text_decodes :
    Decodes (fun comparison : Comparison => Good comparison) characters EndsPhrase := by
  have operands := separates_operands (fun _ => isJoint_of_isComparison)
  have terms : Separates Kind.isComparison spaced (StopsChain Kind.isScale spaced EndsOperand) := by
    refine operands.chains ?_ fun _ => isJoint_of_isScale
    intro kind compares
    cases kind <;> first | contradiction | exact ⟨rfl, rfl⟩
  have expressions : Separates Kind.isComparison spaced
      (StopsChain Kind.isSign spaced (StopsChain Kind.isScale spaced EndsOperand)) := by
    refine terms.chains ?_ fun _ => isJoint_of_isSign
    intro kind compares
    cases kind <;> first | contradiction | exact ⟨rfl, rfl⟩
  rintro ⟨first, _⟩ ⟨second, _⟩ rest other firstGood secondGood restEnds otherEnds same
  obtain ⟨sameChain, sameRest⟩ := chain_characters_decode expressions expression_decodes firstGood
    secondGood (restEnds.stopsChain (restEnds.stopsChain (restEnds.stopsChain restEnds.1)))
    (otherEnds.stopsChain (otherEnds.stopsChain (otherEnds.stopsChain otherEnds.1))) same
  subst sameChain
  exact ⟨rfl, sameRest⟩

/-! ## Characters of phrases -/

/-- The characters of phrases: those of operands and of operators, and spaces. -/
def IsPhraseCharacter (c : Char) : Prop :=
  IsOperandCharacter c ∨ c ∈ [' ', '+', '-', '*', '/', '=', '!', '<', '>']

instance (c : Char) : Decidable (IsPhraseCharacter c) :=
  inferInstanceAs (Decidable (_ ∨ _))

theorem spaced_characters {kind : Kind} (joins : isJoint kind = true) :
    ∀ c ∈ spaced kind, IsPhraseCharacter c := by
  have all : (spaced kind).all (fun c => decide (IsPhraseCharacter c)) = true := by
    cases kind <;> first | contradiction | decide
  exact fun c isIn => of_decide_eq_true (List.all_eq_true.mp all c isIn)

theorem unary_characters {unary : Unary} (good : Good unary) :
    ∀ c ∈ characters unary, IsPhraseCharacter c := by
  rcases unary with ⟨sign, operand⟩
  have ofOperand : ∀ c ∈ characters operand, IsPhraseCharacter c :=
    fun c isIn => .inl (operand_characters good.operand c isIn)
  cases sign with
  | none => rwa [characters_unsigned]
  | some sign =>
      rw [characters_signed]
      refine List.forall_mem_append.mpr ⟨?_, ofOperand⟩
      intro c isIn
      exact spaced_characters (isJoint_of_isSign sign.2) c (by simp [spaced, isIn])

theorem chain_characters {joins : Kind → Bool} {α : Type} [Phrase α]
    (items : ∀ item : α, Good item → ∀ c ∈ characters item, IsPhraseCharacter c)
    (joint : ∀ ⦃kind : Kind⦄, joins kind = true → isJoint kind = true)
    {chain : Chain joins α} (good : Good chain) :
    ∀ c ∈ characters chain, IsPhraseCharacter c := by
  rcases good.chain with ⟨headGood, tailGood⟩
  rw [characters_chain]
  refine List.forall_mem_append.mpr ⟨items _ headGood, ?_⟩
  intro c isIn
  rcases List.mem_flatMap.mp isIn with ⟨link, isLink, isIn⟩
  have ofLink := List.forall_mem_append.mpr
    ⟨spaced_characters (joint link.1.2), items link.2 (tailGood link isLink)⟩
  exact ofLink c isIn

theorem expression_characters {expression : Expression} (good : Good expression) :
    ∀ c ∈ characters expression, IsPhraseCharacter c :=
  chain_characters
    (fun _ => chain_characters (fun _ => unary_characters) fun _ => isJoint_of_isScale)
    (fun _ => isJoint_of_isSign) good

theorem comparison_characters {comparison : Comparison} (good : Good comparison) :
    ∀ c ∈ characters comparison, IsPhraseCharacter c :=
  chain_characters (fun _ => expression_characters) (fun _ => isJoint_of_isComparison) good

/-- The characters that can stand in a string, which are all but the quote and the line
end. -/
def Quotable (text : List Char) : Prop :=
  ∀ c ∈ text, Lexeme.isStringCharacter c = true

instance (text : List Char) : Decidable (Quotable text) :=
  decidable_of_iff (text.all Lexeme.isStringCharacter = true) List.all_eq_true

theorem quotable_append {first second : List Char} :
    Quotable (first ++ second) ↔ Quotable first ∧ Quotable second :=
  List.forall_mem_append

theorem IsPhraseCharacter.quotable {c : Char} (isPhrase : IsPhraseCharacter c) :
    Lexeme.isStringCharacter c = true := by
  simp only [Lexeme.isStringCharacter, Bool.and_eq_true, bne_iff_ne]
  constructor <;> rintro rfl <;> revert isPhrase <;> decide

theorem quotable_expression {expression : Expression} (good : Good expression) :
    Quotable (characters expression) :=
  fun c isIn => (expression_characters good c isIn).quotable

theorem quotable_comparison {comparison : Comparison} (good : Good comparison) :
    Quotable (characters comparison) :=
  fun c isIn => (comparison_characters good c isIn).quotable

end Syntax

end TeenyC
