import Mathlib.Data.List.TakeWhile
import TeenyC.Token.Lexeme

/-!
# Well-formed tokens

A token is well-formed if its text is one that its kind can have.  Keywords,
symbols, line ends and the end of the input have one text each; names, numerals
and strings have many.  `read` gives well-formed tokens only, so wherever tokens
come from a text, the kind of most of them says all there is to say.
-/

namespace TeenyC

namespace Kind

/-- The text of a kind that has only one, empty for the kinds that have many. -/
def spelling : Kind → String
  | newline => "\n"
  | leftParen => "("
  | rightParen => ")"
  | assign => "="
  | plus => "+"
  | minus => "-"
  | times => "*"
  | divide => "/"
  | equal => "=="
  | notEqual => "!="
  | less => "<"
  | lessEqual => "<="
  | greater => ">"
  | greaterEqual => ">="
  | kind => kind.keywordText?.getD ""

/-- The kinds that have only one text, the end of the input left out. -/
def isFixed : Kind → Bool
  | identifier | number | string | endOfInput => false
  | _ => true

theorem ne_endOfInput_of_isFixed {kind : Kind} (fixed : kind.isFixed = true) :
    kind ≠ .endOfInput := by
  rintro rfl
  contradiction

end Kind

/-- An identifier: a letter, then letters, digits and underscores, and no keyword. -/
def IsName (text : String) : Prop :=
  ∃ first rest, text.toList = first :: rest ∧ first.isAlpha = true ∧
    (∀ c ∈ rest, Lexeme.isWordCharacter c = true) ∧ Kind.ofKeyword? text = none

/-- A run of digits. -/
def IsDigits (text : List Char) : Prop :=
  text ≠ [] ∧ ∀ c ∈ text, c.isDigit = true

/-- A number: digits, with or without a point and digits again. -/
def IsNumeral (text : String) : Prop :=
  IsDigits text.toList ∨
    ∃ whole fraction, text.toList = whole ++ '.' :: fraction ∧
      IsDigits whole ∧ IsDigits fraction

/-- The content of a string: no quote and no line end. -/
def IsContent (text : String) : Prop :=
  ∀ c ∈ text.toList, Lexeme.isStringCharacter c = true

/-! ## Letters and digits -/

theorem isWordCharacter_of_isAlpha {c : Char} (isLetter : c.isAlpha = true) :
    Lexeme.isWordCharacter c = true := by
  simp [Lexeme.isWordCharacter, Char.isAlphanum, isLetter]

theorem isWordCharacter_of_isDigit {c : Char} (isDigit : c.isDigit = true) :
    Lexeme.isWordCharacter c = true := by
  simp [Lexeme.isWordCharacter, Char.isAlphanum, isDigit]

theorem not_isDigit_of_isAlpha {c : Char} (isLetter : c.isAlpha = true) :
    ¬ c.isDigit = true := by
  intro isDigit
  have upToNine : c.toNat ≤ 57 := (Char.isDigit_iff_toNat.mp isDigit).2
  rcases Bool.or_eq_true_iff.mp isLetter with upper | lower
  · have fromLetter : 65 ≤ c.toNat :=
      UInt32.le_iff_toNat_le.mp (of_decide_eq_true upper).1
    omega
  · have fromLetter : 97 ≤ c.toNat :=
      UInt32.le_iff_toNat_le.mp (of_decide_eq_true (Bool.and_eq_true_iff.mp lower).1)
    omega

theorem IsNumeral.starts {text : String} (isNumeral : IsNumeral text) :
    ∃ first rest, text.toList = first :: rest ∧ first.isDigit = true := by
  have digits : ∀ {run : List Char}, IsDigits run →
      ∃ first rest, run = first :: rest ∧ first.isDigit = true := by
    rintro run ⟨notEmpty, isDigit⟩
    obtain ⟨first, rest, rfl⟩ := List.exists_cons_of_ne_nil notEmpty
    exact ⟨first, rest, rfl, isDigit first List.mem_cons_self⟩
  rcases isNumeral with whole | ⟨whole, fraction, spelled, isWhole, _⟩
  · exact digits whole
  · obtain ⟨first, rest, rfl, isDigit⟩ := digits isWhole
    exact ⟨first, _, spelled, isDigit⟩

/-! ## Tokens -/

namespace Token

/-- The token of a kind that has only one text. -/
def ofKind (kind : Kind) : Token := ⟨kind, kind.spelling⟩

/-- The token of a name. -/
def ofName (name : String) : Token := ⟨.identifier, name⟩

@[simp]
theorem kind_ofKind (kind : Kind) : (ofKind kind).kind = kind := rfl

@[simp]
theorem text_ofKind (kind : Kind) : (ofKind kind).text = kind.spelling := rfl

@[simp]
theorem kind_ofName (name : String) : (ofName name).kind = .identifier := rfl

@[simp]
theorem text_ofName (name : String) : (ofName name).text = name := rfl

/-- The text of the token is one that its kind can have. -/
def WellFormed (token : Token) : Prop :=
  match token.kind with
  | .identifier => IsName token.text
  | .number => IsNumeral token.text
  | .string => IsContent token.text
  | kind => token.text = kind.spelling

theorem WellFormed.isName {token : Token} (wellFormed : token.WellFormed)
    (isName : token.kind = .identifier) : IsName token.text := by
  simpa only [WellFormed, isName] using wellFormed

theorem WellFormed.isNumeral {token : Token} (wellFormed : token.WellFormed)
    (isNumber : token.kind = .number) : IsNumeral token.text := by
  simpa only [WellFormed, isNumber] using wellFormed

theorem WellFormed.isContent {token : Token} (wellFormed : token.WellFormed)
    (isString : token.kind = .string) : IsContent token.text := by
  simpa only [WellFormed, isString] using wellFormed

/-- A well-formed token of a kind that has only one text is the token of that kind. -/
theorem WellFormed.eq_ofKind {token : Token} {kind : Kind} (wellFormed : token.WellFormed)
    (isKind : token.kind = kind) (isFixed : kind.isFixed = true) :
    token = ofKind kind := by
  rcases token with ⟨found, text⟩
  subst isKind
  have spelled : text = found.spelling := by
    cases found <;> first | exact wellFormed | contradiction
  rw [spelled, ofKind]

theorem WellFormed.eq_endOfInput {token : Token} (wellFormed : token.WellFormed)
    (isEnd : token.kind = .endOfInput) : token = endOfInput := by
  rcases token with ⟨found, text⟩
  simp only at isEnd
  subst isEnd
  have empty : text = "" := wellFormed
  rw [empty, endOfInput]

end Token

/-! ## Reading gives well-formed tokens -/

namespace Lexeme

/-- What a successful reading at the start of a text has to do: it passes at least
one character of the text and gives a well-formed token. -/
structure Sound (text : List Char) (reading : Reading) (token : Token) : Prop where
  wellFormed : token.WellFormed
  notEnd : token.kind ≠ .endOfInput
  moves : 0 < reading.passed
  stays : reading.passed ≤ text.length

theorem length_takeWhile_le (p : Char → Bool) (text : List Char) :
    (text.takeWhile p).length ≤ text.length :=
  (List.takeWhile_prefix p).length_le

theorem keyword_wellFormed {text : String} {kind : Kind}
    (found : Kind.ofKeyword? text = some kind) :
    Token.WellFormed ⟨kind, text⟩ ∧ kind ≠ .endOfInput := by
  have spelled := Kind.ofKeyword?_eq_some_iff.mp found
  cases kind <;> simp_all [Kind.keywordText?, Token.WellFormed, Kind.spelling]

theorem readWord_sound {first : Char} {rest : List Char} {token : Token}
    (isLetter : first.isAlpha = true) (read : (readWord first rest).result = .ok token) :
    Sound (first :: rest) (readWord first rest) token := by
  have inside := length_takeWhile_le isWordCharacter rest
  simp only [readWord, Except.ok.injEq] at read
  subst read
  have passed : (readWord first rest).passed =
      (rest.takeWhile isWordCharacter).length + 1 := rfl
  cases found : Kind.ofKeyword? (String.ofList (first :: rest.takeWhile isWordCharacter)) with
  | some kind =>
      obtain ⟨wellFormed, notEnd⟩ := keyword_wellFormed found
      refine ⟨wellFormed, notEnd, ?_, ?_⟩ <;> simp only [passed, List.length_cons] <;> omega
  | none =>
      refine ⟨?_, by simp, ?_, ?_⟩
      · refine ⟨first, rest.takeWhile isWordCharacter, String.toList_ofList, isLetter, ?_, found⟩
        intro c isIn
        exact List.mem_takeWhile_imp isIn
      all_goals simp only [passed, List.length_cons]; omega

theorem isDigits_takeWhile {text : List Char} (nonempty : text.takeWhile Char.isDigit ≠ []) :
    IsDigits (text.takeWhile Char.isDigit) :=
  ⟨nonempty, fun _ isIn => List.mem_takeWhile_imp isIn⟩

theorem readNumber_sound {first : Char} {rest : List Char} {token : Token}
    (isDigit : first.isDigit = true) (read : (readNumber (first :: rest)).result = .ok token) :
    Sound (first :: rest) (readNumber (first :: rest)) token := by
  have whole : IsDigits ((first :: rest).takeWhile Char.isDigit) :=
    isDigits_takeWhile (by simp [isDigit])
  have positive := List.length_pos_iff.mpr whole.1
  have inside := length_takeWhile_le Char.isDigit (first :: rest)
  revert read
  simp only [readNumber]
  split
  · next fractionText atPoint =>
      split
      · simp
      · next nonempty =>
          have fraction : IsDigits (fractionText.takeWhile Char.isDigit) :=
            isDigits_takeWhile (by simpa using nonempty)
          have room := congrArg List.length atPoint
          have within := length_takeWhile_le Char.isDigit fractionText
          simp only [List.length_drop, List.length_cons] at room
          intro read
          simp only [Except.ok.injEq] at read
          subst read
          refine ⟨.inr ⟨_, _, String.toList_ofList, whole, fraction⟩, by simp, ?_, ?_⟩ <;>
            simp only [List.length_append, List.length_cons] at * <;> omega
  · intro read
    simp only [Except.ok.injEq] at read
    subst read
    refine ⟨.inl ?_, by simp, positive, inside⟩
    rw [String.toList_ofList]
    exact whole

theorem readString_sound {rest : List Char} {token : Token}
    (read : (readString rest).result = .ok token) :
    Sound ('"' :: rest) (readString rest) token := by
  revert read
  simp only [readString]
  split
  · next after atQuote =>
      intro read
      simp only [Except.ok.injEq] at read
      subst read
      have room := congrArg List.length atQuote
      simp only [List.length_drop, List.length_cons] at room
      refine ⟨?_, by simp, by simp, ?_⟩
      · intro c isIn
        rw [String.toList_ofList] at isIn
        exact List.mem_takeWhile_imp isIn
      · simp only [List.length_cons]
        omega
  · simp

theorem symbol_wellFormed {first : Char} {kind : Kind}
    (found : Kind.ofSymbol? first = some kind) :
    Token.WellFormed ⟨kind, String.ofList [first]⟩ ∧ kind ≠ .endOfInput := by
  revert found
  simp only [Kind.ofSymbol?]
  split <;> simp only [Option.some.injEq, reduceCtorEq, false_implies] <;> rintro rfl <;>
    exact ⟨rfl, nofun⟩

theorem symbolBeforeEquals_wellFormed {first : Char} {kind : Kind}
    (found : Kind.ofSymbolBeforeEquals? first = some kind) :
    Token.WellFormed ⟨kind, String.ofList [first, '=']⟩ ∧ kind ≠ .endOfInput := by
  revert found
  simp only [Kind.ofSymbolBeforeEquals?]
  split <;> simp only [Option.some.injEq, reduceCtorEq, false_implies] <;> rintro rfl <;>
    exact ⟨rfl, nofun⟩

theorem readSymbol_sound {first : Char} {rest : List Char} {token : Token}
    (read : (readSymbol first rest).result = .ok token) :
    Sound (first :: rest) (readSymbol first rest) token := by
  revert read
  simp only [readSymbol]
  split
  · next kind after found =>
      intro read
      simp only [Except.ok.injEq] at read
      subst read
      obtain ⟨wellFormed, notEnd⟩ := symbolBeforeEquals_wellFormed found
      exact ⟨wellFormed, notEnd, by simp, by simp⟩
  · split
    · next kind found =>
        intro read
        simp only [Except.ok.injEq] at read
        subst read
        obtain ⟨wellFormed, notEnd⟩ := symbol_wellFormed found
        exact ⟨wellFormed, notEnd, by simp, by simp⟩
    · split <;> simp

/-- Whatever token is read at the start of a nonempty text is sound. -/
theorem read_sound {first : Char} {rest : List Char} {token : Token}
    (read : (read (first :: rest)).result = .ok token) :
    Sound (first :: rest) (Lexeme.read (first :: rest)) token := by
  revert read
  simp only [Lexeme.read]
  split
  · next isLetter => exact readWord_sound isLetter
  · split
    · next isDigit => exact readNumber_sound isDigit
    · split
      · next isQuote =>
          subst isQuote
          exact readString_sound
      · exact readSymbol_sound

end Lexeme

end TeenyC
