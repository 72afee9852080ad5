import TeenyC.Proofs.Syntax.Generator
import TeenyC.Proofs.Syntax.Text

/-!
# Lines of C can be read back

A line starts with a word, which may be empty.  What stands after the word tells the
shape of the line, and within one shape the word or a character further on tells the
rest.  A name is never a keyword, so no line for a name looks like another line.
Strings are all that could be mistaken for something else, and they stand between
quotes, which nothing else on a line can hold.
-/

namespace TeenyC.Syntax

namespace Line

/-! ## Well-formed lines -/

/-- The names, numbers and strings of the line are those of tokens. -/
def WellFormed : Line → Prop
  | openFunction name | declare name | call name | label name | jump name | openScan name =>
    IsName name
  | assign name value => IsName name ∧ Good value
  | printText content => IsContent content
  | printValue value => Good value
  | openGuard _ condition => Good condition
  | preamble | openMain | finish | close | discard => True

/-! ## The first word of a line -/

/-- The word at the start of a line. -/
def word : Line → String
  | preamble | close => ""
  | openMain => "int"
  | openFunction _ => "void"
  | finish => "return"
  | declare _ => "float"
  | assign name _ | call name | label name => name
  | printText _ | printValue _ => "printf"
  | jump _ => "goto"
  | openGuard guard _ => guard.kind.spelling
  | openScan _ => "if"
  | discard => "scanf"

/-- What stands after the word at the start of a line. -/
def remainder : Line → List Char
  | preamble => "#include <stdio.h>".toList
  | openMain => " main() \x7b".toList
  | openFunction name => ' ' :: (name.toList ++ "() \x7b".toList)
  | finish => " 0;".toList
  | close => "\x7d".toList
  | declare name | jump name => ' ' :: (name.toList ++ [';'])
  | assign _ value => " = ".toList ++ characters value ++ [';']
  | printText content =>
    "(\"%s\\n\", \"".toList ++ (Rule.literalText content).toList ++ "\");".toList
  | printValue value => "(\"%.2f\\n\", (float) (".toList ++ characters value ++ "));".toList
  | call _ => "();".toList
  | label _ => ":;".toList
  | openGuard _ condition => " (".toList ++ characters condition ++ ") \x7b".toList
  | openScan name => " (0 == scanf(\"%f\", &".toList ++ name.toList ++ ")) \x7b".toList
  | discard => "(\"%*s\");".toList

theorem toList_text (line : Line) : line.text.toList = line.word.toList ++ line.remainder := by
  cases line <;> simp [Line.text.eq_def, word.eq_def, remainder.eq_def, characters]

theorem word_isWordCharacter {line : Line} (wellFormed : line.WellFormed) :
    ∀ c ∈ line.word.toList, Lexeme.isWordCharacter c = true := by
  cases line with
  | assign name value => exact wellFormed.1.isWordCharacter
  | call name | label name => exact IsName.isWordCharacter wellFormed
  | openGuard guard condition =>
      cases guard <;> simp only [word.eq_def] <;> exact List.all_eq_true.mp (by decide)
  | _ =>
      simp only [word.eq_def]
      exact List.all_eq_true.mp (by decide)

theorem remainder_endsWord (line : Line) :
    ∀ c ∈ line.remainder.head?, ¬ Lexeme.isWordCharacter c = true := by
  cases line <;> simp [remainder.eq_def, Lexeme.isWordCharacter]

/-- The text of a line tells its first word and what stands after it. -/
theorem eq_word_and_remainder {first second : Line} (firstGood : first.WellFormed)
    (secondGood : second.WellFormed) (same : first.text = second.text) :
    first.word = second.word ∧ first.remainder = second.remainder := by
  have sameCharacters := congrArg String.toList same
  rw [toList_text, toList_text] at sameCharacters
  obtain ⟨sameWord, sameRemainder⟩ := run_decodes (Lexeme.isWordCharacter · = true)
    (word_isWordCharacter firstGood) (word_isWordCharacter secondGood)
    first.remainder_endsWord second.remainder_endsWord sameCharacters
  exact ⟨String.toList_injective sameWord, sameRemainder⟩

/-! ## Shapes -/

/-- What stands after the word at the start of a line, roughly. -/
inductive Shape where
  | directive
  | closing
  | worded
  | assigned
  | guarded
  | quoted
  | called
  | labelled
  deriving DecidableEq

/-- The characters that tell a shape. -/
def Shape.mark : Shape → List Char
  | directive => ['#']
  | closing => ['\x7d']
  | worded => [' ']
  | assigned => [' ', '=']
  | guarded => [' ', '(']
  | quoted => ['(', '"']
  | called => ['(', ')']
  | labelled => [':', ';']

theorem Shape.mark_injective {first second : Shape} (same : first.mark = second.mark) :
    first = second := by
  cases first <;> cases second <;> first | rfl | exact absurd same (by decide)

/-- The shape of a line. -/
def shape : Line → Shape
  | preamble => .directive
  | close => .closing
  | openMain | openFunction _ | finish | declare _ | jump _ => .worded
  | assign _ _ => .assigned
  | openGuard _ _ | openScan _ => .guarded
  | printText _ | printValue _ | discard => .quoted
  | call _ => .called
  | label _ => .labelled

/-- The first characters of a text that belong to no word. -/
def mark (text : List Char) : List Char :=
  (text.take 2).filter fun c => !Lexeme.isWordCharacter c

theorem mark_name {name : String} (isName : IsName name) (rest : List Char) :
    mark (' ' :: (name.toList ++ rest)) = [' '] := by
  rcases isName with ⟨first, others, spelled, isLetter, _⟩
  have blank : Lexeme.isWordCharacter ' ' = false := rfl
  simp [mark, spelled, blank, isWordCharacter_of_isAlpha isLetter]

theorem mark_remainder {line : Line} (wellFormed : line.WellFormed) :
    mark line.remainder = line.shape.mark := by
  cases line with
  | openFunction name | declare name | jump name => exact mark_name wellFormed _
  | _ => simp [remainder.eq_def, mark, shape, Shape.mark, Lexeme.isWordCharacter]

/-! ## Contents of lines -/

theorem endsPhrase_nil : EndsPhrase [] :=
  ⟨nofun, nofun⟩

theorem expression_characters_injective {first second : Expression} (firstGood : Good first)
    (secondGood : Good second) (same : characters first = characters second) : first = second :=
  (expression_text_decodes firstGood secondGood endsPhrase_nil endsPhrase_nil
    (congrArg (· ++ []) same)).1

theorem comparison_characters_injective {first second : Comparison} (firstGood : Good first)
    (secondGood : Good second) (same : characters first = characters second) : first = second :=
  (comparison_text_decodes firstGood secondGood endsPhrase_nil endsPhrase_nil
    (congrArg (· ++ []) same)).1

/-- The characters of C for a character of a string. -/
def literalCharacters (c : Char) : List Char :=
  if c = '\\' then ['\\', '\\'] else [c]

theorem literalCharacters_eq_cons (c : Char) :
    literalCharacters c = c :: if c = '\\' then ['\\'] else [] := by
  by_cases isBackslash : c = '\\' <;> simp [literalCharacters, isBackslash]

theorem literalCharacters_decode :
    Decodes (fun _ : Char => True) literalCharacters (fun _ => True) := by
  intro first second rest other _ _ _ _ same
  rw [literalCharacters_eq_cons, literalCharacters_eq_cons] at same
  obtain ⟨rfl, afterFirst⟩ := List.cons.inj same
  exact ⟨rfl, List.append_cancel_left afterFirst⟩

/-- A string is told by its text in C, where each backslash stands twice. -/
theorem literalText_injective {first second : String}
    (same : Rule.literalText first = Rule.literalText second) : first = second := by
  have ends : EndsSequence (fun _ : Char => True) literalCharacters (fun _ => True) [] := by
    refine ⟨trivial, fun c _ other => ?_⟩
    simp [literalCharacters_eq_cons]
  have sameCharacters := congrArg (· ++ []) (String.ofList_injective same)
  apply String.toList_injective
  exact (sequence_decodes literalCharacters_decode (fun _ _ _ => trivial) (fun _ _ => trivial)
    (fun _ _ => trivial) ends ends sameCharacters).1

theorem guard_spelling_injective {first second : Guard}
    (same : first.kind.spelling = second.kind.spelling) : first = second := by
  cases first <;> cases second <;> first | rfl | exact absurd same (by decide)

/-- A condition holds no quote, so it is not the reading of a number. -/
theorem guard_ne_scan {guard : Guard} {condition : Comparison} {name : String}
    (good : Good condition) :
    (openGuard guard condition).remainder ≠ (openScan name).remainder := by
  have quotable : Quotable (openGuard guard condition).remainder := by
    simp only [remainder.eq_def, quotable_append]
    exact ⟨⟨by decide, quotable_comparison good⟩, by decide⟩
  intro same
  rw [same] at quotable
  have isQuote := quotable '"' (by simp [remainder.eq_def])
  contradiction

/-! ## Reading lines back -/

/-- Lines of different forms differ in their first words or in what stands after them. -/
theorem ctorIdx_eq {first second : Line} (firstGood : first.WellFormed)
    (secondGood : second.WellFormed) (sameWord : first.word = second.word)
    (sameRemainder : first.remainder = second.remainder) :
    first.ctorIdx = second.ctorIdx := by
  have sameShape : first.shape = second.shape := by
    apply Shape.mark_injective
    rw [← mark_remainder firstGood, ← mark_remainder secondGood, sameRemainder]
  -- The shape settles most pairs, the word those of one shape, the remainder the others.
  cases first <;> cases second <;> first
    | rfl
    | (simp only [shape, reduceCtorEq] at sameShape; done)
    | (simp [word.eq_def] at sameWord; done)
    | (simp [remainder.eq_def] at sameRemainder; done)
    | exact absurd sameRemainder (guard_ne_scan firstGood)
    | exact absurd sameRemainder.symm (guard_ne_scan secondGood)

/-- A line is told by its text. -/
theorem text_injective {first second : Line} (firstGood : first.WellFormed)
    (secondGood : second.WellFormed) (same : first.text = second.text) : first = second := by
  obtain ⟨sameWord, sameRemainder⟩ := eq_word_and_remainder firstGood secondGood same
  have sameForm := ctorIdx_eq firstGood secondGood sameWord sameRemainder
  cases first with
  | preamble | close | openMain | finish | discard =>
      cases second <;> first | rfl | nomatch sameForm
  | openFunction name =>
      cases second with
      | openFunction name' =>
          have sameName : name = name' := by
            simpa [remainder.eq_def, String.toList_inj] using sameRemainder
          exact congrArg openFunction sameName
      | _ => nomatch sameForm
  | declare name =>
      cases second with
      | declare name' =>
          have sameName : name = name' := by
            simpa [remainder.eq_def, String.toList_inj] using sameRemainder
          exact congrArg declare sameName
      | _ => nomatch sameForm
  | jump name =>
      cases second with
      | jump name' =>
          have sameName : name = name' := by
            simpa [remainder.eq_def, String.toList_inj] using sameRemainder
          exact congrArg jump sameName
      | _ => nomatch sameForm
  | openScan name =>
      cases second with
      | openScan name' =>
          have sameName : name = name' := by
            simpa [remainder.eq_def, String.toList_inj] using sameRemainder
          exact congrArg openScan sameName
      | _ => nomatch sameForm
  | call name =>
      cases second with
      | call name' => exact congrArg call sameWord
      | _ => nomatch sameForm
  | label name =>
      cases second with
      | label name' => exact congrArg label sameWord
      | _ => nomatch sameForm
  | assign name value =>
      cases second with
      | assign name' value' =>
          have sameValue : characters value = characters value' := by
            simpa [remainder.eq_def] using sameRemainder
          exact congrArg₂ assign sameWord
            (expression_characters_injective firstGood.2 secondGood.2 sameValue)
      | _ => nomatch sameForm
  | printText content =>
      cases second with
      | printText content' =>
          have sameLiteral : Rule.literalText content = Rule.literalText content' := by
            simpa [remainder.eq_def, String.toList_inj] using sameRemainder
          exact congrArg printText (literalText_injective sameLiteral)
      | _ => nomatch sameForm
  | printValue value =>
      cases second with
      | printValue value' =>
          have sameValue : characters value = characters value' := by
            simpa [remainder.eq_def] using sameRemainder
          exact congrArg printValue
            (expression_characters_injective firstGood secondGood sameValue)
      | _ => nomatch sameForm
  | openGuard guard condition =>
      cases second with
      | openGuard guard' condition' =>
          have sameCondition : characters condition = characters condition' := by
            simpa [remainder.eq_def] using sameRemainder
          exact congrArg₂ openGuard (guard_spelling_injective sameWord)
            (comparison_characters_injective firstGood secondGood sameCondition)
      | _ => nomatch sameForm

/-! ## Line ends -/

/-- The characters stand on one line. -/
def Unbroken (text : List Char) : Prop :=
  ∀ c ∈ text, c ≠ '\n'

instance (text : List Char) : Decidable (Unbroken text) :=
  decidable_of_iff (text.all (· ≠ '\n') = true) (by simp [Unbroken])

theorem unbroken_append {first second : List Char} :
    Unbroken (first ++ second) ↔ Unbroken first ∧ Unbroken second :=
  List.forall_mem_append

theorem unbroken_of_quotable {text : List Char} (quotable : Quotable text) : Unbroken text := by
  intro c isIn isNewline
  have isCharacter := quotable c isIn
  rw [isNewline] at isCharacter
  contradiction

theorem unbroken_of_words {text : List Char}
    (words : ∀ c ∈ text, Lexeme.isWordCharacter c = true) : Unbroken text := by
  intro c isIn isNewline
  have isWord := words c isIn
  rw [isNewline] at isWord
  contradiction

theorem unbroken_literalText {content : String} (isContent : IsContent content) :
    Unbroken (Rule.literalText content).toList := by
  intro c isIn
  rw [Rule.literalText, String.toList_ofList] at isIn
  rcases List.mem_flatMap.mp isIn with ⟨source, isSource, isIn⟩
  split at isIn
  · rintro rfl
    simp at isIn
  · rw [List.mem_singleton] at isIn
    rw [isIn]
    exact unbroken_of_quotable isContent source isSource

theorem unbroken_remainder {line : Line} (wellFormed : line.WellFormed) :
    Unbroken line.remainder := by
  cases line with
  | openFunction name | declare name | jump name =>
      have isName := unbroken_of_words (IsName.isWordCharacter wellFormed)
      exact List.forall_mem_cons.mpr ⟨by decide, unbroken_append.mpr ⟨isName, by decide⟩⟩
  | openScan name =>
      have isName := unbroken_of_words (IsName.isWordCharacter wellFormed)
      exact unbroken_append.mpr ⟨unbroken_append.mpr ⟨by decide, isName⟩, by decide⟩
  | assign name value =>
      have isValue := unbroken_of_quotable (quotable_expression wellFormed.2)
      exact unbroken_append.mpr ⟨unbroken_append.mpr ⟨by decide, isValue⟩, by decide⟩
  | printText content =>
      have isLiteral := unbroken_literalText wellFormed
      exact unbroken_append.mpr ⟨unbroken_append.mpr ⟨by decide, isLiteral⟩, by decide⟩
  | printValue value =>
      have isValue := unbroken_of_quotable (quotable_expression wellFormed)
      exact unbroken_append.mpr ⟨unbroken_append.mpr ⟨by decide, isValue⟩, by decide⟩
  | openGuard guard condition =>
      have isCondition := unbroken_of_quotable (quotable_comparison wellFormed)
      exact unbroken_append.mpr ⟨unbroken_append.mpr ⟨by decide, isCondition⟩, by decide⟩
  | _ => simp only [remainder.eq_def]; decide

theorem unbroken_text {line : Line} (wellFormed : line.WellFormed) :
    Unbroken line.text.toList := by
  rw [toList_text, unbroken_append]
  exact ⟨unbroken_of_words (word_isWordCharacter wellFormed), unbroken_remainder wellFormed⟩

/-- A line with its line end. -/
def ended (line : Line) : List Char :=
  line.text.toList ++ ['\n']

theorem ended_decodes : Decodes WellFormed ended (fun _ => True) := by
  intro first second rest other firstGood secondGood _ _ same
  simp only [ended, List.append_assoc, List.singleton_append] at same
  obtain ⟨sameText, afterText⟩ := run_decodes (· ≠ '\n') (unbroken_text firstGood)
    (unbroken_text secondGood) (by simp) (by simp) same
  exact ⟨text_injective firstGood secondGood (String.toList_injective sameText),
    (List.cons.inj afterText).2⟩

end Line

theorem toList_render (lines : List Line) : (render lines).toList = lines.flatMap Line.ended := by
  induction lines with
  | nil => rfl
  | cons line rest inductionHypothesis => simp [render, Line.ended, inductionHypothesis]

/-- Lines are told by their text. -/
theorem render_injective {first second : List Line} (firstGood : ∀ line ∈ first, line.WellFormed)
    (secondGood : ∀ line ∈ second, line.WellFormed) (same : render first = render second) :
    first = second := by
  have ends : EndsSequence Line.WellFormed Line.ended (fun _ => True) [] := by
    refine ⟨trivial, fun line _ other => ?_⟩
    simp [Line.ended]
  have sameCharacters := congrArg (String.toList · ++ []) same
  simp only [toList_render] at sameCharacters
  exact (sequence_decodes Line.ended_decodes (fun _ _ _ => trivial) firstGood secondGood ends ends
    sameCharacters).1

end TeenyC.Syntax
