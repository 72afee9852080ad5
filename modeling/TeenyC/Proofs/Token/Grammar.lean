import TeenyC.Proofs.Token.Supply

/-!
# The lexical grammar

A text spells tokens if it is their lexemes with gaps between them, and no lexeme could
have been longer.  This says nothing of how a text is read, and `tokenize` finds exactly
the tokens that the text spells: `tokenize_eq_ok_iff_spells`.

A gap is a run of blanks.  Before a line end it may close with a comment, which the line
end cuts off; so the reading of a text depends on the line end that it closes with.
-/

namespace TeenyC

/-! ## Runs of characters -/

/-- The text does not start with a character of the class. -/
def Stops (among : Char → Bool) (rest : List Char) : Prop :=
  ∀ c ∈ rest.head?, among c = false

theorem stops_dropWhile (among : Char → Bool) (text : List Char) :
    Stops among (text.dropWhile among) := by
  intro c isHead
  have head := List.head?_dropWhile_not among text
  rw [Option.mem_def.mp isHead] at head
  exact head

theorem drop_length_takeWhile (among : Char → Bool) (text : List Char) :
    text.drop (text.takeWhile among).length = text.dropWhile among := by
  calc
    text.drop (text.takeWhile among).length =
        (text.takeWhile among ++ text.dropWhile among).drop (text.takeWhile among).length := by
      rw [List.takeWhile_append_dropWhile]
    _ = text.dropWhile among := List.drop_left

section Runs

variable {among : Char → Bool} {run rest : List Char}

theorem takeWhile_eq_nil_of_stops (stops : Stops among rest) : rest.takeWhile among = [] := by
  cases rest with
  | nil => rfl
  | cons c rest => simp [stops c rfl]

theorem dropWhile_eq_self_of_stops (stops : Stops among rest) : rest.dropWhile among = rest := by
  cases rest with
  | nil => rfl
  | cons c rest => simp [stops c rfl]

/-- A run ends where the text after it does not start with a character of its class. -/
theorem takeWhile_append_of_stops (inside : ∀ c ∈ run, among c = true)
    (stops : Stops among rest) : (run ++ rest).takeWhile among = run := by
  rw [List.takeWhile_append_of_pos inside, takeWhile_eq_nil_of_stops stops, List.append_nil]

theorem dropWhile_append_of_stops (inside : ∀ c ∈ run, among c = true)
    (stops : Stops among rest) : (run ++ rest).dropWhile among = rest := by
  rw [List.dropWhile_append_of_pos inside, dropWhile_eq_self_of_stops stops]

end Runs

/-! ## Lexemes -/

namespace Token

/-- The characters of a token in a source text.  Only a string has some that are not in
its text. -/
def lexeme (token : Token) : List Char :=
  match token.kind with
  | .string => '"' :: (token.text.toList ++ ['"'])
  | _ => token.text.toList

/-- The lexeme of the token could not be longer: what follows it does not go on with it.
Nothing follows the end of the input. -/
def Maximal (token : Token) (rest : List Char) : Prop :=
  match token.kind with
  | .endOfInput => rest = []
  | .identifier | .labelKeyword | .gotoKeyword | .printKeyword | .inputKeyword | .letKeyword
  | .fnKeyword | .ifKeyword | .whileKeyword | .endKeyword => Stops Lexeme.isWordCharacter rest
  | .number =>
    Stops Char.isDigit rest ∧ ('.' ∉ token.text.toList → Stops (· == '.') rest)
  | .assign | .less | .greater => Stops (· == '=') rest
  | .newline | .string | .leftParen | .rightParen | .plus | .minus | .times | .divide
  | .equal | .notEqual | .lessEqual | .greaterEqual => True

/-- The token is the first of a text, and the rest of the text follows it. -/
structure Starts (token : Token) (text rest : List Char) : Prop where
  wellFormed : token.WellFormed
  maximal : token.Maximal rest
  split : text = token.lexeme ++ rest

end Token

/-- The reading of a text gives a token and leaves the rest of the text. -/
def Reading.Gives (reading : Reading) (text : List Char) (token : Token) (rest : List Char) :
    Prop :=
  reading.result = .ok token ∧ text.drop reading.passed = rest

namespace Lexeme

variable {first : Char} {run rest text : List Char} {token : Token} {kind : Kind}

/-! ## Words -/

/-- The token of a word: the keyword that it spells, or else an identifier. -/
def wordToken (word : List Char) : Token :=
  ⟨(Kind.ofKeyword? (String.ofList word)).getD .identifier, String.ofList word⟩

theorem wordToken_lexeme (word : List Char) : (wordToken word).lexeme = word := by
  simp only [wordToken]
  cases found : Kind.ofKeyword? (String.ofList word) with
  | none => simp [Token.lexeme]
  | some kind =>
      have spelled := Kind.ofKeyword?_eq_some_iff.mp found
      cases kind <;> simp_all [Token.lexeme, Kind.keywordText?]

theorem wordToken_maximal_iff (word rest : List Char) :
    (wordToken word).Maximal rest ↔ Stops isWordCharacter rest := by
  simp only [wordToken]
  cases found : Kind.ofKeyword? (String.ofList word) with
  | none => exact Iff.rfl
  | some kind =>
      have spelled := Kind.ofKeyword?_eq_some_iff.mp found
      cases kind <;> first | exact Iff.rfl | simp [Kind.keywordText?] at spelled

theorem readWord_starts (isLetter : first.isAlpha = true)
    (gives : (readWord first text).Gives (first :: text) token rest) :
    token.Starts (first :: text) rest := by
  rcases gives with ⟨result, rfl⟩
  have sound := readWord_sound isLetter result
  have isToken : wordToken (first :: text.takeWhile isWordCharacter) = token :=
    Except.ok.inj result
  have left : (first :: text).drop (readWord first text).passed =
      text.dropWhile isWordCharacter := drop_length_takeWhile isWordCharacter text
  rw [left]
  refine ⟨sound.wellFormed, ?_, ?_⟩
  · rw [← isToken, wordToken_maximal_iff]
    exact stops_dropWhile isWordCharacter text
  · rw [← isToken, wordToken_lexeme, List.cons_append, List.takeWhile_append_dropWhile]

theorem readWord_gives (inside : ∀ c ∈ run, isWordCharacter c = true)
    (stops : Stops isWordCharacter rest) :
    (readWord first (run ++ rest)).Gives (first :: (run ++ rest)) (wordToken (first :: run))
      rest := by
  have taken := takeWhile_append_of_stops inside stops
  constructor
  · simp only [readWord, taken]
    rfl
  · simp only [readWord, taken]
    exact @List.drop_left _ (first :: run) rest

/-- A letter, then letters, digits and underscores. -/
def IsWord (text : List Char) : Prop :=
  ∃ first run, text = first :: run ∧ first.isAlpha = true ∧ ∀ c ∈ run, isWordCharacter c = true

theorem keyword_isWord {word : String} (spelled : kind.keywordText? = some word) :
    IsWord word.toList := by
  cases kind <;> simp only [Kind.keywordText?, Option.some.injEq, reduceCtorEq] at spelled <;>
    subst spelled <;> exact ⟨_, _, rfl, rfl, List.all_eq_true.mp rfl⟩

theorem read_gives_word (isWord : IsWord run) (stops : Stops isWordCharacter rest) :
    (read (run ++ rest)).Gives (run ++ rest) (wordToken run) rest := by
  rcases isWord with ⟨first, run, rfl, isLetter, inside⟩
  rw [List.cons_append, read, if_pos isLetter]
  exact readWord_gives inside stops

/-! ## Numbers -/

theorem stops_digits_of_point (rest : List Char) : Stops Char.isDigit ('.' :: rest) := by
  intro c isHead
  cases isHead
  decide

theorem point_not_mem {digits : List Char} (isDigits : IsDigits digits) : '.' ∉ digits := by
  intro isIn
  exact absurd (isDigits.2 '.' isIn) (by decide)

theorem readNumber_starts (isDigit : first.isDigit = true)
    (gives : (readNumber (first :: text)).Gives (first :: text) token rest) :
    token.Starts (first :: text) rest := by
  rcases gives with ⟨result, rfl⟩
  have wellFormed := (readNumber_sound isDigit result).wellFormed
  have nonempty : (first :: text).takeWhile Char.isDigit ≠ [] := by simp [isDigit]
  have split : (first :: text).takeWhile Char.isDigit ++ (first :: text).dropWhile Char.isDigit =
      first :: text := List.takeWhile_append_dropWhile
  have stops := stops_dropWhile Char.isDigit (first :: text)
  revert result
  simp only [readNumber, drop_length_takeWhile]
  generalize (first :: text).takeWhile Char.isDigit = whole at *
  generalize (first :: text).dropWhile Char.isDigit = after at *
  split
  · next fractionText =>
      split
      · simp
      · intro result
        cases result
        have fractionSplit : fractionText.takeWhile Char.isDigit ++
            fractionText.dropWhile Char.isDigit = fractionText := List.takeWhile_append_dropWhile
        have text_eq : (whole ++ '.' :: fractionText.takeWhile Char.isDigit) ++
            fractionText.dropWhile Char.isDigit = first :: text := by
          rw [← split, List.append_assoc, List.cons_append, fractionSplit]
        rw [← text_eq, List.drop_left]
        refine ⟨wellFormed, ⟨stops_dropWhile _ _, ?_⟩, ?_⟩
        · intro noPoint
          simp at noPoint
        · simp [Token.lexeme]
  · next noPoint =>
      intro result
      cases result
      rw [← split, List.drop_left]
      refine ⟨wellFormed, ⟨stops, ?_⟩, ?_⟩
      · intro _ c isHead
        obtain ⟨rest, rfl⟩ := List.head?_eq_some_iff.mp (Option.mem_def.mp isHead)
        apply beq_eq_false_iff_ne.mpr
        rintro rfl
        exact noPoint rest rfl
      · simp [Token.lexeme]

/-- A number is read as far as its digits go, with or without a point. -/
theorem readNumber_gives {number : String} (isNumeral : IsNumeral number)
    (maximal : Token.Maximal ⟨.number, number⟩ rest) :
    (readNumber (number.toList ++ rest)).Gives (number.toList ++ rest) ⟨.number, number⟩ rest := by
  rcases maximal with ⟨stops, stopsPoint⟩
  have toToken : ∀ {run : List Char}, number.toList = run → String.ofList run = number := by
    rintro run rfl
    exact String.ofList_toList
  rcases isNumeral with isWhole | ⟨whole, fraction, spelled, isWhole, isFraction⟩
  · have taken := takeWhile_append_of_stops isWhole.2 stops
    have notAtPoint : ∀ after, rest ≠ '.' :: after := by
      rintro after rfl
      simpa using stopsPoint (point_not_mem isWhole) '.' rfl
    have read : readNumber (number.toList ++ rest) =
        ⟨number.toList.length, .ok ⟨.number, number⟩⟩ := by
      -- The case for a point is ruled out by `notAtPoint`.
      simp only [readNumber, taken, List.drop_left, String.ofList_toList]
    rw [read]
    exact ⟨rfl, List.drop_left⟩
  · have taken : (whole ++ '.' :: (fraction ++ rest)).takeWhile Char.isDigit = whole :=
      takeWhile_append_of_stops isWhole.2 (stops_digits_of_point _)
    have fractionTaken := takeWhile_append_of_stops isFraction.2 stops
    have nonempty : fraction.isEmpty = false := by simpa using isFraction.1
    have read : readNumber (whole ++ '.' :: (fraction ++ rest)) =
        ⟨(whole ++ '.' :: fraction).length, .ok ⟨.number, number⟩⟩ := by
      simp only [readNumber, taken, List.drop_left, fractionTaken, nonempty, Bool.false_eq_true,
        if_false, toToken spelled]
    have text_eq : number.toList ++ rest = whole ++ '.' :: (fraction ++ rest) := by
      rw [spelled, List.append_assoc, List.cons_append]
    rw [text_eq, read, ← text_eq, spelled]
    exact ⟨rfl, List.drop_left⟩

/-! ## Strings -/

theorem readString_starts (gives : (readString text).Gives ('"' :: text) token rest) :
    token.Starts ('"' :: text) rest := by
  rcases gives with ⟨result, rfl⟩
  have wellFormed := (readString_sound result).wellFormed
  have split : text.takeWhile isStringCharacter ++ text.dropWhile isStringCharacter = text :=
    List.takeWhile_append_dropWhile
  revert result
  simp only [readString, drop_length_takeWhile]
  split
  · next after atQuote =>
      intro result
      cases result
      rw [atQuote] at split
      generalize text.takeWhile isStringCharacter = content at *
      have text_eq : '"' :: text = ('"' :: (content ++ ['"'])) ++ after := by
        rw [← split]
        simp
      have length_eq : content.length + 2 = ('"' :: (content ++ ['"'])).length := by simp
      rw [text_eq, length_eq, List.drop_left]
      exact ⟨wellFormed, trivial, by simp [Token.lexeme]⟩
  · intro result
    simp at result

theorem readString_gives {content : String} (isContent : IsContent content) :
    (readString (content.toList ++ '"' :: rest)).Gives ('"' :: (content.toList ++ '"' :: rest))
      ⟨.string, content⟩ rest := by
  have stops : Stops isStringCharacter ('"' :: rest) := by
    intro c isHead
    cases isHead
    decide
  have taken := takeWhile_append_of_stops isContent stops
  have read : readString (content.toList ++ '"' :: rest) =
      ⟨content.toList.length + 2, .ok ⟨.string, content⟩⟩ := by
    simp only [readString, taken, List.drop_left, String.ofList_toList]
  rw [read]
  refine ⟨rfl, ?_⟩
  rw [List.drop_succ_cons, List.drop_append]
  simp

/-! ## Symbols -/

theorem ofSymbol?_starts (found : Kind.ofSymbol? first = some kind)
    (alone : Kind.ofSymbolBeforeEquals? first = none ∨ Stops (· == '=') rest) :
    Token.Starts ⟨kind, String.ofList [first]⟩ (first :: rest) rest := by
  have wellFormed := (symbol_wellFormed found).1
  revert found
  simp only [Kind.ofSymbol?]
  split <;> simp only [Option.some.injEq, reduceCtorEq, false_implies] <;> rintro rfl
  all_goals
    first
    | exact ⟨wellFormed, trivial, rfl⟩
    | exact ⟨wellFormed, alone.resolve_left (Option.some_ne_none _), rfl⟩

theorem ofSymbolBeforeEquals?_starts (found : Kind.ofSymbolBeforeEquals? first = some kind) :
    Token.Starts ⟨kind, String.ofList [first, '=']⟩ (first :: '=' :: rest) rest := by
  have wellFormed := (symbolBeforeEquals_wellFormed found).1
  revert found
  simp only [Kind.ofSymbolBeforeEquals?]
  split <;> simp only [Option.some.injEq, reduceCtorEq, false_implies] <;> rintro rfl <;>
    exact ⟨wellFormed, trivial, rfl⟩

theorem readSymbol_starts (gives : (readSymbol first text).Gives (first :: text) token rest) :
    token.Starts (first :: text) rest := by
  rcases gives with ⟨result, rfl⟩
  revert result
  simp only [readSymbol]
  split
  · next found =>
      intro result
      cases result
      exact ofSymbolBeforeEquals?_starts found
  · next notTwo =>
      split
      · next kind found =>
          intro result
          cases result
          apply ofSymbol?_starts found
          cases before : Kind.ofSymbolBeforeEquals? first with
          | none => exact .inl rfl
          | some longer =>
              right
              intro c isHead
              obtain ⟨after, rfl⟩ := List.head?_eq_some_iff.mp (Option.mem_def.mp isHead)
              apply beq_eq_false_iff_ne.mpr
              rintro rfl
              exact notTwo longer after before rfl
      · intro result
        split at result <;> simp at result

/-- The characters that start a symbol, which start nothing else. -/
theorem read_eq_readSymbol (isSymbol : (Kind.ofSymbol? first).isSome = true ∨ first = '!') :
    read (first :: text) = readSymbol first text := by
  have notOther : first.isAlpha = false ∧ first.isDigit = false ∧ first ≠ '"' := by
    rcases isSymbol with found | rfl
    · revert found
      simp only [Kind.ofSymbol?]
      split <;> simp
    · decide
  simp [read, notOther]

theorem read_gives_one {symbol : String} (first : Char)
    (found : Kind.ofSymbol? first = some kind) (spelled : symbol = String.ofList [first])
    (alone : Kind.ofSymbolBeforeEquals? first = none ∨ Stops (· == '=') rest) :
    (read (symbol.toList ++ rest)).Gives (symbol.toList ++ rest) ⟨kind, symbol⟩ rest := by
  have one : readSymbol first rest = ⟨1, .ok ⟨kind, symbol⟩⟩ := by
    simp only [readSymbol]
    split
    · next longer =>
        rcases alone with none | stops
        · simp [none] at longer
        · simpa using stops '=' rfl
    · simp only [found, spelled]
  rw [spelled, String.toList_ofList, List.singleton_append,
    read_eq_readSymbol (.inl (by simp [found])), one, spelled]
  exact ⟨rfl, rfl⟩

theorem read_gives_two {symbol : String} (first : Char)
    (found : Kind.ofSymbolBeforeEquals? first = some kind)
    (spelled : symbol = String.ofList [first, '=']) :
    (read (symbol.toList ++ rest)).Gives (symbol.toList ++ rest) ⟨kind, symbol⟩ rest := by
  have isSymbol : (Kind.ofSymbol? first).isSome = true ∨ first = '!' := by
    revert found
    simp only [Kind.ofSymbolBeforeEquals?]
    split <;> simp [Kind.ofSymbol?]
  have two : readSymbol first ('=' :: rest) = ⟨2, .ok ⟨kind, symbol⟩⟩ := by
    simp only [readSymbol, found, spelled]
  rw [spelled, String.toList_ofList, List.cons_append, List.singleton_append,
    read_eq_readSymbol isSymbol, two, spelled]
  exact ⟨rfl, rfl⟩

/-! ## The first token of a text -/

theorem read_starts (gives : (read text).Gives text token rest) : token.Starts text rest := by
  cases text with
  | nil =>
      rcases gives with ⟨result, rfl⟩
      cases result
      exact ⟨rfl, rfl, rfl⟩
  | cons first text =>
      revert gives
      simp only [read]
      split
      · next isLetter => exact readWord_starts isLetter
      · split
        · next isDigit => exact readNumber_starts isDigit
        · split
          · next isQuote =>
              subst isQuote
              exact readString_starts
          · exact readSymbol_starts

theorem read_gives (starts : token.Starts text rest) : (read text).Gives text token rest := by
  rcases starts with ⟨wellFormed, maximal, rfl⟩
  rcases token with ⟨kind, text⟩
  -- A keyword is a word that happens to be spelled like one.
  have keyword : kind.keywordText? = some text → Stops isWordCharacter rest →
      (read (text.toList ++ rest)).Gives (text.toList ++ rest) ⟨kind, text⟩ rest := by
    intro spelled stops
    have gives := read_gives_word (keyword_isWord spelled) stops
    have isToken : wordToken text.toList = ⟨kind, text⟩ := by
      simp [wordToken, Kind.ofKeyword?_eq_some_iff.mpr spelled]
    rwa [isToken] at gives
  cases kind with
  | endOfInput =>
      obtain rfl : text = "" := wellFormed
      obtain rfl : rest = [] := maximal
      exact ⟨rfl, rfl⟩
  | identifier =>
      obtain ⟨first, run, spelled, isLetter, inside, notKeyword⟩ : IsName text := wellFormed
      have gives := read_gives_word ⟨first, run, spelled, isLetter, inside⟩ maximal
      have isToken : wordToken text.toList = ⟨.identifier, text⟩ := by
        simp [wordToken, notKeyword]
      rwa [isToken] at gives
  | number =>
      have isNumeral : IsNumeral text := wellFormed
      have gives := readNumber_gives isNumeral maximal
      obtain ⟨first, run, spelled, isDigit⟩ := isNumeral.starts
      have notLetter : ¬ first.isAlpha = true := fun isLetter =>
        not_isDigit_of_isAlpha isLetter isDigit
      have read : read (text.toList ++ rest) = readNumber (text.toList ++ rest) := by
        rw [spelled, List.cons_append, Lexeme.read, if_neg notLetter, if_pos isDigit]
      simp only [Token.lexeme]
      rwa [read]
  | string =>
      have isContent : IsContent text := wellFormed
      have text_eq : Token.lexeme ⟨.string, text⟩ ++ rest =
          '"' :: (text.toList ++ '"' :: rest) := by simp [Token.lexeme]
      rw [text_eq]
      exact readString_gives isContent
  | labelKeyword | gotoKeyword | printKeyword | inputKeyword | letKeyword | fnKeyword | ifKeyword
  | whileKeyword | endKeyword =>
      exact keyword (congrArg some wellFormed.symm) maximal
  | equal => exact read_gives_two '=' rfl wellFormed
  | notEqual => exact read_gives_two '!' rfl wellFormed
  | lessEqual => exact read_gives_two '<' rfl wellFormed
  | greaterEqual => exact read_gives_two '>' rfl wellFormed
  | assign => exact read_gives_one '=' rfl wellFormed (.inr maximal)
  | less => exact read_gives_one '<' rfl wellFormed (.inr maximal)
  | greater => exact read_gives_one '>' rfl wellFormed (.inr maximal)
  | newline => exact read_gives_one '\n' rfl wellFormed (.inl rfl)
  | leftParen => exact read_gives_one '(' rfl wellFormed (.inl rfl)
  | rightParen => exact read_gives_one ')' rfl wellFormed (.inl rfl)
  | plus => exact read_gives_one '+' rfl wellFormed (.inl rfl)
  | minus => exact read_gives_one '-' rfl wellFormed (.inl rfl)
  | times => exact read_gives_one '*' rfl wellFormed (.inl rfl)
  | divide => exact read_gives_one '/' rfl wellFormed (.inl rfl)

end Lexeme

/-! ## Gaps -/

/-- What may stand in front of a token of a kind: blanks, and in front of a line end also a
comment after them. -/
inductive Gap : List Char → Kind → Prop
  | blanks {gap : List Char} {kind : Kind} (blank : ∀ c ∈ gap, Lexer.isBlank c = true) :
      Gap gap kind
  | comment {gap comment : List Char} (blank : ∀ c ∈ gap, Lexer.isBlank c = true)
      (onLine : '\n' ∉ comment) : Gap (gap ++ '#' :: comment) .newline

/-- The text closes with a line end, unless there is no text. -/
def Closed (text : List Char) : Prop :=
  ∀ c ∈ text.getLast?, c = '\n'

theorem Closed.of_append {first rest : List Char} (closed : Closed (first ++ rest)) :
    Closed rest := by
  intro c isLast
  apply closed
  simp [List.getLast?_append, Option.mem_def.mp isLast]

theorem closed_append_newline (text : List Char) : Closed (text ++ ['\n']) := by
  intro c isLast
  simpa [eq_comm] using isLast

/-- The text behind the blanks and the comment that it starts with. -/
def afterGap (text : List Char) : List Char :=
  match text.dropWhile Lexer.isBlank with
  | '#' :: rest => rest.dropWhile (· != '\n')
  | rest => rest

section Gaps

variable {first : Char} {gap text rest : List Char} {token : Token}

/-- Blanks and comments are no part of a token. -/
theorem Token.Starts.head (starts : token.Starts (first :: text) rest) :
    Lexer.isBlank first = false ∧ first ≠ '#' := by
  obtain ⟨result, _⟩ := Lexeme.read_gives starts
  constructor
  · apply Bool.eq_false_iff.mpr
    intro isBlank
    simp only [Lexer.isBlank, Bool.or_eq_true, beq_iff_eq] at isBlank
    rcases isBlank with (rfl | rfl) | rfl <;> cases result
  · rintro rfl
    cases result

/-- A line end is a token of its own. -/
theorem Token.Starts.eq_newline (starts : token.Starts ('\n' :: text) rest) :
    token = .newline := by
  obtain ⟨result, _⟩ := Lexeme.read_gives starts
  cases result
  rfl

theorem eq_append_afterGap (closed : Closed text) (starts : token.Starts (afterGap text) rest) :
    ∃ gap, Gap gap token.kind ∧ text = gap ++ afterGap text := by
  have blank : ∀ c ∈ text.takeWhile Lexer.isBlank, Lexer.isBlank c = true :=
    fun c isIn => List.mem_takeWhile_imp isIn
  have split : text.takeWhile Lexer.isBlank ++ text.dropWhile Lexer.isBlank = text :=
    List.takeWhile_append_dropWhile
  revert starts
  simp only [afterGap]
  split
  · next line atComment =>
      intro starts
      rw [atComment] at split
      have lineSplit : line.takeWhile (· != '\n') ++ line.dropWhile (· != '\n') = line :=
        List.takeWhile_append_dropWhile
      have onLine : '\n' ∉ line.takeWhile (· != '\n') := by
        intro isIn
        simpa using List.mem_takeWhile_imp isIn
      -- The comment stops at a line end and not at the end of the text, which is closed.
      cases atStop : line.dropWhile (· != '\n') with
      | nil =>
          rw [atStop, List.append_nil] at lineSplit
          rw [lineSplit] at onLine
          have lineClosed : Closed ('#' :: line) := by
            rw [← split] at closed
            exact closed.of_append
          have isLast := lineClosed _ (List.getLast?_eq_some_getLast (List.cons_ne_nil '#' line))
          have isIn := List.getLast_mem (List.cons_ne_nil '#' line)
          rw [isLast] at isIn
          exact absurd isIn (by simpa using onLine)
      | cons c after =>
          have isNewline : c = '\n' := by
            have stops := stops_dropWhile (· != '\n') line
            rw [atStop] at stops
            simpa using stops c rfl
          subst isNewline
          rw [atStop] at starts lineSplit
          rw [starts.eq_newline]
          refine ⟨_, .comment blank onLine, ?_⟩
          rw [List.append_assoc, List.cons_append, lineSplit, split]
  · intro _
    exact ⟨_, .blanks blank, split.symm⟩

theorem afterGap_append (between : Gap gap token.kind) (starts : token.Starts text rest) :
    afterGap (gap ++ text) = text := by
  generalize isKind : token.kind = kind at between
  cases between with
  | blanks blank =>
      have stops : Stops Lexer.isBlank text := by
        intro c isHead
        obtain ⟨after, rfl⟩ := List.head?_eq_some_iff.mp (Option.mem_def.mp isHead)
        exact starts.head.1
      rw [afterGap, dropWhile_append_of_stops blank stops]
      split
      · exact absurd rfl starts.head.2
      · rfl
  | @comment gap comment blank onLine =>
      have stopsBlanks : Stops Lexer.isBlank ('#' :: (comment ++ text)) := by
        intro c isHead
        cases isHead
        decide
      have isNewline : token = .newline := starts.wellFormed.eq_ofKind isKind rfl
      have onText : ∀ c ∈ comment, (c != '\n') = true := by
        intro c isIn
        apply bne_iff_ne.mpr
        rintro rfl
        exact onLine isIn
      have stops : Stops (· != '\n') text := by
        rw [starts.split, isNewline]
        intro c isHead
        cases isHead
        decide
      rw [List.append_assoc, List.cons_append, afterGap,
        dropWhile_append_of_stops blank stopsBlanks]
      exact dropWhile_append_of_stops onText stops

end Gaps

/-! ## Whole texts -/

/-- The text spells the tokens: it is their lexemes, each with a gap in front of it, and no
lexeme could be longer.  The end of the input is the last token and no other. -/
inductive Spells : List Char → List Token → Prop
  | last {gap : List Char} (between : Gap gap .endOfInput) : Spells gap [.endOfInput]
  | more {gap rest : List Char} {token : Token} {others : List Token}
      (between : Gap gap token.kind) (wellFormed : token.WellFormed)
      (inside : token.kind ≠ .endOfInput) (maximal : token.Maximal rest)
      (tail : Spells rest others) : Spells (gap ++ token.lexeme ++ rest) (token :: others)

namespace Lexer

variable {lexer after : Lexer} {token : Token} {rest : List Char} {tokens : List Token}

theorem rest_skipBlanks (between : lexer.inside = 0) :
    lexer.skipBlanks.rest = lexer.rest.dropWhile isBlank := by
  rw [skipBlanks, if_pos between, rest_pass, drop_length_takeWhile]

theorem inside_skipBlanks (lexer : Lexer) : lexer.skipBlanks.inside = lexer.inside := by
  rw [skipBlanks]
  split
  · exact inside_pass ..
  · rfl

theorem rest_tokenStart (between : lexer.inside = 0) :
    lexer.tokenStart.rest = afterGap lexer.rest := by
  have here : lexer.skipBlanks.inside = 0 := by rw [inside_skipBlanks, between]
  rw [tokenStart, skipComment, afterGap, here, rest_skipBlanks between]
  split
  · next line atComment =>
      simp only [atComment]
      rw [rest_pass, rest_skipBlanks between, atComment, Nat.add_comm, List.drop_succ_cons,
        drop_length_takeWhile]
  · next noComment =>
      split
      · next line atComment => exact absurd atComment (noComment line rfl)
      · exact rest_skipBlanks between

theorem inside_tokenStart (between : lexer.inside = 0) : lexer.tokenStart.inside = 0 := by
  obtain ⟨blanks, blanksEq⟩ := skipBlanks_eq_pass between
  obtain ⟨comment, commentEq⟩ := skipComment_eq_pass lexer.skipBlanks
  rw [tokenStart, commentEq, blanksEq, inside_pass, inside_pass, between]

/-- The next token is read behind the gap. -/
theorem next_eq_ok_iff (between : lexer.inside = 0) :
    lexer.next = .ok token after ↔
      (Lexeme.read (afterGap lexer.rest)).result = .ok token ∧
        after = lexer.tokenStart.pass (Lexeme.read (afterGap lexer.rest)).passed := by
  rw [next_eq, if_pos (inside_tokenStart between), rest_tokenStart between]
  cases (Lexeme.read (afterGap lexer.rest)).result with
  | error cause => simp
  | ok given => simp [eq_comm]

theorem starts_of_next (between : lexer.inside = 0) (read : lexer.next = .ok token after) :
    token.Starts (afterGap lexer.rest) after.rest ∧ after.inside = 0 := by
  obtain ⟨result, rfl⟩ := (next_eq_ok_iff between).mp read
  constructor
  · apply Lexeme.read_starts
    rw [rest_pass, rest_tokenStart between]
    exact ⟨result, rfl⟩
  · rw [inside_pass, inside_tokenStart between]

theorem exists_next_of_starts (between : lexer.inside = 0)
    (starts : token.Starts (afterGap lexer.rest) rest) :
    ∃ after, lexer.next = .ok token after ∧ after.rest = rest ∧ after.inside = 0 := by
  obtain ⟨result, rfl⟩ := Lexeme.read_gives starts
  refine ⟨_, (next_eq_ok_iff between).mpr ⟨result, rfl⟩, ?_, ?_⟩
  · rw [rest_pass, rest_tokenStart between]
  · rw [inside_pass, inside_tokenStart between]

/-- A lexer at a closed text hands out the tokens that the text spells. -/
theorem Supplies.spells (supplies : lexer.Supplies tokens) (between : lexer.inside = 0)
    (closed : Closed lexer.rest) : Spells lexer.rest tokens := by
  induction supplies with
  | @last lexer after token read isEnd =>
      obtain ⟨starts, _⟩ := starts_of_next between read
      obtain ⟨gap, gapBefore, split⟩ := eq_append_afterGap closed starts
      obtain rfl : token = .endOfInput := starts.wellFormed.eq_endOfInput isEnd
      have nothing : afterGap lexer.rest = [] := by
        rw [starts.split, show after.rest = [] from starts.maximal]
        rfl
      rw [split, nothing, List.append_nil]
      exact .last gapBefore
  | @more lexer after token others read notEnd _ inductionHypothesis =>
      obtain ⟨starts, stillBetween⟩ := starts_of_next between read
      obtain ⟨gap, gapBefore, split⟩ := eq_append_afterGap closed starts
      rw [starts.split, ← List.append_assoc] at split
      rw [split] at closed ⊢
      exact .more gapBefore starts.wellFormed notEnd starts.maximal
        (inductionHypothesis stillBetween closed.of_append)

theorem supplies_of_spells {text : List Char} (spells : Spells text tokens)
    (between : lexer.inside = 0) (isText : lexer.rest = text) : lexer.Supplies tokens := by
  induction spells generalizing lexer with
  | @last gap gapBefore =>
      have starts : Token.endOfInput.Starts [] [] := ⟨rfl, rfl, rfl⟩
      have atToken := afterGap_append gapBefore starts
      rw [List.append_nil] at atToken
      rw [← atToken, ← isText] at starts
      obtain ⟨after, read, _⟩ := exists_next_of_starts between starts
      exact .last read rfl
  | @more gap rest token others gapBefore wellFormed notEnd maximal _ inductionHypothesis =>
      have starts : token.Starts (token.lexeme ++ rest) rest := ⟨wellFormed, maximal, rfl⟩
      have atToken := afterGap_append gapBefore starts
      rw [← atToken, ← List.append_assoc, ← isText] at starts
      obtain ⟨after, read, atRest, stillBetween⟩ := exists_next_of_starts between starts
      exact .more read notEnd (inductionHypothesis stillBetween atRest)

end Lexer

/-- The tokens of a source text are exactly those that it spells together with the line end
behind it. -/
theorem tokenize_eq_ok_iff_spells (source : String) (tokens : List Token) :
    tokenize source = .ok tokens ↔ Spells (source.toList ++ ['\n']) tokens := by
  rw [tokenize_eq_ok_iff]
  constructor
  · intro supplies
    exact supplies.spells rfl (closed_append_newline source.toList)
  · intro spells
    exact Lexer.supplies_of_spells spells rfl rfl

/-- Longest lexemes: a number ends at a letter, and equals signs go in pairs from the left. -/
example : tokenize "12abc===#c" =
    .ok [⟨.number, "12"⟩, ⟨.identifier, "abc"⟩, .ofKind .equal, .ofKind .assign, .newline,
      .endOfInput] := by
  decide +kernel

end TeenyC
