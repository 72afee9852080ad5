/-!
# Token kinds

The closed set of token kinds of the Teeny language, the names by which messages
and listings refer to them, and the spellings of those kinds that have only one.
-/

namespace TeenyC

/-- The kind of a token. -/
inductive Kind where
  | endOfInput
  | newline
  | number
  | identifier
  | string
  | leftParen
  | rightParen
  | labelKeyword
  | gotoKeyword
  | printKeyword
  | inputKeyword
  | letKeyword
  | fnKeyword
  | ifKeyword
  | whileKeyword
  | endKeyword
  | assign
  | plus
  | minus
  | times
  | divide
  | equal
  | notEqual
  | less
  | lessEqual
  | greater
  | greaterEqual
  deriving DecidableEq

namespace Kind

/-- Every kind, once. -/
def all : List Kind :=
  [endOfInput, newline, number, identifier, string, leftParen, rightParen,
    labelKeyword, gotoKeyword, printKeyword, inputKeyword, letKeyword, fnKeyword,
    ifKeyword, whileKeyword, endKeyword,
    assign, plus, minus, times, divide,
    equal, notEqual, less, lessEqual, greater, greaterEqual]

theorem mem_all (kind : Kind) : kind ∈ all := by
  cases kind <;> decide

/-! ## Names -/

/-- The name of a kind in messages and listings. -/
def name : Kind → String
  | endOfInput => "EOF"
  | newline => "NEWLINE"
  | number => "NUMBER"
  | identifier => "IDENT"
  | string => "STRING"
  | leftParen => "LPAREN"
  | rightParen => "RPAREN"
  | labelKeyword => "LABEL"
  | gotoKeyword => "GOTO"
  | printKeyword => "PRINT"
  | inputKeyword => "INPUT"
  | letKeyword => "LET"
  | fnKeyword => "FN"
  | ifKeyword => "IF"
  | whileKeyword => "WHILE"
  | endKeyword => "END"
  | assign => "EQ"
  | plus => "PLUS"
  | minus => "MINUS"
  | times => "ASTERISK"
  | divide => "SLASH"
  | equal => "EQEQ"
  | notEqual => "NOTEQ"
  | less => "LT"
  | lessEqual => "LTEQ"
  | greater => "GT"
  | greaterEqual => "GTEQ"

/-- The kind with a given name. -/
def ofName? (text : String) : Option Kind :=
  all.find? fun kind => kind.name == text

theorem ofName?_name (kind : Kind) : ofName? kind.name = some kind := by
  cases kind <;> decide

/-- Kinds are told apart by their names. -/
theorem name_injective {first second : Kind} (equal : first.name = second.name) :
    first = second := by
  have found := ofName?_name first
  rw [equal, ofName?_name second] at found
  exact (Option.some.inj found).symm

/-! ## Keywords -/

/-- The spelling of a keyword kind. -/
def keywordText? : Kind → Option String
  | labelKeyword => some "label"
  | gotoKeyword => some "goto"
  | printKeyword => some "print"
  | inputKeyword => some "input"
  | letKeyword => some "let"
  | fnKeyword => some "fn"
  | ifKeyword => some "if"
  | whileKeyword => some "while"
  | endKeyword => some "end"
  | _ => none

/-- The keyword that a word spells.  Case matters: `Print` is no keyword. -/
def ofKeyword? (text : String) : Option Kind :=
  all.find? fun kind => kind.keywordText? == some text

/-- A word is the keyword `kind` exactly when it is the spelling of `kind`. -/
theorem ofKeyword?_eq_some_iff {text : String} {kind : Kind} :
    ofKeyword? text = some kind ↔ kind.keywordText? = some text := by
  constructor
  · intro found
    have spelled := List.find?_some found
    simpa using spelled
  · intro spelled
    cases kind <;> simp only [keywordText?, Option.some.injEq, reduceCtorEq] at spelled <;>
      subst spelled <;> decide

/-! ## Operators -/

/-- The kinds that compare two values. -/
def isComparison : Kind → Bool
  | equal | notEqual | less | lessEqual | greater | greaterEqual => true
  | _ => false

/-- The kind of a one-character symbol, the newline included. -/
def ofSymbol? : Char → Option Kind
  | '(' => some leftParen
  | ')' => some rightParen
  | '+' => some plus
  | '-' => some minus
  | '*' => some times
  | '/' => some divide
  | '=' => some assign
  | '<' => some less
  | '>' => some greater
  | '\n' => some newline
  | _ => none

/-- The kind of a symbol that ends in an equals sign, by its first character. -/
def ofSymbolBeforeEquals? : Char → Option Kind
  | '=' => some equal
  | '!' => some notEqual
  | '<' => some lessEqual
  | '>' => some greaterEqual
  | _ => none

end Kind

end TeenyC
