import TeenyC.Token.Basic

/-!
# Lexemes

The lexical grammar of Teeny: which token stands at the start of a text that has
neither a blank nor a comment there.

* A word is an ASCII letter followed by letters, digits and underscores.
* A number is a run of digits, with or without a point and a second run.
* A string is any text without quote and line end, between two quotes.
* A symbol is `( ) + - * / = == != < <= > >=` or a line end.

Every rule takes the longest text that it can.
-/

namespace TeenyC

/-- Why no token could be read. -/
inductive LexicalCause where
  /-- No token starts with this character. -/
  | unknownCharacter (c : Char)
  /-- An exclamation mark is followed by this character instead of `=`. -/
  | loneExclamation (next : Char)
  /-- The point of a number is not followed by a digit. -/
  | openNumber
  /-- A string does not end on its line. -/
  | openString
  /-- The place is in the middle of a character. -/
  | insideCharacter
  deriving DecidableEq

/-- A reading at the start of a text: the number of characters passed, and the
token they form or the reason why they form none. -/
structure Reading where
  passed : Nat
  result : Except LexicalCause Token

namespace Lexeme

/-- The characters of a word after its first one. -/
def isWordCharacter (c : Char) : Bool :=
  c.isAlphanum || c == '_'

/-- The characters of a string. -/
def isStringCharacter (c : Char) : Bool :=
  c != '"' && c != '\n'

/-- Read a word, given its first letter and what follows.  A word that spells no
keyword is an identifier. -/
def readWord (first : Char) (rest : List Char) : Reading :=
  let word := first :: rest.takeWhile isWordCharacter
  let text := String.ofList word
  ⟨word.length, .ok ⟨(Kind.ofKeyword? text).getD .identifier, text⟩⟩

/-- Read a number.  A point without a digit after it is a fault, found at the
point. -/
def readNumber (text : List Char) : Reading :=
  let whole := text.takeWhile Char.isDigit
  match text.drop whole.length with
  | '.' :: rest =>
    let fraction := rest.takeWhile Char.isDigit
    if fraction.isEmpty then
      ⟨whole.length, .error .openNumber⟩
    else
      let number := whole ++ '.' :: fraction
      ⟨number.length, .ok ⟨.number, String.ofList number⟩⟩
  | _ => ⟨whole.length, .ok ⟨.number, String.ofList whole⟩⟩

/-- Read a string, given what follows its opening quote.  A string that does not
end on its line is a fault, found at the line end. -/
def readString (rest : List Char) : Reading :=
  let content := rest.takeWhile isStringCharacter
  match rest.drop content.length with
  | '"' :: _ => ⟨content.length + 2, .ok ⟨.string, String.ofList content⟩⟩
  | _ => ⟨content.length + 1, .error .openString⟩

/-- Read a symbol, given its first character and what follows. -/
def readSymbol (first : Char) (rest : List Char) : Reading :=
  match Kind.ofSymbolBeforeEquals? first, rest with
  | some kind, '=' :: _ => ⟨2, .ok ⟨kind, String.ofList [first, '=']⟩⟩
  | _, _ =>
    match Kind.ofSymbol? first with
    | some kind => ⟨1, .ok ⟨kind, String.ofList [first]⟩⟩
    | none =>
      if first = '!' then
        ⟨0, .error (.loneExclamation (rest.headD '\x00'))⟩
      else
        ⟨0, .error (.unknownCharacter first)⟩

/-- Read the token at the start of a text.  The end of the text is a token too,
and takes one place. -/
def read : List Char → Reading
  | [] => ⟨1, .ok .endOfInput⟩
  | c :: rest =>
    if c.isAlpha then readWord c rest
    else if c.isDigit then readNumber (c :: rest)
    else if c = '"' then readString rest
    else readSymbol c rest

end Lexeme

end TeenyC
