import TeenyC.Text.Escape
import TeenyC.Token.Lexer

/-!
# Faults of a program

Why a Teeny program is rejected, and the message for each cause.  A program is
rejected for the first fault that is met while reading it; a jump to a label that
is nowhere declared is found only at the end.
-/

namespace TeenyC

/-- The tokens of a program do not form one. -/
inductive SyntaxFault where
  /-- No statement starts with this token. -/
  | notAStatement (token : Token)
  /-- No operand starts with this token. -/
  | notAnOperand (token : Token)
  /-- This token stands where a condition needs a comparison. -/
  | notAComparison (token : Token)
  /-- A token of one kind was needed and one of another kind found. -/
  | wrongKind (expected found : Kind)
  deriving DecidableEq

/-- A name is not used as it is declared. -/
inductive NameFault where
  /-- A call to a function that is not declared before it.  The flag tells whether
  an equals sign follows, as in an assignment without `let`. -/
  | unknownFunction (name : String) (assigned : Bool)
  /-- A function is declared inside another. -/
  | nestedFunction
  /-- A second declaration of a function, or one of `main`. -/
  | duplicateFunction (name : String)
  /-- A second declaration of a label. -/
  | duplicateLabel (name : String)
  /-- A jump to a label that is not declared. -/
  | unknownLabel (name : String)
  /-- A variable is used before it is declared in its function. -/
  | unknownVariable (name : String)
  deriving DecidableEq

/-- Why a program is rejected. -/
inductive Error where
  | lexical (error : LexicalError)
  | syntactic (fault : SyntaxFault)
  | semantic (fault : NameFault)
  deriving DecidableEq

/-! ## Messages -/

/-- One character, escaped as it is shown alone. -/
def showChar (c : Char) : String :=
  String.ofList (escapeChar .alone c)

/-- What a lexical fault is called. -/
def LexicalCause.message : LexicalCause → String
  | unknownCharacter c => "unknown token: " ++ showChar c
  | loneExclamation next => "expected !=, got !" ++ showChar next
  | openNumber => "illegal character in number"
  | openString => "unterminated string literal"
  | insideCharacter => "the position is inside a character"

/-- What a syntactic fault is called. -/
def SyntaxFault.message : SyntaxFault → String
  | notAStatement token => "invalid statement at '" ++ token.display ++ "'"
  | notAnOperand token => "unexpected token at '" ++ token.display ++ "'"
  | notAComparison token => "expected comparison operator, got " ++ token.display
  | wrongKind expected found => "expected " ++ expected.name ++ ", got " ++ found.name

/-- What a fault in the use of a name is called. -/
def NameFault.message : NameFault → String
  | unknownFunction name assigned =>
    "function does not exist: " ++ name ++
      if assigned then " (use `let " ++ name ++ " = ...` to assign a variable)" else ""
  | nestedFunction => "cannot create function in function"
  | duplicateFunction name => "function already exists: " ++ name
  | duplicateLabel name => "label already exists: " ++ name
  | unknownLabel name => "attempting to go to undeclared label: " ++ name
  | unknownVariable name => "referencing variable before assignment: " ++ name

/-- The message of an error, which names the stage that found it. -/
def Error.message : Error → String
  | lexical error =>
    "lex error at byte " ++ toString error.position ++ ": " ++ error.cause.message
  | syntactic fault => "parse error: " ++ fault.message
  | semantic fault => "semantic error: " ++ fault.message

end TeenyC
