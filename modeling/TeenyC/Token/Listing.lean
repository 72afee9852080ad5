import TeenyC.Text.Column
import TeenyC.Text.Escape
import TeenyC.Token.Lexer

/-!
# Token listings

A listing shows the tokens of a source text, one on a line: the name of the kind,
then the text in escaped form.
-/

namespace TeenyC

/-- The column of the kinds. -/
def kindColumn : Column where
  width := 8

/-- The line of a token. -/
def Token.line (token : Token) : String :=
  kindColumn.set token.kind.name ++ " " ++ escapeText token.text ++ "\n"

/-- The lines of a list of tokens. -/
def tokenLines (tokens : List Token) : String :=
  String.join (tokens.map Token.line)

/-- The listing of a source text. -/
def listing (source : String) : Except LexicalError String :=
  (tokenize source).map tokenLines

end TeenyC
