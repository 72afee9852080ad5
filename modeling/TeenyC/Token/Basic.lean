import TeenyC.Token.Kind

/-!
# Tokens

A token is a kind and a text.  The text of a string token stands without its
quotes, and the end of the input has the empty text.
-/

namespace TeenyC

/-- A token of the Teeny language. -/
structure Token where
  kind : Kind
  text : String
  deriving DecidableEq

namespace Token

/-- The token that marks the end of the input. -/
def endOfInput : Token := ⟨.endOfInput, ""⟩

/-- The token of a line end. -/
def newline : Token := ⟨.newline, "\n"⟩

/-- Whether the token is of a given kind. -/
def is (token : Token) (kind : Kind) : Bool :=
  token.kind = kind

@[simp]
theorem is_eq_true_iff {token : Token} {kind : Kind} :
    token.is kind = true ↔ token.kind = kind := by
  simp [is]

/-- How a message quotes a token: by its text, or by the name of its kind where
the text cannot be seen. -/
def display (token : Token) : String :=
  match token.kind with
  | .endOfInput | .newline => token.kind.name
  | _ => token.text

end Token

end TeenyC
