import TeenyC.Compile.Program
import TeenyC.Token.Listing

/-!
# Output formats

What the command writes for a source text: its C text or its token listing.
-/

namespace TeenyC

/-- An output format. -/
inductive Format where
  /-- C text. -/
  | c
  /-- Token listing. -/
  | tokens
  deriving DecidableEq

namespace Format

/-- The format of a given name. -/
def ofName? : String → Option Format
  | "c" => some c
  | "tokens" => some tokens
  | _ => none

/-- The extension of files in a format. -/
def extension : Format → String
  | c => "c"
  | tokens => "tokens"

/-- A source text in a format. -/
def render (format : Format) (source : String) : Except Error String :=
  match format with
  | c => (compile source).map (·.text)
  | tokens => (listing source).mapError .lexical

end Format

/-- Why a source text was not rendered. -/
inductive RenderError where
  | rejected (error : Error)
  | unknownFormat (name : String)
  deriving DecidableEq

/-- The message of a render error. -/
def RenderError.message : RenderError → String
  | rejected error => error.message
  | unknownFormat name => "unsupported emit format: " ++ name

/-- A source text in the format of a given name. -/
def render (source formatName : String) : Except RenderError String :=
  match Format.ofName? formatName with
  | some format => (format.render source).mapError .rejected
  | none => .error (.unknownFormat formatName)

end TeenyC
