import TeenyC.Format
import TeenyC.Source

/-!
# Failures of the command

Why a run of the command fails, and the chain of messages that reports it, from
the task that failed down to the last cause.
-/

namespace TeenyC

/-- Why a run of the command fails. -/
inductive Failure where
  /-- The source file cannot be read. -/
  | readFile (path : String) (error : IoError)
  /-- Standard input cannot be read. -/
  | readInput (error : IoError)
  /-- A program is rejected. -/
  | render (name : String) (error : RenderError)
  /-- The source directory cannot be searched. -/
  | search (directory : Path) (error : SourceError)
  /-- The source directory holds no program. -/
  | noSources (directory : Path)
  /-- A directory for the output cannot be made. -/
  | makeDirectories (path : Path) (error : IoError)
  /-- An output file cannot be written. -/
  | writeFile (path : Path) (error : IoError)
  /-- The C compiler cannot be started. -/
  | invoke (compiler : String) (error : IoError)
  /-- The C compiler ends with an exit code other than zero. -/
  | build (compiler : String) (output : Path) (code : Nat)
  deriving DecidableEq

/-- The messages of a failure, the outermost first. -/
def Failure.chain : Failure → List String
  | readFile path error => ["failed to read input file " ++ path, error.message]
  | readInput error => [error.message]
  | render name error => ["failed to translate " ++ name, error.message]
  | search directory error =>
    ["failed to scan source directory " ++ directory.text, error.message] ++ error.causes
  | noSources directory => ["no .teeny files found under " ++ directory.text]
  | makeDirectories path error =>
    ["failed to create directory " ++ quoteText path.text, error.message]
  | writeFile path error => ["failed to write output file " ++ path.text, error.message]
  | invoke compiler error => ["failed to invoke C compiler " ++ compiler, error.message]
  | build compiler output code =>
    ["C compiler " ++ compiler ++ " failed on " ++ output.text ++
      " (exit status: " ++ toString code ++ ")"]

/-- The report of a failure: its first message, and the causes below it, numbered
if there are several. -/
def Failure.report (failure : Failure) : String :=
  match failure.chain with
  | [] => "Error"
  | [message] => "Error: " ++ message
  | [message, cause] => "Error: " ++ message ++ "\n\nCaused by:\n    " ++ cause
  | message :: causes =>
    let lines := causes.zipIdx.map fun (cause, index) =>
      "\n    " ++ toString index ++ ": " ++ cause
    "Error: " ++ message ++ "\n\nCaused by:" ++ String.join lines

end TeenyC
