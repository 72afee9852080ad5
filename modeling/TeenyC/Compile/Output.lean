import TeenyC.CUnit.Sink
import TeenyC.Compile.Program

/-!
# Compiled output

A source text is compiled and its C text written to a sink.  Nothing reaches the
sink unless the whole program has been compiled.
-/

namespace TeenyC

/-- Why a program did not reach a sink. -/
inductive OutputError where
  /-- The program is rejected. -/
  | rejected (error : Error)
  /-- The sink failed. -/
  | sink (fault : SinkFault)
  deriving DecidableEq

/-- The message of an output error. -/
def OutputError.message : OutputError → String
  | rejected error => error.message
  | sink fault => "failed to write output: " ++ fault.message

/-- Compile a source text and write the C text to a sink. -/
def compileTo (source : String) : EStateM OutputError Sink Unit := fun sink =>
  match run (.ofString source) .empty with
  | (.error error, _) => .error (.rejected error) sink
  | (.ok _, unit) =>
    match unit.writeTo sink with
    | .ok () after => .ok () after
    | .error fault after => .error (.sink fault) after

end TeenyC
