/-!
# Command options

How the arguments of the command are read.

* `-i`, `--input PATH`: the source file; standard input without it.
* `--input-dir DIR`: every program under a directory, instead of one file.
* `-o`, `--output PATH`: the output file, or directory with `--input-dir`.
* `--emit FORMAT`: the output format, `c` by default.
* `--cc COMPILER`: the C compiler that builds every output.
* `-v`, `--verbose`: progress notes.
* `-h`, `--help` and `-V`, `--version`.

Arguments are read from left to right.  An option whose value is the next argument
stays open, and is only taken into account when the next option comes or the
arguments end; the first fault that is met that way is reported.
-/

namespace TeenyC

/-- What the command is to do. -/
structure Options where
  input : Option String
  inputDirectory : Option String
  output : String
  format : String
  compiler : Option String
  verbose : Bool
  deriving DecidableEq

/-- Why the arguments give no options. -/
inductive UsageError where
  /-- No option has this name, or an argument belongs to no option. -/
  | unknownArgument
  /-- An option has no value. -/
  | missingValue
  /-- A switch has a value. -/
  | unexpectedValue
  /-- An option is given twice, or with one that excludes it. -/
  | conflict
  /-- The output is not given. -/
  | missingOutput
  /-- Help is asked for. -/
  | help
  /-- The version is asked for. -/
  | version
  deriving DecidableEq

/-- What the command says when it is used wrongly, or asked for help. -/
def usageText : String :=
  String.join
    ["Usage: teenyc [OPTIONS] --output <PATH>\n\n",
      "Options:\n",
      "  -i, --input <PATH>      source file (standard input when absent)\n",
      "      --input-dir <DIR>   every .teeny file under DIR; --output is a directory\n",
      "  -o, --output <PATH>     output file or directory\n",
      "      --emit <FORMAT>     output format: c, tokens [default: c]\n",
      "      --cc <COMPILER>     build every C file with this compiler\n",
      "  -v, --verbose           progress notes on standard error\n",
      "  -h, --help              this help\n",
      "  -V, --version           the version\n"]

/-- What is wrong with the arguments. -/
def UsageError.message : UsageError → String
  | unknownArgument => "unexpected argument"
  | missingValue => "a value is required for an option"
  | unexpectedValue => "an option takes no value"
  | conflict => "options cannot be used together or twice"
  | missingOutput => "the option --output is required"
  | help => "help"
  | version => "version"

/-- The options that take a value. -/
inductive Setting where
  | input
  | inputDirectory
  | output
  | format
  | compiler
  deriving DecidableEq

/-- The options without a value. -/
inductive Switch where
  | verbose
  | help
  | version
  deriving DecidableEq

/-- An option. -/
inductive OptionName where
  | setting (setting : Setting)
  | switch (switch : Switch)
  deriving DecidableEq

namespace OptionName

/-- The option with a long name. -/
def ofLong? : String → Option OptionName
  | "input" => some (setting .input)
  | "input-dir" => some (setting .inputDirectory)
  | "output" => some (setting .output)
  | "emit" => some (setting .format)
  | "cc" => some (setting .compiler)
  | "verbose" => some (switch .verbose)
  | "help" => some (switch .help)
  | "version" => some (switch .version)
  | _ => none

/-- The option with a letter. -/
def ofShort? : Char → Option OptionName
  | 'i' => some (setting .input)
  | 'o' => some (setting .output)
  | 'v' => some (switch .verbose)
  | 'h' => some (switch .help)
  | 'V' => some (switch .version)
  | _ => none

end OptionName

/-! ## Reading -/

/-- The arguments read so far. -/
structure Arguments where
  /-- The last setting, if its value stands apart, and that value if it has come. -/
  pending : Option (Setting × Option String) := none
  /-- The settings that are taken into account. -/
  values : List (Setting × String) := []
  verbose : Bool := false

namespace Arguments

/-- The value of a setting. -/
def value? (arguments : Arguments) (setting : Setting) : Option String :=
  (arguments.values.find? (·.1 == setting)).map (·.2)

/-- Take a setting into account. -/
def record (arguments : Arguments) (setting : Setting) (value : String) :
    Except UsageError Arguments :=
  if (arguments.value? setting).isSome then
    .error .conflict
  else
    .ok { arguments with values := (setting, value) :: arguments.values }

/-- Take the open setting into account. -/
def settle (arguments : Arguments) : Except UsageError Arguments :=
  match arguments.pending with
  | none => .ok arguments
  | some (_, none) => .error .missingValue
  | some (setting, some value) => { arguments with pending := none }.record setting value

/-- Read a setting with its value. -/
def assign (arguments : Arguments) (setting : Setting) (value : String) :
    Except UsageError Arguments := do
  (← arguments.settle).record setting value

/-- Read a setting whose value is to come. -/
def await (arguments : Arguments) (setting : Setting) : Except UsageError Arguments := do
  return { ← arguments.settle with pending := some (setting, none) }

/-- Read a switch. -/
def turnOn (arguments : Arguments) (switch : Switch) : Except UsageError Arguments := do
  let settled ← arguments.settle
  match switch with
  | .help => .error .help
  | .version => .error .version
  | .verbose =>
    if settled.verbose then .error .conflict else .ok { settled with verbose := true }

/-- Read an argument that starts with two dashes, given what follows them. -/
def readLong (arguments : Arguments) (text : List Char) : Except UsageError Arguments :=
  let name := String.ofList (text.takeWhile (· != '='))
  match OptionName.ofLong? name, text.dropWhile (· != '=') with
  | none, _ => .error .unknownArgument
  | some (.setting setting), [] => arguments.await setting
  | some (.setting setting), _ :: value => arguments.assign setting (String.ofList value)
  | some (.switch switch), [] => arguments.turnOn switch
  | some (.switch _), _ :: _ => .error .unexpectedValue

/-- Read an argument that starts with one dash, given what follows it: letters of
switches, and at the end perhaps the letter of a setting, with its value. -/
def readShort (arguments : Arguments) : List Char → Except UsageError Arguments
  | [] => .ok arguments
  | letter :: rest =>
    match OptionName.ofShort? letter with
    | none => .error .unknownArgument
    | some (.switch switch) => do readShort (← arguments.turnOn switch) rest
    | some (.setting setting) =>
      match rest with
      | [] => arguments.await setting
      | '=' :: value => arguments.assign setting (String.ofList value)
      | value => arguments.assign setting (String.ofList value)

/-- Read an argument that is no option. -/
def readValue (arguments : Arguments) (value : String) : Except UsageError Arguments :=
  match arguments.pending with
  | some (setting, none) => .ok { arguments with pending := some (setting, some value) }
  | _ => .error .unknownArgument

/-- Read all arguments.  After two dashes alone nothing may follow. -/
def readAll (arguments : Arguments) : List String → Except UsageError Arguments
  | [] => .ok arguments
  | argument :: rest =>
    match argument.toList with
    | ['-', '-'] => if rest.isEmpty then .ok arguments else .error .unknownArgument
    | '-' :: '-' :: text => do readAll (← arguments.readLong text) rest
    | '-' :: letter :: text => do readAll (← arguments.readShort (letter :: text)) rest
    | _ => do readAll (← arguments.readValue argument) rest

end Arguments

/-- The options that a list of arguments gives. -/
def Options.ofArguments (arguments : List String) : Except UsageError Options := do
  let read ← (← Arguments.readAll {} arguments).settle
  let input := read.value? .input
  let inputDirectory := read.value? .inputDirectory
  if input.isSome && inputDirectory.isSome then
    throw .conflict
  match read.value? .output with
  | none => throw .missingOutput
  | some output =>
    return {
      input
      inputDirectory
      output
      format := (read.value? .format).getD "c"
      compiler := read.value? .compiler
      verbose := read.verbose }

end TeenyC
