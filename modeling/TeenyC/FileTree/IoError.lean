/-!
# Errors of the operating system

The reasons for which reading and writing files fails, and their messages.
-/

namespace TeenyC

/-- Why an operation on files fails. -/
inductive IoError where
  | notFound
  | permissionDenied
  | alreadyExists
  | notADirectory
  | isADirectory
  | nameTooLong
  | tooManyLinks
  /-- The bytes of a text are no UTF-8. -/
  | invalidText
  /-- A path holds the character NUL. -/
  | nulInPath
  /-- A command holds the character NUL. -/
  | nulInCommand
  | other (message : String)
  deriving DecidableEq

/-- The message of an error. -/
def IoError.message : IoError → String
  | notFound => "No such file or directory (os error 2)"
  | permissionDenied => "Permission denied (os error 13)"
  | alreadyExists => "File exists (os error 17)"
  | notADirectory => "Not a directory (os error 20)"
  | isADirectory => "Is a directory (os error 21)"
  | nameTooLong => "File name too long (os error 36)"
  | tooManyLinks => "Too many levels of symbolic links (os error 40)"
  | invalidText => "stream did not contain valid UTF-8"
  | nulInPath => "file name contained an unexpected NUL byte"
  | nulInCommand => "nul byte found in provided data"
  | other message => message

end TeenyC
