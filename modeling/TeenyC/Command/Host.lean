import TeenyC.Source

/-!
# Hosts

What the command needs from the system it runs on.  The command is written for any
host, so that it can run on a real system and be reasoned about on a model of one.
-/

namespace TeenyC

/-- A system with files, standard streams and programs. -/
class Host (m : Type → Type) where
  /-- The data of a file. -/
  readFile : Path → m (Except IoError Bytes)
  /-- All of standard input. -/
  readInput : m (Except IoError Bytes)
  /-- The files at or below a path that a test on their paths selects. -/
  filesBelow : Path → (Path → Bool) → m (Except SourceError (List FoundFile))
  /-- Make a directory together with the missing ones above it. -/
  makeDirectories : Path → m (Except IoError Unit)
  /-- Write a file, in place of one that exists. -/
  writeFile : Path → String → m (Except IoError Unit)
  /-- Run a program with arguments and wait for its exit code. -/
  invoke : String → List String → m (Except IoError Nat)
  /-- Write a line to standard error. -/
  note : String → m Unit

end TeenyC
