import StubLoader.Batch
/-!
# Worlds

A command reads and writes files, prints, looks up tools and runs requests. A world is whatever
does these things for it; all that the commands know of files and processes is behind it.
-/

namespace StubLoader

/-- Where and in which environment a command is given. -/
structure Surroundings where
  /-- The current directory. -/
  cwd : Path
  /-- The directory for temporary files. -/
  temp : Path
  /-- The directives for the log, if the environment has any. -/
  directives : Option String
  /-- Whether complaints keep their styles. -/
  styles : Bool

namespace Surroundings

/-- Whether the environment asks for styles where there is no terminal, given two of its variables:
one with any text forbids them, the other asks for them unless it is zero. -/
def wantsStyles (forbidden wanted : Option String) : Bool :=
  forbidden.getD "" = "" && wanted.getD "0" ≠ "0"

end Surroundings

/-- What does the work of commands in a monad. -/
structure World (m : Type → Type) where
  /-- Whether a path leads to a file. -/
  isFile : Path → m Bool
  /-- Reads a file. -/
  load : Path → m (Except IoError Bytes)
  /-- Makes a directory and those above it, as far as they are missing. -/
  makeDirectories : Path → m (Except IoError Unit)
  /-- Writes a file, in the place of what it held before. -/
  store : Path → Bytes → m (Except IoError Unit)
  /-- Looks up an executable. -/
  find : Path → m (Option Path)
  /-- Runs a request. -/
  run : Pipeline → Request → m (Outcome Bytes × List Notice)
  /-- Runs a batch; nothing comes of one that cannot begin. -/
  runAll : Pipeline → List Request → m (Option (List (Outcome Bytes) × List Entry))
  print : Bytes → m Unit
  printError : Bytes → m Unit

end StubLoader
