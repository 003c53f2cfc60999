import StubLoader.Failure
/-!
# Hosts

A run reaches files, processes and the search path only by calls to its host. A host is whatever
answers them: the machine itself, a script, or the worst that can be thought of. An answer may
come at once, may be outstanding, or may never come because answering it crashed.
-/

namespace StubLoader

/-- What a finished process left behind. -/
structure ProcessOutput where
  /-- The exit code, unless a signal ended the process. -/
  status : Option Int
  /-- Whether the process counts as successful. -/
  success : Bool
  stdout : Bytes
  stderr : Bytes
  deriving DecidableEq

/-- What a run may ask of its host. -/
inductive Call where
  /-- To make a directory of its own below `root`, its name beginning with `label`. -/
  | createWorkspace (root : Path) (label : String)
  /-- To look up an executable by name or path. -/
  | findExecutable (name : Path)
  /-- To run a program to its end. -/
  | runProcess (program : Path) (args : List Bytes)
  /-- To read a whole file. -/
  | loadFile (path : Path)
  /-- To remove a directory with all that is in it. -/
  | removeWorkspace (path : Path)
  deriving DecidableEq

/-- What is answered to a call. -/
abbrev Call.Answer : Call → Type
  | .createWorkspace .. => Except IoError Path
  | .findExecutable _ => Option Path
  | .runProcess .. => Except IoError ProcessOutput
  | .loadFile _ => Except IoError Bytes
  | .removeWorkspace _ => Except IoError Unit

/-- What a host says when it is asked about a call. -/
inductive Reply (α : Type) where
  /-- The answer. -/
  | now (answer : α)
  /-- That the answer is outstanding. -/
  | pending
  /-- Nothing, ever: answering crashed. -/
  | crash

/-- The reply with its answer changed. -/
def Reply.map {α β : Type} (f : α → β) : Reply α → Reply β
  | .now answer => .now (f answer)
  | .pending => .pending
  | .crash => .crash

/-- The answer, if there is one. -/
def Reply.answer? {α : Type} : Reply α → Option α
  | .now answer => some answer
  | .pending | .crash => none

/-- What answers the calls of runs; `σ` is all that it remembers. -/
structure Host (σ : Type) where
  /-- Takes a new call. -/
  start : (c : Call) → σ → Reply c.Answer × σ
  /-- Asks again about a call whose answer was outstanding. -/
  await : (c : Call) → σ → Reply c.Answer × σ
  /-- Removes the directory of a run that was given up, without waiting. -/
  discard : Path → σ → Except IoError Unit × σ

namespace Host

/-- A host that answers at once and never crashes. -/
def ofAnswers {σ : Type} (answer : (c : Call) → σ → c.Answer × σ)
    (discard : Path → σ → Except IoError Unit × σ) : Host σ where
  start c s := ((answer c s).map .now id)
  await c s := ((answer c s).map .now id)
  discard

end Host

end StubLoader
