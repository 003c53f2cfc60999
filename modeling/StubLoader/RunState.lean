import StubLoader.Failure
import StubLoader.Json.Decode
import StubLoader.Json.Printer
/-!
# Run states

A run moves through its states one by one, or fails from any of them:

    idle → workspaceAcquired → toolsResolved → invoked → resolved → postProcessed → completed

The last state and `failed` are entered only when the workspace is gone, so nothing follows them.
-/

namespace StubLoader

/-- How far a run has come. -/
inductive RunState where
  | idle
  /-- The scratch directory exists. -/
  | workspaceAcquired
  /-- Compiler and plugin are located. -/
  | toolsResolved
  /-- The compiler has exited successfully. -/
  | invoked
  /-- The place of the generated file is known. -/
  | resolved
  /-- The artifact is read and finished. -/
  | postProcessed
  /-- The scratch directory is gone and the artifact delivered. -/
  | completed
  /-- The scratch directory is gone and a failure reported. -/
  | failed
  deriving DecidableEq, Inhabited

namespace RunState

/-- All states, in the order of a run. -/
def all : List RunState :=
  [.idle, .workspaceAcquired, .toolsResolved, .invoked, .resolved, .postProcessed, .completed,
    .failed]

/-- The name as shown. -/
def name : RunState → String
  | .idle => "Idle"
  | .workspaceAcquired => "WorkspaceAcquired"
  | .toolsResolved => "ToolsResolved"
  | .invoked => "Invoked"
  | .resolved => "Resolved"
  | .postProcessed => "PostProcessed"
  | .completed => "Completed"
  | .failed => "Failed"

/-- The name in documents. -/
def key : RunState → String
  | .idle => "idle"
  | .workspaceAcquired => "workspace_acquired"
  | .toolsResolved => "tools_resolved"
  | .invoked => "invoked"
  | .resolved => "resolved"
  | .postProcessed => "post_processed"
  | .completed => "completed"
  | .failed => "failed"

/-- Whether the run is over. -/
def isTerminal : RunState → Bool
  | .completed | .failed => true
  | _ => false

/-- The state that success leads to. -/
def next? : RunState → Option RunState
  | .idle => some .workspaceAcquired
  | .workspaceAcquired => some .toolsResolved
  | .toolsResolved => some .invoked
  | .invoked => some .resolved
  | .resolved => some .postProcessed
  | .postProcessed => some .completed
  | .completed | .failed => none

/-- Whether a run may go from one state to the other. -/
def canBecome (a b : RunState) : Bool :=
  a.next? == some b || (b == .failed && !a.isTerminal)

/-- The text of a state in a document. -/
def print (s : RunState) : List Char := Json.printString s.key

/-- The state that a text holds. -/
def parse (text : String) : Outcome RunState :=
  let choices := all.map fun s => (s.key, s)
  (Json.readAll (Json.variant choices Json.maxDepth) text).mapError fun e =>
    .document (.malformed e)

end RunState

end StubLoader
