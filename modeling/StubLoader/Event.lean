import StubLoader.Host
import StubLoader.LogLevel
import StubLoader.Request
import StubLoader.RunState
/-!
# Events

What a run reports while it is under way: events for the log, and warnings of the compiler, which
go to a sink of the caller's choice.
-/

namespace StubLoader

/-- What the compiler said about a source although it succeeded. -/
structure Warning where
  source : Path
  message : String
  deriving DecidableEq

/-- The message without the blanks at its end. -/
def Warning.text (w : Warning) : String := Text.stripEnd w.message

/-- The warning as shown. -/
def Warning.display (w : Warning) : String := w.source.display ++ ": " ++ w.text

/-- Something that happened, for the log. -/
inductive Event where
  | started
  | stateChanged (old new : RunState)
  | workspaceAcquired (workspace : Path)
  | toolLocated (tool path : Path)
  | invoking (compiler : Path) (args : List Bytes)
  | warned (warning : Warning)
  | workspaceReleased (workspace : Path)
  | workspaceAbandoned (workspace : Path)
  | abandonedWorkspaceKept (workspace : Path) (error : IoError)
  | workspaceKept (error : IoError)
  | finished (size : Nat)
  | taskUnfinished
  /-- A level was asked for although directives decide. -/
  | levelIgnored (level : LogLevel)
  deriving DecidableEq

namespace Event

/-- The level at which an event is logged. -/
def level : Event → LogLevel
  | .started | .finished _ => .info
  | .warned _ | .abandonedWorkspaceKept .. | .workspaceKept _ | .taskUnfinished => .warn
  | .stateChanged .. | .workspaceAcquired _ | .toolLocated .. | .invoking .. | .workspaceReleased _
  | .workspaceAbandoned _ | .levelIgnored _ => .debug

/-- What logs the event, by the name that directives take. -/
def target : Event → String
  | .started | .stateChanged .. | .finished _ | .workspaceKept _ | .taskUnfinished =>
    "grpcweb_loader_pipeline::pipeline"
  | .workspaceAcquired _ | .workspaceReleased _ | .workspaceAbandoned _
  | .abandonedWorkspaceKept .. => "grpcweb_loader_pipeline::workspace"
  | .toolLocated .. => "grpcweb_loader_pipeline::tools"
  | .invoking .. => "grpcweb_loader_pipeline::invoker"
  | .warned _ => "grpcweb_loader_pipeline::diagnostics"
  | .levelIgnored _ => "grpcweb_loader_logging::reload"

/-- What happened, in words. -/
def message : Event → String
  | .started => "generation started"
  | .stateChanged .. => "run state"
  | .workspaceAcquired _ => "workspace acquired"
  | .toolLocated .. => "tool located"
  | .invoking .. => "invoking compiler"
  | .warned warning => "compiler warning: " ++ warning.text
  | .workspaceReleased _ => "workspace released"
  | .workspaceAbandoned _ => "abandoned workspace removed"
  | .abandonedWorkspaceKept .. => "failed to remove abandoned workspace"
  | .workspaceKept _ => "failed to remove workspace"
  | .finished _ => "generation finished"
  | .taskUnfinished => "generation task did not finish"
  | .levelIgnored _ => "RUST_LOG is set, ignoring configured level"

/-- Arguments as a log shows them. -/
def showArgs (args : List Bytes) : String :=
  "[" ++ ", ".intercalate (args.map Text.quoteBytes) ++ "]"

/-- The particulars, each with its name. -/
def fields : Event → List (String × String)
  | .started | .taskUnfinished => []
  | .stateChanged old new => [("from", old.name), ("to", new.name)]
  | .workspaceAcquired w | .workspaceReleased w | .workspaceAbandoned w =>
    [("workspace", w.display)]
  | .toolLocated tool path => [("tool", tool.display), ("path", path.display)]
  | .invoking compiler args => [("compiler", compiler.display), ("args", showArgs args)]
  | .warned warning => [("source", warning.source.display)]
  | .abandonedWorkspaceKept w error => [("workspace", w.display), ("error", error.text)]
  | .workspaceKept error => [("error", (Failure.io error).message)]
  | .finished size => [("bytes", toString size)]
  | .levelIgnored level => [("level", level.display)]

end Event

/-- What a run reports. -/
inductive Notice where
  | event (event : Event)
  | warning (warning : Warning)
  deriving DecidableEq

namespace Notice

/-- The event that a notice is in a log that takes the warnings too. -/
def toEvent : Notice → Event
  | .event e => e
  | .warning w => .warned w

/-- The event in a notice, if it is no warning. -/
def event? : Notice → Option Event
  | .event e => some e
  | .warning _ => none

/-- The warning in a notice, if it is one. -/
def warning? : Notice → Option Warning
  | .event _ => none
  | .warning w => some w

end Notice

end StubLoader
