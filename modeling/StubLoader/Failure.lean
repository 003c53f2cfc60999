import StubLoader.Json.Fault
import StubLoader.Mode
import StubLoader.Path.Basic
/-!
# Failures

Every way a run or a command can fail, as a cause. The wording of each is in one place, and so is
its exit code.
-/

namespace StubLoader

/-! ### Input and output -/

/-- Kinds of failed input and output. -/
inductive IoKind where
  | notFound
  | permissionDenied
  | alreadyExists
  | notADirectory
  | isADirectory
  | invalidInput
  | invalidData
  | invalidFilename
  | storageFull
  | unexpectedEof
  | other
  /-- Named by the system alone. -/
  | uncategorized
  deriving DecidableEq

/-- The wording of a kind on its own. -/
def IoKind.text : IoKind → String
  | .notFound => "entity not found"
  | .permissionDenied => "permission denied"
  | .alreadyExists => "entity already exists"
  | .notADirectory => "not a directory"
  | .isADirectory => "is a directory"
  | .invalidInput => "invalid input parameter"
  | .invalidData => "invalid data"
  | .invalidFilename => "invalid filename"
  | .storageFull => "no storage space"
  | .unexpectedEof => "unexpected end of file"
  | .other => "other error"
  | .uncategorized => "uncategorized error"

/-- A failed input or output. -/
structure IoError where
  kind : IoKind
  text : String
  deriving DecidableEq

/-- The failure of placing the empty path. -/
def IoError.emptyPath : IoError := ⟨.invalidInput, "cannot make an empty path absolute"⟩

/-- The failure of reading bytes as a text. -/
def IoError.notText (fault : Utf8.Fault) : IoError := ⟨.invalidData, fault.message⟩

/-! ### Causes -/

/-- What is wrong with options or a request. -/
inductive OptionsFault where
  | unknownMode (given : String)
  | unknownLevel (given : String)
  | noBasePath
  | relativeSource (source : Path)
  | outsideBase (source base : Path)
  | namesBase (source : Path)
  | stated (text : String)
  deriving DecidableEq

/-- The wording of a fault of options. -/
def OptionsFault.text : OptionsFault → String
  | .unknownMode given =>
    "unknown generation mode: " ++ given ++ " (expected message or service)"
  | .unknownLevel given => "unknown log level: " ++ given
  | .noBasePath => "basePath is required"
  | .relativeSource source => "source path must be absolute: " ++ source.display
  | .outsideBase source base => source.display ++ " is not under base path " ++ base.display
  | .namesBase source => "source path " ++ source.display ++ " names the base directory itself"
  | .stated text => text

/-- The wording of a failure over options. -/
def OptionsFault.message (f : OptionsFault) : String := "invalid options: " ++ f.text

/-- What is wrong with a reference. -/
inductive ReferenceFault where
  | malformed (error : Json.Error)
  | noEntryPoint
  | wrongMode (mode : Mode)
  | badOptions (fault : OptionsFault)
  | otherEntryPoint (given own : String)
  | stated (text : String)
  deriving DecidableEq

/-- The wording of a fault of a reference. -/
def ReferenceFault.text : ReferenceFault → String
  | .malformed error => error.message
  | .noEntryPoint => "entry point name is empty"
  | .wrongMode mode => "companion references must request Message mode, got " ++ mode.name
  | .badOptions fault => fault.message
  | .otherEntryPoint given own =>
    "reference targets entry point " ++ Text.quote given ++ ", this pipeline is "
      ++ Text.quote own
  | .stated text => text

/-- Why a value could not be written as or read from a document. -/
inductive DocumentFault where
  | malformed (error : Json.Error)
  | pathNotText
  | stated (text : String)
  deriving DecidableEq

/-- The wording of a fault of a document. -/
def DocumentFault.text : DocumentFault → String
  | .malformed error => error.message
  | .pathNotText => "path contains invalid UTF-8 characters"
  | .stated text => text

/-- What went wrong around a run. -/
inductive TaskFault where
  | unfinished
  | stated (text : String)
  deriving DecidableEq

/-- The wording of what went wrong around a run. -/
def TaskFault.text : TaskFault → String
  | .unfinished => "generation task did not finish"
  | .stated text => text

/-! ### Failures -/

/-- Why a run or a command failed. -/
inductive Failure where
  /-- An executable is not on the search path. -/
  | toolNotFound (tool : String)
  /-- The compiler exited with a status other than zero, or was killed. -/
  | compile (status : Option Int) (stderr : String)
  /-- Input or output failed. -/
  | io (error : IoError)
  /-- The import of the sibling module does not stand exactly once in the stub. -/
  | stubImport (literal : String) (found : Nat)
  /-- The options or the request are malformed. -/
  | options (fault : OptionsFault)
  /-- A reference cannot be followed. -/
  | reference (fault : ReferenceFault)
  /-- A document cannot be read or written. -/
  | document (fault : DocumentFault)
  /-- The states of a run were left out of order. -/
  | state (expected actual : String)
  /-- The run was not finished. -/
  | task (fault : TaskFault)
  /-- The run was stopped before it had a result. -/
  | cancelled
  deriving DecidableEq

namespace Failure

/-- Shows how the compiler ended. -/
def describeStatus : Option Int → String
  | some code => s!"exit code {code}"
  | none => "terminated by signal"

/-- The wording of a failure. -/
def message : Failure → String
  | .toolNotFound tool => "required tool not found: " ++ tool
  | .compile status stderr => "compilation failed (" ++ describeStatus status ++ "): " ++ stderr
  | .io error => "I/O error: " ++ error.text
  | .stubImport literal found =>
    "expected exactly one occurrence of " ++ literal ++ " in generated service stub, found "
      ++ toString found
  | .options fault => fault.message
  | .reference fault => "invalid dependency reference: " ++ fault.text
  | .document fault => "serialization error: " ++ fault.text
  | .state expected actual =>
    "invalid run state: expected " ++ expected ++ ", got " ++ actual
  | .task fault => "runtime error: " ++ fault.text
  | .cancelled => "run cancelled"

/-- The exit code of a command that ended with the failure. -/
def code : Failure → Nat
  | .toolNotFound _ => 1
  | .compile .. => 2
  | .io _ => 3
  | .stubImport .. => 4
  | .options _ => 5
  | .reference _ => 6
  | .document _ => 7
  | .state .. => 8
  | .task _ => 9
  | .cancelled => 10

end Failure

/-- What a step of a run answers. -/
abbrev Outcome (α : Type) := Except Failure α

end StubLoader
