import StubLoader.Complaint
import StubLoader.Event
import StubLoader.Output
/-!
# Deliveries

What becomes of the results of a batch. An artifact goes to a file below the output directory, at
the path of its source below the base path; a failure is told. A tally sums the batch up, and the
first failure decides how the command ends.
-/

namespace StubLoader

/-- What is to be done about one result of a batch. -/
inductive Delivery where
  /-- To write an artifact. -/
  | write (source target : Path) (bytes : Bytes)
  /-- To say why there is none. -/
  | tell (source : Path) (failure : Failure)
  deriving DecidableEq

namespace Delivery

/-- What is to be done about the result of a request. -/
def make (base outDir : Path) (request : Request) : Outcome Bytes → Outcome Delivery
  | .error failure => .ok (.tell request.source failure)
  | .ok bytes =>
    match Output.resolve base request.source request.mode with
    | .error fault => .error (.options fault)
    | .ok relative => .ok (.write request.source (Output.locate outDir relative) bytes)

/-- The line about a delivery. -/
def line : Delivery → String
  | .write source target _ => "✓ " ++ source.display ++ " → " ++ target.display
  | .tell source failure => "✗ " ++ source.display ++ ": " ++ failure.message

end Delivery

/-- A batch summed up. -/
structure Tally where
  /-- The number of requests. -/
  total : Nat
  /-- The failures in the order of the requests. -/
  failures : List Failure
  /-- The number of warnings. -/
  warnings : Nat
  deriving DecidableEq

namespace Tally

/-- The failure that a result is, if it is one. -/
def failure? : Outcome Bytes → Option Failure
  | .ok _ => none
  | .error failure => some failure

/-- Sums up results. -/
def ofResults (results : List (Outcome Bytes)) (warnings : List Warning) : Tally :=
  ⟨results.length, results.filterMap failure?, warnings.length⟩

/-- The number of failures. -/
def failed (t : Tally) : Nat := t.failures.length

/-- The number of artifacts. -/
def generated (t : Tally) : Nat := t.total - t.failed

/-- The line that sums up. -/
def line (t : Tally) : String :=
  toString t.generated ++ " generated, " ++ toString t.failed ++ " failed, "
    ++ toString t.warnings ++ " warnings"

/-- How the command ends. -/
def verdict (t : Tally) : Attempt Unit :=
  match t.failures with
  | [] => .ok ()
  | first :: _ =>
    (Attempt.ofOutcome (.error first)).during <|
      toString t.failed ++ " of " ++ toString t.total ++ " runs failed"

end Tally

end StubLoader
