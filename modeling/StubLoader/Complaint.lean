import StubLoader.Failure
/-!
# Complaints

What a command says when it gives up: what it was doing, and why that failed. The failure behind
it, if there is one, decides the exit code.
-/

namespace StubLoader

/-- Why a command gave up. -/
structure Complaint where
  /-- What was being done, the outermost first. -/
  doing : List String
  /-- What went wrong, as far as the failure does not say it. -/
  reasons : List String
  failure : Option Failure
  deriving DecidableEq

namespace Complaint

/-- The sentences about a failure; for failed input and output the error speaks for itself once
more. -/
def sentences : Failure → List String
  | .io error => [(Failure.io error).message, error.text]
  | failure => [failure.message]

/-- The wording of a complaint. -/
def message (c : Complaint) : String :=
  ": ".intercalate (c.doing ++ (c.failure.map sentences).getD [] ++ c.reasons)

/-- The exit code of a command that gives up. -/
def exitCode (c : Complaint) : Nat := (c.failure.map Failure.code).getD 1

/-- The code of the failure behind the complaint. -/
def code? (c : Complaint) : Option Nat := c.failure.map Failure.code

/-- A complaint that says it all in one sentence. -/
def plain (reason : String) : Complaint := ⟨[], [reason], none⟩

/-- The complaint about a failure. -/
def ofFailure (failure : Failure) : Complaint := ⟨[], [], some failure⟩

/-- The complaint about failed input or output that belongs to no run. -/
def ofIo (error : IoError) : Complaint := plain error.text

/-- Says what was being done. -/
def whileDoing (what : String) (c : Complaint) : Complaint := { c with doing := what :: c.doing }

end Complaint

/-- What a step of a command answers. -/
abbrev Attempt (α : Type) := Except Complaint α

namespace Attempt

/-- A step that belongs to a run. -/
def ofOutcome {α : Type} (outcome : Outcome α) : Attempt α := outcome.mapError Complaint.ofFailure

/-- Says what was being done if the step fails. -/
def during {α : Type} (what : String) (step : Attempt α) : Attempt α :=
  step.mapError (Complaint.whileDoing what)

end Attempt

end StubLoader
