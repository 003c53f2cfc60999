import StubLoader.Options
/-!
# Requests

One artifact to generate for one schema file. The source path is absolute and the options pass
their check; both are established when a request is made.
-/

namespace StubLoader

/-- A request for one artifact. -/
structure Request where
  source : Path
  options : Options
  deriving DecidableEq

namespace Request

/-- The request for a source, which must be absolute, under checked options. -/
def make (source : Path) (options : Options) : Outcome Request :=
  if !source.isAbsolute then .error (.options (.relativeSource source))
  else match options.validate with
    | .error fault => .error (.options fault)
    | .ok () => .ok ⟨source, options⟩

/-- What the request asks for. -/
def mode (r : Request) : Mode := r.options.mode

/-- The request for the message codec of the same file. -/
def companion (r : Request) : Request := { r with options := r.options.withMode .message }

/-- The request as shown. -/
def display (r : Request) : String := r.source.display ++ " (" ++ r.mode.name ++ ")"

end Request

end StubLoader
