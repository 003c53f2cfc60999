import StubLoader.Event
/-!
# The compiler

How the compiler is called for one source, and what its exit means for the run.
-/

namespace StubLoader.Compiler

/-- What the compiler is told to write, up to the directory to write to. -/
def outputFlag : Mode → String
  | .message => "--js_out=import_style=commonjs,binary:"
  | .service => "--js_service_out="

/-- The arguments for one source. -/
def arguments (pluginName : String) (plugin source base workspace : Path) (mode : Mode) :
    List Bytes :=
  [Utf8.ofString ("--plugin=" ++ pluginName ++ "=") ++ plugin.bytes,
    Utf8.ofString "--proto_path=" ++ base.bytes,
    Utf8.ofString (outputFlag mode) ++ workspace.bytes,
    source.bytes]

/-- What a successful compiler said. -/
structure Remarks where
  stdout : String
  stderr : String
  deriving DecidableEq

/-- Takes an output apart: what was said on success, the failure otherwise. -/
def judge (output : ProcessOutput) : Outcome Remarks :=
  let stderr := Utf8.toStringLossy output.stderr
  if output.success then .ok ⟨Utf8.toStringLossy output.stdout, stderr⟩
  else .error (.compile output.status stderr)

/-- The warning about a source, if anything was said on the error stream. -/
def Remarks.warning? (r : Remarks) (source : Path) : Option Warning :=
  if r.stderr.isEmpty then none else some ⟨source, r.stderr⟩

end StubLoader.Compiler
