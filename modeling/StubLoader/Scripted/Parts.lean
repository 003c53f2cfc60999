import StubLoader.Scripted.Host
/-!
# Parts of a run on a scripted host

The steps of a run that need a host, one at a time.
-/

namespace StubLoader.Scripted

/-- Looks up one tool. -/
def locateTool (name : Path) (s : Scripted) : Outcome Path × Scripted :=
  match host.start (.findExecutable name) s with
  | (.now (some path), s) => (.ok path, s)
  | (_, s) => (.error (.toolNotFound name.display), s)

/-- Looks up the compiler, then the plugin. -/
def locateTools (settings : Settings) (s : Scripted) : Outcome (Path × Path) × Scripted :=
  match s.locateTool settings.compiler with
  | (.error e, s) => (.error e, s)
  | (.ok compiler, s) =>
    (s.locateTool settings.plugin).map (·.map fun plugin => (compiler, plugin)) id

/-- Runs a compiler with the given arguments, if it can be started and ends. -/
def compile (compiler : Path) (args : List Bytes) (s : Scripted) :
    Reply (Outcome Compiler.Remarks) × Scripted :=
  (host.start (.runProcess compiler args) s).map (Reply.map fun
    | .ok output => Compiler.judge output
    | .error e => .error (.io e)) id

/-- Reads a generated file and finishes it. -/
def finish (entryPoint : String) (request : Request) (artifact : Path) (modulePath : String)
    (s : Scripted) : Reply (Outcome Bytes) × Scripted :=
  (host.start (.loadFile artifact) s).map (Reply.map fun
    | .ok bytes => Artifact.finish entryPoint request modulePath bytes
    | .error e => .error (.io e)) id

end StubLoader.Scripted
