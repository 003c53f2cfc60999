import StubLoader.Command.Session
import StubLoader.Machine
/-!
# The program

Commands in the files of the system. Runs of a batch go one after another, which is one of the
orders that a batch may take. The system is asked for files and directories only: a program that a
run wants to start is answered with a failure.
-/

namespace StubLoader.Program

/-- The failure that the system reports. -/
def failure : IO.Error → IoError
  | .noFileOrDirectory _ number text => .ofSystem .notFound text number.toNat
  | .permissionDenied _ number text => .ofSystem .permissionDenied text number.toNat
  | .alreadyExists _ number text => .ofSystem .alreadyExists text number.toNat
  | .inappropriateType _ number text => .ofSystem .notADirectory text number.toNat
  | .invalidArgument _ number text => .ofSystem .invalidInput text number.toNat
  | error => ⟨.other, toString error⟩

/-- The failure to start a program. -/
def noPrograms : IoError := ⟨.other, "programs cannot be started"⟩

/-- Does something, answering with the failure if there is one. -/
def attempt {α : Type} (action : IO α) : IO (Except IoError α) :=
  try return .ok (← action) catch error => return .error (failure error)

/-- Reads a file. -/
def load (path : Path) : IO (Except IoError Bytes) :=
  attempt do return (← IO.FS.readBinFile path.display).toList

/-- Makes a directory with a name of its own. -/
def createWorkspace (cwd root : Path) (label : String) : IO (Except IoError Path) := do
  let tag := Machine.tag ((← IO.monoNanosNow) % 1000000)
  let path := (cwd.join root).join (.ofString (label ++ tag))
  attempt do
    IO.FS.createDirAll root.display
    IO.FS.createDir path.display
    return path

/-- The first of some paths at which there is a file. -/
def firstFile : List Path → IO (Option Path)
  | [] => return none
  | path :: paths => do
    if (← load path).isOk then return some path
    firstFile paths

/-- Looks up an executable: a path of several steps as it is, a name in the search path. -/
def find (cwd name : Path) : IO (Option Path) := do
  if 1 < name.components.length then firstFile [cwd.join name]
  else
    let home := (← IO.getEnv "HOME").map Path.ofString
    let directories := (((← IO.getEnv "PATH").getD "").splitOn ":").map Path.ofString
    firstFile (directories.map fun directory => (directory.fromHome home).join name)

/-- Answers a call. -/
def answer (cwd : Path) : (call : Call) → IO call.Answer
  | .createWorkspace root label => createWorkspace cwd root label
  | .findExecutable name => find cwd name
  | .runProcess _ _ => return .error noPrograms
  | .loadFile path => load path
  | .removeWorkspace path => attempt (IO.FS.removeDirAll path.display)

/-- Goes on with a run, at most `fuel` calls. -/
def drive (p : Pipeline) : (fuel : Nat) → Run → IO (Outcome Bytes × List Notice)
  | 0, _ => return (.error (.task .unfinished), [])
  | fuel + 1, run =>
    match run.next p with
    | .ended result => return (result, [])
    | .asks call resume => do
      let (run, notices) := resume (← answer p.cwd call)
      let (result, later) ← drive p fuel run
      return (result, notices ++ later)

/-- Runs a request. -/
def run (p : Pipeline) (request : Request) : IO (Outcome Bytes × List Notice) := do
  let start := Run.initial request
  let (result, notices) ← drive p (start.stage.remaining + 1) start
  return (result, .event .started :: notices)

/-- Runs the requests of a batch. -/
def runAll (p : Pipeline) (requests : List Request) :
    IO (Option (List (Outcome Bytes) × List Entry)) := do
  if Batch.maxPermits < Batch.permits p then return none
  let done ← requests.mapM fun request => return (request, ← run p request)
  return some (done.map (·.2.1), done.flatMap fun (request, _, notices) =>
    Batch.entries request notices)

/-- The system as a world. -/
def world : World IO where
  isFile path := return (← load path).isOk
  load := load
  makeDirectories path := attempt (IO.FS.createDirAll path.display)
  store path bytes := attempt (IO.FS.writeBinFile path.display bytes.toByteArray)
  find name := do find (.ofString (toString (← IO.currentDir))) name
  run := run
  runAll := runAll
  print bytes := do (← IO.getStdout).write bytes.toByteArray
  printError bytes := do (← IO.getStderr).write bytes.toByteArray

/-- Where the program was started. -/
def surroundings : IO Surroundings := do
  return {
    cwd := .ofString (toString (← IO.currentDir))
    temp := .ofString ((← IO.getEnv "TMPDIR").getD "/tmp")
    directives := ← IO.getEnv "RUST_LOG"
    styles := Surroundings.wantsStyles (← IO.getEnv "NO_COLOR") (← IO.getEnv "CLICOLOR_FORCE") }

end StubLoader.Program

/-- Does what the arguments ask for. -/
def main (args : List String) : IO UInt32 := do
  let place ← StubLoader.Program.surroundings
  let code ← StubLoader.CommandLine.execute StubLoader.Program.world place
    (args.map StubLoader.Utf8.ofString)
  return UInt32.ofNat code
