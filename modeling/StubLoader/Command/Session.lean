import StubLoader.Command.Delivery
import StubLoader.Command.Line
import StubLoader.LogFilter
import StubLoader.Project
import StubLoader.Sink
import StubLoader.World
/-!
# Commands

What each command does in a world, from the arguments to the exit code. Artifacts and reports are
printed, the log and complaints go to the error stream.
-/

namespace StubLoader

/-- A command under way: where it works, what its project states, and what it logs. -/
structure Session (m : Type → Type) where
  world : World m
  place : Surroundings
  project : Project
  filter : LogFilter

/-- Why a command does not come to its end. -/
inductive Session.Halt where
  /-- It gives up. -/
  | complaint (complaint : Complaint)
  /-- It crashes. -/
  | crash (message : String)
  deriving DecidableEq

/-- A step of a command. -/
abbrev Session.Step (m : Type → Type) := ExceptT Session.Halt m

/-- An attempt as a step. -/
def Session.lift {m : Type → Type} [Monad m] {α : Type} (a : Attempt α) : Session.Step m α :=
  ExceptT.mk (pure (a.mapError .complaint))

namespace World

variable {m : Type → Type} [Monad m]

/-- Prints a line. -/
def say (w : World m) (line : String) : m Unit := w.print (Utf8.ofString (line ++ "\n"))

/-- Prints a line on the error stream. -/
def warn (w : World m) (line : String) : m Unit := w.printError (Utf8.ofString (line ++ "\n"))

/-- Logs an event from the run of a request or from outside of all runs. -/
def log (w : World m) (f : LogFilter) (request : Option Request) (e : Event) : m Unit :=
  match f.line? request e with
  | some line => w.warn line
  | none => pure ()

/-- Does something with files, saying what it was for if it fails. -/
def attempt {α : Type} (what : String) (step : m (Except IoError α)) : Session.Step m α :=
  ExceptT.mk do
    return (Attempt.during what ((← step).mapError Complaint.ofIo)).mapError .complaint

/-! ### Project files -/

/-- The failure of a file that is no text. -/
def notText : IoError := ⟨.invalidData, "stream did not contain valid UTF-8"⟩

/-- Reads a text file. -/
def loadText (w : World m) (path : Path) : m (Except IoError String) := do
  return (← w.load path) >>= fun bytes => (Utf8.toString? bytes).mapError fun _ => notText

/-- The project that a file states. -/
def projectAt (w : World m) (path : Path) : Session.Step m Project := do
  let text ← attempt ("Failed to read config: " ++ Text.quoteBytes path.bytes) (w.loadText path)
  Session.lift (Project.parse text)

/-- The path of the project file that is used unless another is given. -/
def standardPath : Path := .ofString Project.fileName

/-- The project of a command: what the given file states, or the one in the current directory, or
nothing. -/
def project (w : World m) (given : Option Path) : Session.Step m Project := do
  match given with
  | some path => w.projectAt path
  | none =>
    if ← w.isFile standardPath then w.projectAt standardPath
    else return {}

end World

namespace Session

variable {m : Type → Type} [Monad m]

/-- What decides the log: directives of the environment, the level on the command line, the level
of the project. -/
def chooseFilter (w : World m) (place : Surroundings) (project : Project)
    (level : Option LogLevel) : Step m LogFilter := do
  match place.directives.bind LogFilter.ofDirectives?, level with
  | some filter, some _ => return filter
  | some filter, none =>
    w.log filter none (.levelIgnored (← lift project.level))
    return filter
  | none, some level => return .upTo level
  | none, none => return .upTo (← lift project.level)

/-- The session of a command line. -/
def start (w : World m) (place : Surroundings) (line : CommandLine) : Step m (Session m) := do
  let project ← w.project line.config
  return ⟨w, place, project, ← chooseFilter w place project line.logLevel⟩

/-- The pipeline of the project. -/
def pipeline (s : Session m) : Pipeline := ⟨s.project.settings, s.place.cwd, s.place.temp⟩

/-- The request for a source, seen from the current directory. -/
def request (s : Session m) (options : Options) (source : Path) : Attempt Request :=
  match Path.absolutize? s.place.cwd source with
  | none => .error <|
      (Complaint.ofIo .emptyPath).whileDoing ("Failed to resolve source path: " ++ source.display)
  | some source => .ofOutcome (Request.make source options)

/-- Writes an artifact to a file, whose directory is made if it is missing. -/
def store (s : Session m) (path : Path) (artifact : Bytes) : Step m Unit := do
  match path.parent?.filter fun parent => !parent.isEmpty with
  | some parent =>
    World.attempt ("Failed to create directory: " ++ parent.display)
      (s.world.makeDirectories parent)
  | none => pure ()
  World.attempt ("Failed to write artifact: " ++ path.display) (s.world.store path artifact)

/-- Writes an artifact to a file or prints it. -/
def deliver (s : Session m) (path : Option Path) (artifact : Bytes) : Step m Unit :=
  match path with
  | some path => s.store path artifact
  | none => s.world.print artifact

/-- Runs a request, logging what it reports. -/
def run (s : Session m) (request : Request) : Step m Bytes := do
  let (outcome, notices) ← s.world.run s.pipeline request
  for notice in notices do s.world.log s.filter (some request) notice.toEvent
  lift (.ofOutcome outcome)

/-! ### The commands -/

/-- Generates one artifact. -/
def generate (s : Session m) (source : Path) (basePath : Option Path) (mode : Option Mode)
    (output : Option Path) : Step m Unit := do
  let request ← lift (s.request (← lift (s.project.optionsWith basePath mode)) source)
  s.deliver output (← s.run request)
  match output with
  | some path => s.world.warn ("✓ " ++ request.display ++ " → " ++ path.display)
  | none => pure ()

/-- Does what is to be done about a result. -/
def settle (s : Session m) (base outDir : Path) (request : Request) (result : Outcome Bytes) :
    Step m Unit := do
  let delivery ← lift (.ofOutcome (Delivery.make base outDir request result))
  match delivery with
  | .write _ target bytes => s.store target bytes
  | .tell .. => pure ()
  s.world.say delivery.line

/-- The last words of a batch that would need more permits than there can be. -/
def tooManyPermits : String :=
  "a semaphore may not have more than MAX_PERMITS permits (" ++ toString Batch.maxPermits ++ ")"

/-- Generates many artifacts. -/
def batch (s : Session m) (sources : List Path) (basePath : Option Path) (mode : Option Mode)
    (outDir : Path) : Step m Unit := do
  let options ← lift (s.project.optionsWith basePath mode)
  let base ← lift (.ofOutcome (options.resolvedBasePath s.place.cwd))
  let requests ← lift (sources.mapM (s.request options))
  let some (results, entries) ← s.world.runAll s.pipeline requests
    | throw (.crash tooManyPermits)
  for entry in entries do
    match entry.notice.event? with
    | some e => s.world.log s.filter entry.request e
    | none => pure ()
  for (request, result) in requests.zip results do s.settle base outDir request result
  let warnings := Batch.warnings entries
  for warning in warnings do s.world.warn ("⚠ " ++ warning.display)
  let tally := Tally.ofResults results warnings
  s.world.say ("\n" ++ tally.line)
  lift tally.verdict

/-- Generates the artifact that a reference names. -/
def resolve (s : Session m) (reference : String) (output : Option Path) : Step m Unit := do
  let request ← lift (.ofOutcome (s.pipeline.follow reference))
  s.deliver output (← s.run request)

/-- Looks up a tool. -/
def locate (s : Session m) (name : Path) : Step m Path := do
  match ← s.world.find name with
  | some path =>
    s.world.log s.filter none (.toolLocated name path)
    return path
  | none => lift (.ofOutcome (.error (.toolNotFound name.display)))

/-- Checks the project and looks up the tools. -/
def check (s : Session m) (config : Option Path) : Step m Unit := do
  match config with
  | some path => s.world.say ("Checking config: " ++ path.display)
  | none =>
    if ← s.world.isFile World.standardPath then
      s.world.say ("Checking config: " ++ Project.fileName)
    else s.world.say ("Checking built-in defaults (no " ++ Project.fileName ++ ")")
  lift s.project.validate
  match s.project.options with
  | some options =>
    s.world.say <|
      "✓ Options: basePath=" ++ options.basePath.display ++ ", mode=" ++ options.mode.name
  | none => s.world.say "✓ Options: none (pass --base-path)"
  s.world.say ("✓ Log level: " ++ (← lift s.project.level).display)
  let settings := s.project.settings
  let compiler ← s.locate settings.compiler
  let plugin ← s.locate settings.plugin
  s.world.say ("✓ Compiler: " ++ compiler.display)
  s.world.say ("✓ Plugin: " ++ plugin.display)
  s.world.say <|
    "✓ Workspaces: " ++ (settings.scratchRoot s.place.temp).display ++ "/"
      ++ settings.workspaceLabel ++ "*"
  s.world.say "\nConfiguration is valid!"

/-- Does what the command line asks for. -/
def perform (s : Session m) (line : CommandLine) : Step m Unit :=
  match line.command with
  | .generate source basePath mode output => s.generate source basePath mode output
  | .batch sources basePath mode outDir => s.batch sources basePath mode outDir
  | .resolve reference output => s.resolve reference output
  | .check => s.check line.config

end Session

namespace CommandLine

variable {m : Type → Type} [Monad m]

/-- Ends a command line that leads to no command, with its exit code. -/
def refuse (w : World m) (place : Surroundings) : Stop → m Nat
  | .complaint text => do
    w.warn (complaintLine place.styles text)
    return 2
  | .nothing => do
    w.warn purpose
    return 2
  | .help => do
    w.say purpose
    return 0
  | .version => do
    w.say versionLine
    return 0

/-- The exit code of a command that crashes. -/
def crashCode : Nat := 101

/-- Does what arguments ask for; answers the exit code. -/
def execute (w : World m) (place : Surroundings) (args : List Bytes) : m Nat :=
  match parse args with
  | .error stop => refuse w place stop
  | .ok line => do
    match ← (Session.start w place line >>= fun s => s.perform line).run with
    | .ok () => return 0
    | .error (.complaint complaint) =>
      w.warn ("error: " ++ complaint.message)
      return complaint.exitCode
    | .error (.crash message) =>
      w.warn message
      return crashCode

end CommandLine

end StubLoader
