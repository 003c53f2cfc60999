import StubLoader.Artifact
import StubLoader.Compiler
import StubLoader.Output
import StubLoader.Settings
/-!
# Runs

A run makes one artifact for one request. It has a scratch directory to itself, finds compiler and
plugin, runs the compiler, reads what it generated, and removes the directory again whatever
happened; between two calls to the host it stands at a *stage*.

    create → findCompiler → findPlugin → compile → read → release → ended
                  │              │          │       │        ▲
                  └──────────────┴──────────┴───────┴────────┘  with the failure

A run that is given up at a stage leaves its directory behind, which is then discarded.
-/

namespace StubLoader

/-- Settings, and the surroundings in which they are applied. -/
structure Pipeline where
  settings : Settings
  /-- The current directory. -/
  cwd : Path
  /-- The directory for temporary files. -/
  temp : Path

/-- What a run is waiting for. -/
inductive Stage where
  /-- For its directory. -/
  | create
  | findCompiler (workspace base : Path)
  | findPlugin (workspace base compiler : Path)
  | compile (workspace base compiler plugin : Path)
  /-- For the generated file. -/
  | read (workspace : Path) (modulePath : String)
  /-- For the removal of its directory, with what it will then answer. -/
  | release (workspace : Path) (outcome : Outcome Bytes)
  /-- For nothing any more. -/
  | ended (result : Outcome Bytes)

namespace Stage

/-- The directory that is to be discarded if the run is given up here. -/
def held : Stage → Option Path
  | .create | .ended _ => none
  | .findCompiler w _ | .findPlugin w .. | .compile w .. | .read w _ | .release w _ => some w

/-- The number of calls that are still to come at most. -/
def remaining : Stage → Nat
  | .create => 6
  | .findCompiler .. => 5
  | .findPlugin .. => 4
  | .compile .. => 3
  | .read .. => 2
  | .release .. => 1
  | .ended _ => 0

end Stage

/-- A run under way. -/
structure Run where
  request : Request
  state : RunState
  stage : Stage

namespace Run

/-- The run for a request before its first call. -/
def initial (request : Request) : Run := ⟨request, .idle, .create⟩

/-- A run after an answer, and what it reports. -/
abbrev Step := Run × List Notice

/-- Reports an event before the others of a step. -/
def report (e : Event) (step : Step) : Step := (step.1, .event e :: step.2)

/-- The run goes on to a stage. -/
def goTo (run : Run) (stage : Stage) : Step := ({ run with stage }, [])

/-- The run is over with a failure. -/
def fail (run : Run) (failure : Failure) : Step :=
  let ended := { run with state := .failed, stage := .ended (.error failure) }
  if run.state.isTerminal then ({ ended with state := run.state }, [])
  else (ended, [.event (.stateChanged run.state .failed)])

/-- The run comes to a state and goes on from there; if the states do not allow that, it does
`refuse` with the failure. -/
def reach (run : Run) (target : RunState) (refuse : Failure → Step) (next : Run → Step) : Step :=
  if run.state.canBecome target then
    report (.stateChanged run.state target) (next { run with state := target })
  else refuse (.state ("a state reachable from " ++ run.state.name) target.name)

/-- The run gives back its directory on account of a failure. -/
def giveUp (run : Run) (workspace : Path) (failure : Failure) : Step :=
  run.goTo (.release workspace (.error failure))

/-! ### After an answer -/

/-- After the directory was made. -/
def created (p : Pipeline) (run : Run) : Except IoError Path → Step
  | .error e => run.fail (.io e)
  | .ok workspace =>
    report (.workspaceAcquired workspace) <|
      run.reach .workspaceAcquired (run.giveUp workspace) fun run =>
        match run.request.options.resolvedBasePath p.cwd with
        | .error e => run.giveUp workspace e
        | .ok base => run.goTo (.findCompiler workspace base)

/-- After the compiler was looked up. -/
def compilerSought (p : Pipeline) (run : Run) (workspace base : Path) : Option Path → Step
  | none => run.giveUp workspace (.toolNotFound p.settings.compiler.display)
  | some compiler =>
    report (.toolLocated p.settings.compiler compiler) <|
      run.goTo (.findPlugin workspace base compiler)

/-- The arguments that the compiler gets. -/
def arguments (p : Pipeline) (run : Run) (workspace base plugin : Path) : List Bytes :=
  Compiler.arguments p.settings.pluginName plugin run.request.source.normalize base workspace
    run.request.mode

/-- After the plugin was looked up. -/
def pluginSought (p : Pipeline) (run : Run) (workspace base compiler : Path) :
    Option Path → Step
  | none => run.giveUp workspace (.toolNotFound p.settings.plugin.display)
  | some plugin =>
    report (.toolLocated p.settings.plugin plugin) <|
      run.reach .toolsResolved (run.giveUp workspace) fun run =>
        report (.invoking compiler (run.arguments p workspace base plugin)) <|
          run.goTo (.compile workspace base compiler plugin)

/-- Hands the warning about a source to the caller, before the others of a step. -/
def warn (run : Run) (remarks : Compiler.Remarks) (step : Step) : Step :=
  (step.1, ((remarks.warning? run.request.source).map Notice.warning).toList ++ step.2)

/-- After the compiler has ended. -/
def compiled (run : Run) (workspace base : Path) : Except IoError ProcessOutput → Step
  | .error e => run.giveUp workspace (.io e)
  | .ok output =>
    match Compiler.judge output with
    | .error e => run.giveUp workspace e
    | .ok remarks =>
      run.warn remarks <|
        run.reach .invoked (run.giveUp workspace) fun run =>
          match Output.modulePath base run.request.source.normalize with
          | .error fault => run.giveUp workspace (.options fault)
          | .ok modulePath =>
            run.reach .resolved (run.giveUp workspace) fun run =>
              run.goTo (.read workspace modulePath)

/-- After the generated file was read. -/
def read (p : Pipeline) (run : Run) (workspace : Path) (modulePath : String) :
    Except IoError Bytes → Step
  | .error e => run.giveUp workspace (.io e)
  | .ok bytes =>
    match Artifact.finish p.settings.entryPoint run.request modulePath bytes with
    | .error e => run.giveUp workspace e
    | .ok artifact =>
      run.reach .postProcessed (run.giveUp workspace) fun run =>
        run.goTo (.release workspace (.ok artifact))

/-- After the removal of the directory was answered. -/
def released (run : Run) (workspace : Path) (outcome : Outcome Bytes) :
    Except IoError Unit → Step
  | .ok () =>
    report (.workspaceReleased workspace) <|
      match outcome with
      | .error e => run.fail e
      | .ok artifact =>
        run.reach .completed run.fail fun run =>
          report (.finished artifact.length) (run.goTo (.ended (.ok artifact)))
  | .error removal =>
    match outcome with
    | .error e => report (.workspaceKept removal) (run.fail e)
    | .ok _ => run.fail (.io removal)

/-! ### The next call -/

/-- What a run does next. -/
inductive Next where
  /-- Nothing: it is over. -/
  | ended (result : Outcome Bytes)
  /-- It calls its host and goes on with the answer. -/
  | asks (call : Call) (resume : call.Answer → Step)

/-- The place of the generated file. -/
def artifactPath (run : Run) (workspace : Path) (modulePath : String) : Path :=
  Output.locate workspace (modulePath ++ Output.suffix run.request.mode)

/-- What the run does next. -/
def next (p : Pipeline) (run : Run) : Next :=
  match run.stage with
  | .create =>
    .asks (.createWorkspace (p.settings.scratchRoot p.temp) p.settings.workspaceLabel)
      (run.created p)
  | .findCompiler w base =>
    .asks (.findExecutable p.settings.compiler) (run.compilerSought p w base)
  | .findPlugin w base compiler =>
    .asks (.findExecutable p.settings.plugin) (run.pluginSought p w base compiler)
  | .compile w base compiler plugin =>
    .asks (.runProcess compiler (run.arguments p w base plugin)) (run.compiled w base)
  | .read w modulePath =>
    .asks (.loadFile (run.artifactPath w modulePath)) (run.read p w modulePath)
  | .release w outcome => .asks (.removeWorkspace w) (run.released w outcome)
  | .ended result => .ended result

/-! ### On a host -/

/-- How far a run came without waiting. -/
inductive Progress where
  /-- To its end. -/
  | finished (result : Outcome Bytes)
  /-- To a call whose answer is outstanding. -/
  | suspended (run : Run)
  /-- To a call whose answering crashed. -/
  | crashed (run : Run)

/-- Goes on as far as the host answers at once, at most `fuel` calls; `issued` says whether the
host knows of the first of them already. -/
def advance {σ : Type} (host : Host σ) (p : Pipeline) :
    (fuel : Nat) → Run → (issued : Bool) → σ → Progress × List Notice × σ
  | 0, run, _, s => (.suspended run, [], s)
  | fuel + 1, run, issued, s =>
    match run.next p with
    | .ended result => (.finished result, [], s)
    | .asks call resume =>
      match if issued then host.await call s else host.start call s with
      | (.pending, s) => (.suspended run, [], s)
      | (.crash, s) => (.crashed run, [], s)
      | (.now answer, s) =>
        let (run, notices) := resume answer
        let (progress, later, s) := advance host p fuel run false s
        (progress, notices ++ later, s)

/-- Goes on as far as the host answers at once. -/
def poll {σ : Type} (host : Host σ) (p : Pipeline) (run : Run) (issued : Bool) (s : σ) :
    Progress × List Notice × σ :=
  advance host p (run.stage.remaining + 1) run issued s

/-- What is reported of a directory that was discarded. -/
def discarded (workspace : Path) : Except IoError Unit → Event
  | .ok () => .workspaceAbandoned workspace
  | .error e => .abandonedWorkspaceKept workspace e

/-- Gives the run up: its directory, if it has one, is discarded. -/
def abandon {σ : Type} (host : Host σ) (run : Run) (s : σ) : List Notice × σ :=
  match run.stage.held with
  | none => ([], s)
  | some workspace =>
    let (answer, s) := host.discard workspace s
    ([.event (discarded workspace answer)], s)

end Run

namespace Pipeline

/-- Runs a request as far as the host answers at once. If answering crashes, the directory of the
run is discarded. -/
def run {σ : Type} (host : Host σ) (p : Pipeline) (request : Request) (s : σ) :
    Run.Progress × List Notice × σ :=
  match Run.poll host p (.initial request) false s with
  | (.crashed run, notices, s) =>
    let (discarded, s) := run.abandon host s
    (.crashed run, .event .started :: notices ++ discarded, s)
  | (progress, notices, s) => (progress, .event .started :: notices, s)

/-- The request that a reference literal stands for, if it names the entry point of the
pipeline. -/
def follow (p : Pipeline) (literal : String) : Outcome Request := do
  let reference ← Reference.parse literal
  if reference.entryPoint ≠ p.settings.entryPoint then
    throw (.reference (.otherEntryPoint reference.entryPoint p.settings.entryPoint))
  reference.toRequest

/-- Runs the request that a reference literal stands for. -/
def resolve {σ : Type} (host : Host σ) (p : Pipeline) (literal : String) (s : σ) :
    Run.Progress × List Notice × σ :=
  match p.follow literal with
  | .error e => (.finished (.error e), [], s)
  | .ok request => p.run host request s

end Pipeline

end StubLoader
