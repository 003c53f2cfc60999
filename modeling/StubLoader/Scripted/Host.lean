import StubLoader.Batch
/-!
# Scripted hosts

A host without a machine: its tools, files and failures are given beforehand, and so is what the
compiler does each time it is called. It keeps a trace of everything that it was asked.
-/

namespace StubLoader

/-- What becomes of a process. -/
inductive Scripted.Ending where
  /-- It writes the generated files and ends. -/
  | exit (output : ProcessOutput)
  /-- It cannot be started. -/
  | fail (error : IoError)
  /-- It never ends. -/
  | hang
  /-- Starting it crashes. -/
  | crash
  deriving DecidableEq

/-- What is scripted for one process. -/
structure Scripted.Response where
  /-- Whether the token of the batch is cancelled meanwhile. -/
  cancels : Bool
  ending : Scripted.Ending
  deriving DecidableEq

/-- What a host was asked. -/
inductive Scripted.Deed where
  | call (call : Call)
  | discard (workspace : Path)
  deriving DecidableEq

/-- A scripted host. -/
structure Scripted where
  /-- The executables on the search path. -/
  tools : List (Path × Path)
  files : List (Path × Bytes)
  /-- The workspaces that exist. -/
  live : List Path
  /-- What the compiler generates, below its output directory. -/
  emitted : List (Path × Bytes)
  /-- What is scripted for the processes to come; the others end at once in silence. -/
  responses : List Scripted.Response
  createFault : Option IoError
  readFault : Option IoError
  removeFault : Option IoError
  /-- The number of workspaces made so far. -/
  made : Nat
  /-- Whether a process has cancelled the token. -/
  cancelled : Bool
  /-- What was asked, the latest first. -/
  asked : List Scripted.Deed

namespace Scripted

/-- A host with nothing on it. -/
def empty : Scripted := ⟨[], [], [], [], [], none, none, none, 0, false, []⟩

/-! ### Tables by path -/

/-- The entry under a path. -/
def lookup {α : Type} (path : Path) (table : List (Path × α)) : Option α :=
  (table.find? fun entry => entry.1.sameSteps path).map (·.2)

/-- Puts an entry under a path, in the place of the one that is there. -/
def insert {α : Type} (path : Path) (value : α) : List (Path × α) → List (Path × α)
  | [] => [(path, value)]
  | entry :: table =>
    if entry.1.sameSteps path then (entry.1, value) :: table
    else entry :: insert path value table

/-- Takes out the entry under a path. -/
def erase {α : Type} (path : Path) (table : List (Path × α)) : List (Path × α) :=
  table.filter fun entry => !entry.1.sameSteps path

/-- Puts entries in, one after another. -/
def insertAll {α : Type} (entries table : List (Path × α)) : List (Path × α) :=
  entries.foldl (fun table entry => insert entry.1 entry.2 table) table

/-! ### What calls do -/

/-- Makes a workspace named by the label and a number. -/
def create (root : Path) (label : String) (s : Scripted) : Except IoError Path × Scripted :=
  match s.createFault with
  | some e => (.error e, s)
  | none =>
    let path := root.join (.ofString (label ++ toString s.made))
    let live := if s.live.any (·.sameSteps path) then s.live else s.live ++ [path]
    (.ok path, { s with live, made := s.made + 1 })

/-- The directory that an argument tells the compiler to write to. -/
def outputDirectory? (arg : Bytes) : Option Path :=
  [Mode.message, .service].findSome? fun mode =>
    let flag := Utf8.ofString (Compiler.outputFlag mode)
    if flag.isPrefixOf arg then some ⟨arg.drop flag.length⟩ else none

/-- Writes the generated files to the output directory. -/
def generate (args : List Bytes) (s : Scripted) : Scripted :=
  match args.findSome? outputDirectory? with
  | none => s
  | some directory =>
    let written := s.emitted.map fun (path, bytes) => (directory.join path, bytes)
    { s with files := insertAll written s.files }

/-- The output of a process that ends at once in silence. -/
def silence : ProcessOutput := ⟨some 0, true, [], []⟩

/-- Runs the compiler by the next response. -/
def process (args : List Bytes) (s : Scripted) : Reply (Except IoError ProcessOutput) × Scripted :=
  let response := s.responses.headD ⟨false, .exit silence⟩
  let s := { s with responses := s.responses.tail, cancelled := s.cancelled || response.cancels }
  match response.ending with
  | .exit output => (.now (.ok output), s.generate args)
  | .fail e => (.now (.error e), s)
  | .hang => (.pending, s)
  | .crash => (.crash, s)

/-- Reads a file. -/
def loadFile (path : Path) (s : Scripted) : Except IoError Bytes :=
  match s.readFault with
  | some e => .error e
  | none =>
    match lookup path s.files with
    | some bytes => .ok bytes
    | none => .error ⟨.notFound, path.display⟩

/-- Removes a workspace and the files below it. -/
def remove (path : Path) (s : Scripted) : Except IoError Unit × Scripted :=
  match s.removeFault with
  | some e => (.error e, s)
  | none =>
    (.ok (), { s with
      live := s.live.filter fun p => !p.sameSteps path
      files := s.files.filter fun file => !file.1.isUnder path })

/-- Answers a call. -/
def answer (call : Call) (s : Scripted) : Reply call.Answer × Scripted :=
  match call with
  | .createWorkspace root label => (s.create root label).map .now id
  | .findExecutable name => (.now (lookup name s.tools), s)
  | .runProcess _ args => s.process args
  | .loadFile path => (.now (s.loadFile path), s)
  | .removeWorkspace path => (s.remove path).map .now id

/-- The scripted host. Only a process that never ends keeps a run waiting, so no later question
is answered. -/
def host : Host Scripted where
  start call s := { s with asked := .call call :: s.asked }.answer call
  await _ s := (.pending, s)
  discard path s := { s with asked := .discard path :: s.asked }.remove path

/-! ### Looking at the host -/

/-- What was asked since the last look, in order. -/
def trace (s : Scripted) : List Deed := s.asked.reverse

/-- Paths in the order of their steps. -/
def inOrder (paths : List Path) : List Path :=
  paths.mergeSort fun a b => !Path.stepsLt b.components a.components

end Scripted

end StubLoader
