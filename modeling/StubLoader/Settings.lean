import StubLoader.Json.Skip
import StubLoader.Options
/-!
# Settings

What all runs of a pipeline share. In a document settings are an object whose members may be left
out, or an array of the values in the order below, which may stop early; what is missing has its
standard value.
-/

namespace StubLoader

/-- What all runs share. -/
structure Settings where
  /-- The compiler: a name to be looked up, or a path. -/
  compiler : Path
  /-- The code generation plugin: a name to be looked up, or a path. -/
  plugin : Path
  /-- The name under which the compiler knows the plugin. -/
  pluginName : String
  /-- The entry point that references name. -/
  entryPoint : String
  /-- What the names of scratch directories start with. -/
  workspaceLabel : String
  /-- Where scratch directories are made, unless in the directory for such things. -/
  tempRoot : Option Path
  /-- How many runs of a batch may be under way at once. -/
  maxConcurrentRuns : Nat
  deriving DecidableEq

namespace Settings

/-- The settings that hold where nothing else is said. -/
def standard : Settings where
  compiler := .ofString "protoc"
  plugin := .ofString "protoc-gen-js_service"
  pluginName := "protoc-gen-js_service"
  entryPoint := "grpc-web-loader"
  workspaceLabel := "grpc-web-loader-"
  tempRoot := none
  maxConcurrentRuns := 16

/-- The directory in which scratch directories are made, given the one for such things. -/
def scratchRoot (temp : Path) (s : Settings) : Path := s.tempRoot.getD temp

/-! ### In documents -/

/-- The text of settings. -/
def print (s : Settings) : Except DocumentFault (List Char) := do
  let tempRoot ← match s.tempRoot with
    | none => pure Json.null.print
    | some p => Options.printPath p
  let members := [
    Json.printMember "compiler" (← Options.printPath s.compiler),
    Json.printMember "plugin" (← Options.printPath s.plugin),
    Json.printMember "plugin_name" (Json.printString s.pluginName),
    Json.printMember "entry_point" (Json.printString s.entryPoint),
    Json.printMember "workspace_prefix" (Json.printString s.workspaceLabel),
    Json.printMember "temp_root" tempRoot,
    Json.printMember "max_concurrent_runs" (Json.printInt s.maxConcurrentRuns)]
  return '{' :: Json.commaSeparated members ++ ['}']

/-- The text of settings as a string. -/
def render (s : Settings) : Outcome String :=
  match s.print with
  | .ok cs => .ok (String.ofList cs)
  | .error fault => .error (.document fault)

/-- Settings of which some were given. -/
structure Draft where
  compiler : Option Path := none
  plugin : Option Path := none
  pluginName : Option String := none
  entryPoint : Option String := none
  workspaceLabel : Option String := none
  tempRoot : Option (Option Path) := none
  maxConcurrentRuns : Option Nat := none

/-- The settings of a draft, what it lacks taken from the standard ones. -/
def Draft.complete (d : Draft) : Settings where
  compiler := d.compiler.getD standard.compiler
  plugin := d.plugin.getD standard.plugin
  pluginName := d.pluginName.getD standard.pluginName
  entryPoint := d.entryPoint.getD standard.entryPoint
  workspaceLabel := d.workspaceLabel.getD standard.workspaceLabel
  tempRoot := d.tempRoot.getD standard.tempRoot
  maxConcurrentRuns := d.maxConcurrentRuns.getD standard.maxConcurrentRuns

/-- Reads a name. -/
def readText (cs : List Char) : Json.Read String := Json.text "a string" cs

/-- Reads a path or `null`. -/
def readTempRoot (cs : List Char) : Json.Read (Option Path) := Json.nullable Options.readPath cs

/-- Reads a number of runs. -/
def readCount (cs : List Char) : Json.Read Nat := Json.natural "usize" cs

/-- Reads the member with the given key, or passes over one that is not known. -/
def readMember (d : Draft) (key : String) (cs : List Char) :
    Except Json.Fault (Draft × List Char) := do
  match key with
  | "compiler" =>
    let (compiler, rest) ← Json.once key Options.readPath d.compiler cs
    return ({ d with compiler }, rest)
  | "plugin" =>
    let (plugin, rest) ← Json.once key Options.readPath d.plugin cs
    return ({ d with plugin }, rest)
  | "plugin_name" =>
    let (pluginName, rest) ← Json.once key readText d.pluginName cs
    return ({ d with pluginName }, rest)
  | "entry_point" =>
    let (entryPoint, rest) ← Json.once key readText d.entryPoint cs
    return ({ d with entryPoint }, rest)
  | "workspace_prefix" =>
    let (workspaceLabel, rest) ← Json.once key readText d.workspaceLabel cs
    return ({ d with workspaceLabel }, rest)
  | "temp_root" =>
    let (tempRoot, rest) ← Json.once key readTempRoot d.tempRoot cs
    return ({ d with tempRoot }, rest)
  | "max_concurrent_runs" =>
    let (maxConcurrentRuns, rest) ← Json.once key readCount d.maxConcurrentRuns cs
    return ({ d with maxConcurrentRuns }, rest)
  | _ => return (d, ← Json.skipValue (← Json.colon cs))

/-- Reads the values of settings in order, as many as there are. -/
def readItems (cs : List Char) : Except Json.Fault (Draft × List Char) := do
  let (compiler, rest) ← Json.item? 0 Options.readPath cs
  let (plugin, rest) ← Json.item? 1 Options.readPath rest
  let (pluginName, rest) ← Json.item? 2 readText rest
  let (entryPoint, rest) ← Json.item? 3 readText rest
  let (workspaceLabel, rest) ← Json.item? 4 readText rest
  let (tempRoot, rest) ← Json.item? 5 readTempRoot rest
  let (maxConcurrentRuns, rest) ← Json.item? 6 readCount rest
  return ({ compiler, plugin, pluginName, entryPoint, workspaceLabel, tempRoot, maxConcurrentRuns },
    ← Json.closeList rest)

/-- Reads settings. -/
def read (cs : List Char) : Except Json.Fault (Settings × List Char) :=
  match Json.skipSpace cs with
  | [] => .error ⟨.eofValue, 0⟩
  | c :: r =>
    if c = '{' then (Json.members readMember {} r).map fun (d, rest) => (d.complete, rest)
    else if c = '[' then (readItems r).map fun (d, rest) => (d.complete, rest)
    else .error (Json.wrongType "struct PipelineConfig" (c :: r))

/-- The settings that a text holds. -/
def parse (text : String) : Outcome Settings :=
  (Json.readAll read text).mapError fun e => .document (.malformed e)

end Settings

end StubLoader
