import StubLoader.Complaint
import StubLoader.Settings
import StubLoader.Toml.Document
/-!
# Project files

A project states its log level, its options and its settings in a TOML document.

    log_level = "info"

    [options]
    basePath = "schemas"

    [pipeline]
    max_concurrent_runs = 8

What is not stated has its standard value, and what is not known is passed over.
-/

namespace StubLoader

namespace Toml

/-! ### As JSON -/

/-- The key under which a moment is kept where there is no other place for it. -/
def momentKey : String := "$__toml_private_datetime"

mutual

/-- The JSON value for a TOML value. Integers must fit into 64 bits with or without a sign and
other numbers into a double; infinities become `null`. -/
def toJson? : Toml → Option Json
  | .text s => some (.str s)
  | .int n => if -(2 ^ 63) ≤ n ∧ n < 2 ^ 64 then some (.int n) else none
  | .real (.finite x) => some (.float x)
  | .real .special => some .null
  | .illegible => none
  | .bool b => some (.bool b)
  | .moment spelling => some (.obj [(momentKey, .str spelling)])
  | .array _ items => (toJsonItems? items).map .arr
  | .table _ entries => (toJsonMembers? entries).map .obj

/-- The JSON values for the items of an array. -/
def toJsonItems? : List Toml → Option (List Json)
  | [] => some []
  | item :: items => do return (← toJson? item) :: (← toJsonItems? items)

/-- The JSON members for the entries of a table. -/
def toJsonMembers? : List (String × Toml) → Option Json.Members
  | [] => some []
  | (key, value) :: entries => do
    return Json.insert key (← toJson? value) (← toJsonMembers? entries)

end

mutual

/-- Whether a value that is passed over can be read: integers must fit into 128 bits with or
without a sign. -/
def isReadable : Toml → Bool
  | .int n => decide (-(2 ^ 127) ≤ n ∧ n < 2 ^ 128)
  | .illegible => false
  | .text _ | .real _ | .bool _ | .moment _ => true
  | .array _ items => areReadable items
  | .table _ entries => entriesReadable entries

/-- Whether all items could be read. -/
def areReadable : List Toml → Bool
  | [] => true
  | item :: items => isReadable item && areReadable items

/-- Whether all entries could be read. -/
def entriesReadable : List (String × Toml) → Bool
  | [] => true
  | (_, value) :: entries => isReadable value && entriesReadable entries

end

/-! ### Typed values -/

/-- The text that a value is. -/
def asText : Toml → Option String
  | .text s => some s
  | _ => none

/-- The path that a value is. -/
def asPath (t : Toml) : Option Path := t.asText.map .ofString

/-- The number that a value is, if it fits into 64 bits. -/
def asNatural : Toml → Option Nat
  | .int n => if 0 ≤ n ∧ n < UInt64.size then some n.toNat else none
  | _ => none

/-- The entries of a value that is a table; a moment is one with a single entry. -/
def asEntries : Toml → Option Entries
  | .table _ entries => some entries
  | .moment spelling => some [(momentKey, .text spelling)]
  | _ => none

/-- Whether a value is a table or an array without anything in it. -/
def isEmpty : Toml → Bool
  | .table _ [] | .array _ [] => true
  | _ => false

end Toml

/-- The mode that a value names: by its text, or by the only key of a table, with nothing under
it. -/
def Mode.ofToml? : Toml → Option Mode
  | .text s => spellings.lookup s
  | .table _ [(key, value)] => if value.isEmpty then spellings.lookup key else none
  | _ => none

/-- Takes one entry of a table of options. -/
def Options.Draft.add (d : Options.Draft) (entry : String × Toml) : Option Options.Draft :=
  if entry.1 = "basePath" then
    if d.basePath.isSome then none
    else do return { d with basePath := some (← entry.2.asPath) }
  else if entry.1 = "mode" ∨ entry.1 = "kind" then
    if d.mode.isSome then none
    else do return { d with mode := some (← Mode.ofToml? entry.2) }
  else do return { d with extra := Json.insert entry.1 (← entry.2.toJson?) d.extra }

/-- The options that a value holds. -/
def Options.ofToml? (t : Toml) : Option Options := do
  let draft ← (← t.asEntries).foldlM Options.Draft.add ⟨none, none, []⟩
  return ⟨← draft.basePath, draft.mode.getD .message, draft.extra⟩

/-- Takes one entry of a table of settings. -/
def Settings.Draft.add (d : Settings.Draft) (entry : String × Toml) : Option Settings.Draft := do
  let (key, t) := entry
  match key with
  | "compiler" => return { d with compiler := some (← t.asPath) }
  | "plugin" => return { d with plugin := some (← t.asPath) }
  | "plugin_name" => return { d with pluginName := some (← t.asText) }
  | "entry_point" => return { d with entryPoint := some (← t.asText) }
  | "workspace_prefix" => return { d with workspaceLabel := some (← t.asText) }
  | "temp_root" => return { d with tempRoot := some (some (← t.asPath)) }
  | "max_concurrent_runs" => return { d with maxConcurrentRuns := some (← t.asNatural) }
  | _ =>
    guard t.isReadable
    return d

/-- The keys of settings, in the order in which an array lists their values. -/
def Settings.keys : List String :=
  ["compiler", "plugin", "plugin_name", "entry_point", "workspace_prefix", "temp_root",
    "max_concurrent_runs"]

/-- The settings that a value holds: a table, or an array of the first values in order. -/
def Settings.ofToml? (t : Toml) : Option Settings := do
  let entries ← match t with
    | .array _ items => some (Settings.keys.zip items)
    | t => t.asEntries
  return (← entries.foldlM Settings.Draft.add {}).complete

/-- What a project states. -/
structure Project where
  /-- The level as written. -/
  logLevel : Option String := none
  options : Option Options := none
  settings : Settings := .standard
  deriving DecidableEq

namespace Project

/-- The name of the project file that is used unless another is given. -/
def fileName : String := "grpcweb-loader.toml"

/-- Takes one entry of a project file. -/
def add (p : Project) (entry : String × Toml) : Option Project := do
  let (key, t) := entry
  match key with
  | "log_level" => return { p with logLevel := some (← t.asText) }
  | "options" => return { p with options := some (← Options.ofToml? t) }
  | "pipeline" => return { p with settings := ← Settings.ofToml? t }
  | _ =>
    guard t.isReadable
    return p

/-- The project that a document states. -/
def parse? (text : String) : Option Project := do
  (← Toml.parse? text).foldlM add {}

/-- The project that a document states, or a complaint about it. -/
def parse (text : String) : Attempt Project :=
  match parse? text with
  | some p => .ok p
  | none => .error (.plain "Failed to parse config")

/-- The level to log at. -/
def level (p : Project) : Attempt LogLevel :=
  match p.logLevel with
  | none => .ok .standard
  | some word =>
    (Attempt.ofOutcome (LogLevel.ofWord? word)).during ("Invalid log_level: " ++ word)

/-- Checks options against what no run can do without. -/
def checkOptions (o : Options) : Attempt Unit :=
  Attempt.ofOutcome (o.validate.mapError .options)

/-- Checks everything that a project states. -/
def validate (p : Project) : Attempt Unit := do
  match p.options with
  | some options => (checkOptions options).during "Invalid [options]"
  | none => pure ()
  if p.settings.compiler.isEmpty then throw (.plain "Compiler cannot be empty")
  if p.settings.plugin.isEmpty then throw (.plain "Plugin cannot be empty")
  if p.settings.pluginName.isEmpty then throw (.plain "Plugin name cannot be empty")
  if p.settings.entryPoint.isEmpty then throw (.plain "Entry point cannot be empty")
  if p.settings.maxConcurrentRuns = 0 then
    throw (.plain "max_concurrent_runs must be greater than zero")
  let _ ← p.level

/-- The options of the project with a base path and a mode put in their places where given. -/
def optionsWith (p : Project) (basePath : Option Path) (mode : Option Mode) : Attempt Options := do
  let options ← match p.options, basePath with
    | some options, some basePath => pure { options with basePath }
    | some options, none => pure options
    | none, some basePath => pure (.ofBasePath basePath)
    | none, none => throw <| .plain <|
        "No base path: pass --base-path or set [options] basePath in " ++ fileName
  let options := match mode with
    | some mode => options.withMode mode
    | none => options
  checkOptions options
  return options

end Project

end StubLoader
