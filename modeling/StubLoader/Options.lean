import StubLoader.Failure
import StubLoader.Json.Decode
import StubLoader.Json.Printer
import StubLoader.LogLevel
import StubLoader.Path.Normal
import StubLoader.Text.Blank
/-!
# Options

What a host passes to every run: the root of the imports, the mode, and members that are handed
through untouched. In a document they are one object, `basePath` first, then `mode`, then the
rest by key; `kind` may stand for `mode` when reading.
-/

namespace StubLoader

/-- The level that the word names. -/
def LogLevel.ofWord? (s : String) : Outcome LogLevel :=
  match Text.word s with
  | "trace" => .ok .trace
  | "debug" => .ok .debug
  | "info" => .ok .info
  | "warn" | "warning" => .ok .warn
  | "error" => .ok .error
  | "off" | "none" => .ok .off
  | other => .error (.options (.unknownLevel other))

namespace Mode

/-- The mode that the word names. -/
def ofWord? (s : String) : Outcome Mode :=
  match Text.word s with
  | "message" | "proto" => .ok .message
  | "service" | "grpcservice" => .ok .service
  | other => .error (.options (.unknownMode other))

/-- Reads a mode in a document. -/
def read (depth : Nat) (cs : List Char) : Json.Read Mode := Json.variant spellings depth cs

/-- The text of a mode in a document. -/
def print (m : Mode) : List Char := Json.printString m.name

/-- The mode that a text holds. -/
def parse (text : String) : Outcome Mode :=
  (Json.readAll (read Json.maxDepth) text).mapError fun e => .document (.malformed e)

end Mode

/-- Options of a run. -/
structure Options where
  /-- The root of imports, as given. -/
  basePath : Path
  /-- What to generate. -/
  mode : Mode
  /-- Members that are handed through. -/
  extra : Json.Members
  deriving DecidableEq

namespace Options

/-- Options with nothing but a base path. -/
def ofBasePath (basePath : Path) : Options := ⟨basePath, .message, []⟩

/-- The same options with the mode replaced. -/
def withMode (o : Options) (mode : Mode) : Options := { o with mode }

/-- Checks what no run can do without. -/
def validate (o : Options) : Except OptionsFault Unit :=
  if o.basePath.isEmpty then .error .noBasePath else .ok ()

/-- The base path seen from the root. -/
def resolvedBasePath (cwd : Path) (o : Options) : Outcome Path :=
  match o.validate with
  | .error fault => .error (.options fault)
  | .ok () =>
    match Path.absolutize? cwd o.basePath with
    | some p => .ok p
    | none => .error (.io .emptyPath)

/-! ### In documents -/

/-- A path as a string literal, if it is a text. -/
def printPath (p : Path) : Except DocumentFault (List Char) :=
  match p.toString? with
  | some s => .ok (Json.printString s)
  | none => .error .pathNotText

/-- The text of options. -/
def print (o : Options) : Except DocumentFault (List Char) := do
  let members :=
    Json.printMember "basePath" (← printPath o.basePath)
      :: Json.printMember "mode" o.mode.print :: Json.printMembers o.extra
  return '{' :: Json.commaSeparated members ++ ['}']

/-- The text of options as a string. -/
def render (o : Options) : Outcome String :=
  match o.print with
  | .ok cs => .ok (String.ofList cs)
  | .error fault => .error (.document fault)

/-- Options of which some members were read. -/
structure Draft where
  basePath : Option Path
  mode : Option Mode
  extra : Json.Members

/-- Reads a path. -/
def readPath (cs : List Char) : Json.Read Path :=
  (Json.text "path string" cs).map fun (s, rest) => (Path.ofString s, rest)

/-- Reads the member with the given key, whose value may hold `depth` open brackets. -/
def readMember (depth : Nat) (draft : Draft) (key : String) (cs : List Char) :
    Except Json.Fault (Draft × List Char) :=
  if key = "basePath" then do
    let (basePath, rest) ← Json.once "basePath" readPath draft.basePath cs
    return ({ draft with basePath }, rest)
  else if key = "mode" ∨ key = "kind" then do
    let (mode, rest) ← Json.once "mode" (Mode.read depth) draft.mode cs
    return ({ draft with mode }, rest)
  else do
    let (extra, rest) ← Json.insertMember (Json.value depth) draft.extra key cs
    return ({ draft with extra }, rest)

/-- Reads options. -/
def read (depth : Nat) (cs : List Char) : Except Json.Fault (Options × List Char) :=
  match Json.skipSpace cs with
  | [] => .error ⟨.eofValue, 0⟩
  | c :: r =>
    if c = '{' then
      match depth with
      | 0 => .error (.next .tooDeep (c :: r))
      | depth + 1 => do
        let (draft, rest) ← Json.members (readMember depth) ⟨none, none, []⟩ r
        match draft.basePath with
        | none => throw (.before (.missingField "basePath") rest)
        | some basePath => return (⟨basePath, draft.mode.getD .message, draft.extra⟩, rest)
    else .error (Json.wrongType "struct LoaderOptions" (c :: r))

/-- The options that a text holds. -/
def parse (text : String) : Outcome Options :=
  (Json.readAll (read Json.maxDepth) text).mapError fun e => .document (.malformed e)

end Options

end StubLoader
