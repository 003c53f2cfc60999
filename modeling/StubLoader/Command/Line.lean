import StubLoader.Options
import StubLoader.Text.Terminal
/-!
# Command lines

A command line is a command with its operands and options, and options that go with every command.

    grpcweb-loader [--config PATH] [--log-level LEVEL] COMMAND ...

      generate SOURCE [--base-path PATH] [--mode MODE] [--output PATH]
      batch SOURCE... [--base-path PATH] [--mode MODE] --out-dir PATH
      resolve REFERENCE [--output PATH]
      check

Arguments are read from left to right, and the first that cannot be taken decides the complaint.
The value of an option is looked at only when the next argument has been recognised, so a complaint
about that argument comes first. Complaints show some words in styles, which only a terminal can
show.
-/

namespace StubLoader

/-- What a command line asks for. -/
inductive Command where
  /-- One artifact. -/
  | generate (source : Path) (basePath : Option Path) (mode : Option Mode) (output : Option Path)
  /-- Many artifacts, in files below a directory. -/
  | batch (sources : List Path) (basePath : Option Path) (mode : Option Mode) (outDir : Path)
  /-- The artifact that a reference names. -/
  | resolve (reference : String) (output : Option Path)
  /-- A look at the project file and the tools. -/
  | check
  deriving DecidableEq

/-- A command line. -/
structure CommandLine where
  config : Option Path
  logLevel : Option LogLevel
  command : Command
  deriving DecidableEq

namespace CommandLine

/-- What a value has to be. -/
inductive ValueKind where
  | path
  | text
  | mode
  | level
  deriving DecidableEq

/-- A place for values. -/
structure Slot where
  /-- The name of an option, or of the values of a command without options. -/
  name : String
  /-- How complaints show the slot. -/
  shown : String
  short : Option Char
  kind : ValueKind
  required : Bool
  /-- Whether several values may stand here. -/
  many : Bool
  deriving DecidableEq

/-- What a command takes. -/
structure Shape where
  options : List Slot
  operand : Option Slot
  deriving DecidableEq

/-! ### The commands -/

def Slot.config : Slot := ⟨"config", "--config <CONFIG>", some 'c', .path, false, false⟩
def Slot.logLevel : Slot := ⟨"log-level", "--log-level <LOG_LEVEL>", none, .level, false, false⟩
def Slot.basePath : Slot := ⟨"base-path", "--base-path <BASE_PATH>", some 'b', .path, false, false⟩
def Slot.mode : Slot := ⟨"mode", "--mode <MODE>", some 'm', .mode, false, false⟩
def Slot.output : Slot := ⟨"output", "--output <OUTPUT>", some 'o', .path, false, false⟩
def Slot.outDir : Slot := ⟨"out-dir", "--out-dir <OUT_DIR>", none, .path, true, false⟩
def Slot.source : Slot := ⟨"source", "<SOURCE>", none, .path, true, false⟩
def Slot.sources : Slot := ⟨"sources", "<SOURCES>...", none, .path, true, true⟩
def Slot.reference : Slot := ⟨"reference", "<REFERENCE>", none, .text, true, false⟩

/-- The options that go with every command. -/
def common : List Slot := [.config, .logLevel]

/-- The commands and what they take. -/
def shapes : List (String × Shape) :=
  [("generate", ⟨[.basePath, .mode, .output] ++ common, some .source⟩),
    ("batch", ⟨[.basePath, .mode, .outDir] ++ common, some .sources⟩),
    ("resolve", ⟨.output :: common, some .reference⟩),
    ("check", ⟨common, none⟩)]

/-- What may stand before the command. -/
def front : Shape := ⟨common, none⟩

/-- The command that shows help. -/
def helpName : String := "help"

/-- Whether a word names a command, help included. -/
def isCommand (word : String) : Bool := word = helpName || (shapes.lookup word).isSome

/-! ### Reading -/

/-- Why a command line leads to no command. -/
inductive Stop where
  /-- It cannot be taken; the complaint is for a terminal. -/
  | complaint (text : String)
  /-- Help is asked for. -/
  | help
  /-- Nothing is asked for. -/
  | nothing
  /-- The version is asked for. -/
  | version
  deriving DecidableEq

/-- Arguments as far as they were read. -/
structure Reading where
  /-- The values that were looked at. -/
  values : List (String × List Bytes)
  /-- The slot filled last, whose values were not looked at yet. -/
  pending : Option (Slot × List Bytes)
  /-- Whether the slot filled last is an option that has no value yet. -/
  awaiting : Bool
  /-- Whether all arguments are operands from here on. -/
  operandsOnly : Bool

/-- Before the first argument. -/
def Reading.initial : Reading := ⟨[], none, false, false⟩

/-- A word of the user between single quotes. -/
def quoted (word : String) : String := "'" ++ Terminal.styled .yellow word ++ "'"

/-- A word of this program between single quotes. -/
def named (word : String) : String := "'" ++ Terminal.styled .bold word ++ "'"

/-- The complaint about a missing value. -/
def noValue (slot : Slot) : Stop :=
  .complaint ("a value is required for " ++ quoted slot.shown ++ " but none was supplied")

/-- The complaint about an argument that has no place. -/
def unexpected (arg : String) : Stop :=
  .complaint ("unexpected argument " ++ quoted arg ++ " found")

/-- The complaint about a word that is no command. -/
def unrecognized (arg : String) : Stop := .complaint ("unrecognized subcommand " ++ quoted arg)

/-- The complaint about bytes that are no text. -/
def notText : Stop := .complaint "invalid UTF-8 was detected in one or more arguments"

/-- Looks at a text that has to be of some kind. -/
def checkText {α : Type} (slot : Slot) (reader : String → Outcome α) (value : Bytes) :
    Except Stop Unit :=
  match Utf8.toString? value with
  | .error _ => .error notText
  | .ok text =>
    match reader text with
    | .ok _ => .ok ()
    | .error failure => .error <| .complaint <|
        "invalid value " ++ quoted text ++ " for " ++ named slot.shown ++ ": " ++ failure.message

/-- Looks at one value. -/
def check (slot : Slot) (value : Bytes) : Except Stop Unit :=
  match slot.kind with
  | .path => if value.isEmpty then .error (noValue slot) else .ok ()
  | .text => checkText slot (fun _ => .ok ()) value
  | .mode => checkText slot Mode.ofWord? value
  | .level => checkText slot LogLevel.ofWord? value

/-- Looks at the values of the slot filled last. -/
def Reading.settle (r : Reading) : Except Stop Reading :=
  match r.pending with
  | none => .ok r
  | some (slot, values) => do
    if values.isEmpty then throw (noValue slot)
    let before := (r.values.lookup slot.name).getD []
    if !before.isEmpty ∧ !slot.many then
      throw (.complaint ("the argument " ++ quoted slot.shown ++ " cannot be used multiple times"))
    values.forM (check slot)
    let others := r.values.filter (·.1 ≠ slot.name)
    return { r with values := (slot.name, before ++ values) :: others, pending := none }

/-- Takes an option whose value may be attached to it. -/
def Reading.option (r : Reading) (slot : Slot) (attached : Option Bytes) : Except Stop Reading := do
  let r ← r.settle
  match attached with
  | some value => Reading.settle { r with pending := some (slot, [value]), awaiting := false }
  | none => return { r with pending := some (slot, []), awaiting := true }

/-- Looks at the values so far and starts a slot with a value that stands alone. -/
def Reading.opening (r : Reading) (slot : Slot) (arg : Bytes) : Except Stop Reading := do
  let r ← r.settle
  return { r with pending := some (slot, [arg]), awaiting := false }

/-- Stops after looking at the values so far. -/
def Reading.stop (r : Reading) (stop : Stop) : Except Stop Reading := do
  let _ ← r.settle
  throw stop

/-- The equals sign. -/
def equals : UInt8 := 61

/-- The dash. -/
def dash : UInt8 := 45

/-- Takes an argument that begins with two dashes; `atFront` says whether no command was read. -/
def Reading.long (r : Reading) (shape : Shape) (atFront : Bool) (arg : Bytes) :
    Except Stop Reading :=
  let name := arg.takeWhile (· ≠ equals)
  let attached := match arg.dropWhile (· ≠ equals) with
    | [] => none
    | _ :: value => some value
  let flag (stop : Stop) : Except Stop Reading :=
    match attached with
    | none => r.stop stop
    | some value => .error <| .complaint <|
        "unexpected value " ++ quoted (Utf8.toStringLossy value) ++ " for "
          ++ named ("--" ++ Utf8.toStringLossy name) ++ " found; no more were expected"
  match shape.options.find? fun slot => Utf8.ofString slot.name = name with
  | some slot => r.option slot attached
  | none =>
    if name = Utf8.ofString "help" then flag .help
    else if atFront && name = Utf8.ofString "version" then flag .version
    else .error (unexpected ("--" ++ Utf8.toStringLossy name))

/-- Takes an argument that begins with one dash. -/
def Reading.short (r : Reading) (shape : Shape) (atFront : Bool) (arg : Bytes) :
    Except Stop Reading :=
  match Utf8.pieces arg with
  | .char c :: _ =>
    match shape.options.find? fun slot => slot.short = some c with
    | some slot =>
      match arg.drop (Utf8.encodeChar c).length with
      | [] => r.option slot none
      | b :: value => r.option slot (some (if b = equals then value else b :: value))
    | none =>
      if c = 'h' then r.stop .help
      else if atFront && c = 'V' then r.stop .version
      else .error (unexpected (String.ofList ['-', c]))
  | _ => .error (unexpected ("-" ++ Utf8.toStringLossy arg))

/-- Whether a slot has values, looked at or not. -/
def Reading.filled (r : Reading) (slot : Slot) : Bool :=
  (r.values.lookup slot.name).isSome || r.pending.any fun (last, _) => last = slot

/-- Takes an operand. A slot for several values takes all of a row together. -/
def Reading.operand (r : Reading) (shape : Shape) (atFront : Bool) (arg : Bytes) :
    Except Stop Reading :=
  let shown := Utf8.toStringLossy arg
  match shape.operand with
  | none =>
    if atFront && !(r.operandsOnly && isCommand shown) then .error (unrecognized shown)
    else .error (unexpected shown)
  | some slot =>
    if slot.many then
      match r.pending.filter fun (last, _) => last = slot with
      | some (_, values) => .ok { r with pending := some (slot, values ++ [arg]) }
      | none => r.opening slot arg
    else if r.filled slot then .error (unexpected shown)
    else r.opening slot arg

/-- Takes an argument without dashes before it. -/
def Reading.plain (r : Reading) (shape : Shape) (atFront : Bool) (arg : Bytes) :
    Except Stop Reading :=
  match r.awaiting, r.pending with
  | true, some (slot, _) => .ok { r with pending := some (slot, [arg]), awaiting := false }
  | _, _ => r.operand shape atFront arg

/-- Takes one argument. -/
def Reading.take (r : Reading) (shape : Shape) (atFront : Bool) (arg : Bytes) :
    Except Stop Reading :=
  if r.operandsOnly then r.operand shape atFront arg
  else match arg with
    | a :: b :: rest =>
      if a = dash ∧ b = dash then
        if rest = [] then .ok { r with operandsOnly := true } else r.long shape atFront rest
      else if a = dash then r.short shape atFront (b :: rest)
      else r.plain shape atFront arg
    | _ => r.plain shape atFront arg

/-- Takes the arguments of a command. -/
def readArguments (shape : Shape) (r : Reading) (args : List Bytes) : Except Stop Reading := do
  let r ← args.foldlM (fun r arg => r.take shape false arg) r
  let r ← r.settle
  let slots := shape.options ++ shape.operand.toList
  if slots.any fun slot => slot.required && (r.values.lookup slot.name).isNone then
    throw (.complaint "the following required arguments were not provided:")
  return r

/-- The commands that follow the word for help have to exist. -/
def help : List Bytes → Stop
  | [] => .help
  | name :: rest =>
    let shown := Utf8.toStringLossy name
    if isCommand shown then
      match rest with
      | [] => .help
      | next :: _ => unrecognized (Utf8.toStringLossy next)
    else unrecognized shown

/-- The command and its values, and the values before the command. -/
structure Parts where
  command : String
  own : Reading
  front : Reading

/-- Takes the arguments up to the command, and then those of the command. -/
def readFront (r : Reading) : List Bytes → Except Stop Parts
  | [] => do
    let r ← r.settle
    if r.values.isEmpty then throw .nothing
    throw <| .complaint <|
      quoted "grpcweb-loader" ++ " requires a subcommand but one was not provided"
  | arg :: args => do
    let word := if r.operandsOnly || r.awaiting then none else (Utf8.toString? arg).toOption
    match word.bind fun name => (shapes.lookup name).map fun shape => (name, shape) with
    | some (name, shape) =>
      let own ← readArguments shape .initial args
      return ⟨name, own, ← r.settle⟩
    | none =>
      if word = some helpName then throw (help args)
      readFront (← r.take front true arg) args

/-! ### Values -/

/-- The values of a slot. -/
def Reading.all (r : Reading) (slot : Slot) : List Bytes := (r.values.lookup slot.name).getD []

/-- The path in a slot. -/
def Reading.path? (r : Reading) (slot : Slot) : Option Path := (r.all slot).head?.map Path.mk

/-- The mode in a slot. -/
def Reading.mode? (r : Reading) (slot : Slot) : Option Mode := do
  (Mode.ofWord? (Utf8.toStringLossy (← (r.all slot).head?))).toOption

/-- The level in a slot. -/
def Reading.level? (r : Reading) (slot : Slot) : Option LogLevel := do
  (LogLevel.ofWord? (Utf8.toStringLossy (← (r.all slot).head?))).toOption

/-- The command with its values. -/
def Parts.toCommand (p : Parts) : Command :=
  let r := p.own
  match p.command with
  | "generate" =>
    .generate ((r.path? .source).getD ⟨[]⟩) (r.path? .basePath) (r.mode? .mode) (r.path? .output)
  | "batch" =>
    .batch ((r.all .sources).map Path.mk) (r.path? .basePath) (r.mode? .mode)
      ((r.path? .outDir).getD ⟨[]⟩)
  | "resolve" =>
    .resolve (Utf8.toStringLossy ((r.all .reference).headD [])) (r.path? .output)
  | _ => .check

/-- The command line that arguments make up. -/
def parse (args : List Bytes) : Except Stop CommandLine := do
  let p ← readFront .initial args
  return {
    config := (p.own.path? .config).or (p.front.path? .config)
    logLevel := (p.own.level? .logLevel).or (p.front.level? .logLevel)
    command := p.toCommand }

/-! ### Words to the user -/

/-- The name and version of the program. -/
def versionLine : String := "grpcweb-loader 0.3.0"

/-- What the program is for. -/
def purpose : String := "Generate grpc-web message codecs and service stubs"

/-- The first line of a text. -/
def firstLine (text : String) : String := String.ofList (text.toList.takeWhile (· ≠ '\n'))

/-- What is said after a complaint. -/
def advice : String := "\n\nFor more information, try " ++ named "--help" ++ ".\n"

/-- The first line of a complaint, in its styles or for readers without a terminal. For those, a
command to a terminal that the user left open runs on into the advice. -/
def complaintLine (styles : Bool) (text : String) : String :=
  let whole := Terminal.styled .boldRed "error:" ++ " " ++ text ++ advice
  firstLine (if styles then whole else Terminal.strip whole)

end CommandLine

end StubLoader
