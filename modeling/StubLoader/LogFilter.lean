import StubLoader.Batch
import StubLoader.Pattern.Reader
/-!
# Log filters

What is logged is decided by a level, or by directives: a list of `target[span{field=value}]=level`,
of which every part may be left out. Of the directives for a target the longest one counts, and
events inside a span that a directive names are logged up to its level. The value of a field is a
literal or a pattern; a later directive about the same takes the place of an earlier one.
-/

namespace StubLoader

/-- What a directive asks of a field. -/
structure FieldTest where
  name : String
  /-- The value as written, if there is one. -/
  value : Option String
  deriving DecidableEq

/-- A directive. -/
structure Directive where
  level : LogLevel
  /-- What the target begins with. -/
  target : Option String
  /-- The name of the span. -/
  span : Option String
  /-- The field that there has to be. -/
  field : Option FieldTest
  deriving DecidableEq

namespace Directive

/-- The directive for everything. -/
def everything : Directive := ⟨.trace, none, none, none⟩

/-- The level that a number stands for. -/
def ofNumber? : Nat → Option LogLevel
  | 0 => some .off
  | 1 => some .error
  | 2 => some .warn
  | 3 => some .info
  | 4 => some .debug
  | 5 => some .trace
  | _ => none

/-- The level of that name. -/
def ofName? (name : String) : Option LogLevel :=
  [LogLevel.trace, .debug, .info, .warn, .error, .off].find? fun level => level.name = name

/-- The level of that word or number; a plus may stand before a number. -/
def level? (word : List Char) : Option LogLevel :=
  let digits := if word.head? = some '+' then word.tail else word
  if digits ≠ [] ∧ digits.all Json.isDigit then
    ofNumber? (digits.foldl (fun n d => n * 10 + Json.digitValue d) 0)
  else ofName? (String.ofList (word.map Char.toLower))

/-- The part of a directive that is being read, and where it started. -/
inductive Part where
  | beginning
  | levelOrTarget (start : Nat)
  | span (start : Nat)
  | field (start : Nat)
  | afterField
  | afterSpan
  | level (start : Nat)
  deriving DecidableEq

/-- Whether digits make up a text, at least one. -/
def areDigits (cs : List Char) : Bool := !cs.isEmpty && cs.all Json.isDigit

/-- The text without a sign at its start. -/
def unsigned : List Char → List Char
  | '+' :: cs => cs
  | '-' :: cs => cs
  | cs => cs

/-- Whether a text is nothing or the exponent of a number. -/
def isExponent : List Char → Bool
  | [] => true
  | c :: cs => (c = 'e' || c = 'E') && areDigits (unsigned cs)

/-- Whether a text is a number: digits on one side of a point at least, or a word for something
without digits. -/
def isNumber (cs : List Char) : Bool :=
  let body := unsigned cs
  let rest := body.dropWhile Json.isDigit
  let places := if rest.head? = some '.' then rest.tail else []
  let after := if rest.head? = some '.' then places.dropWhile Json.isDigit else rest
  ["inf", "infinity", "nan"].contains (String.ofList (body.map Char.toLower))
    || ((body.head?.any Json.isDigit || places.head?.any Json.isDigit) && isExponent after)

/-- Whether a value is a truth value or a number rather than a pattern. -/
def isLiteral (value : String) : Bool :=
  value = "true" || value = "false" || isNumber value.toList

/-- A field with its value, if it has one, which has to be a literal or a pattern. -/
def field? (chars : List Char) : Option FieldTest :=
  let name := String.ofList (chars.takeWhile (· ≠ '='))
  match chars.dropWhile (· ≠ '=') with
  | [] => if chars = [] then none else some ⟨name, none⟩
  | _ :: later =>
    let value := String.ofList (later.takeWhile (· ≠ '='))
    if isLiteral value || (Pattern.parse? value).isSome then some ⟨name, some value⟩ else none

/-- Whether a directive may begin with the character. -/
def mayBegin (c : Char) : Bool :=
  Text.isLetterOrNumber c || c = '-' || c = ':' || c = '_'

/-- Reads one more character, the one at index `i`; `text` is all of the directive. -/
def readChar (text : List Char) (part : Part) (d : Directive) (i : Nat) (c : Char) :
    Option (Part × Directive) :=
  let since (start : Nat) : List Char := (text.drop start).take (i - start)
  let targeted (start : Nat) : Directive := { d with target := some (String.ofList (since start)) }
  let fielded (start : Nat) : Option Directive :=
    (field? (since start)).map fun field => { d with field := some field }
  match part with
  | .beginning =>
    if c = '[' then some (.span (i + 1), d)
    else if mayBegin c then some (.levelOrTarget i, d)
    else none
  | .levelOrTarget start =>
    if c = '=' then some (.level (i + 1), targeted start)
    else if c = '[' then some (.span (i + 1), targeted start)
    else some (part, d)
  | .span start =>
    if c = ']' then some (.afterSpan, { d with span := some (String.ofList (since start)) })
    else if c = '\x7b' then
      let span := if i = start then none else some (String.ofList (since start))
      some (.field (i + 1), { d with span })
    else some (part, d)
  | .field start =>
    if c = '\x7d' then (fielded start).map (.afterField, ·)
    else some (part, d)
  | .afterField => if c = ']' then some (.afterSpan, d) else none
  | .afterSpan => if c = '=' then some (.level (i + 1), d) else none
  | .level _ => some (part, d)

/-- Reads characters from index `i` on. -/
def readFrom (text : List Char) : Part → Directive → Nat → List Char → Option (Part × Directive)
  | part, d, _, [] => some (part, d)
  | part, d, i, c :: cs => do
    let (part, d) ← readChar text part d i c
    readFrom text part d (i + 1) cs

/-- The level of that word or number, or every level where nothing is said. -/
def levelOrAll? (word : List Char) : Option LogLevel :=
  if word.isEmpty then some .trace else level? word

/-- The directive that a text is. -/
def parse? (text : List Char) : Option Directive := do
  let (part, d) ← readFrom text .beginning everything 0 (Text.trim text)
  match part with
  | .levelOrTarget start =>
    let rest := text.drop start
    match levelOrAll? rest with
    | some level => return { d with level }
    | none => return { d with target := some (String.ofList rest) }
  | .level start => return { d with level := ← levelOrAll? (text.drop start) }
  | .afterSpan => return d
  | _ => none

/-- Whether a directive is about a target. -/
def coversTarget (d : Directive) (target : String) : Bool :=
  match d.target with
  | none => true
  | some start => start.toList.isPrefixOf target.toList

/-- Whether two directives are about the same. -/
def sameSubject (a b : Directive) : Bool :=
  a.target = b.target && a.span = b.span && a.field = b.field

/-- Whether the directive may be about spans. -/
def isScoped (d : Directive) : Bool := d.span.isSome || d.field.isSome

/-- Whether the directive may be about events on their own: no span is named and no value given. -/
def isPlain (d : Directive) : Bool := d.span.isNone && d.field.all (·.value.isNone)

/-- Whether the field of the directive is one of these. -/
def coversFields (d : Directive) (names : List String) : Bool :=
  d.field.all fun test => names.contains test.name

/-- How long a target is; none at all is shorter than any. -/
def targetSize (d : Directive) : Nat := (d.target.map fun t => Utf8.size t.toList + 1).getD 0

/-- Whether a directive says less closely than another what it is about. A longer target counts
first, then whether there is a field and last its name. -/
def isLessClose (a b : Directive) : Bool :=
  if a.targetSize ≠ b.targetSize then a.targetSize < b.targetSize
  else match a.field, b.field with
    | none, field => field.isSome
    | some _, none => false
    | some x, some y => x.name < y.name

end Directive

/-- What decides whether an event is logged. -/
inductive LogFilter where
  | upTo (level : LogLevel)
  | directives (list : List Directive)

namespace LogFilter

/-- The parts of a text between commas. -/
def commaParts : List Char → List (List Char)
  | [] => [[]]
  | c :: cs =>
    if c = ',' then [] :: commaParts cs
    else match commaParts cs with
      | [] => [[c]]
      | part :: parts => (c :: part) :: parts

/-- The filter of directives with commas between them, if all of them are well formed. -/
def ofDirectives? (text : String) : Option LogFilter :=
  (((commaParts text.toList).filter (· ≠ [])).mapM Directive.parse?).map .directives

/-- The closest of the directives, the last one of several that are equally close. -/
def closest (ds : List Directive) : Option Directive :=
  ds.foldl (fun best d =>
    match best with
    | none => some d
    | some b => if d.isLessClose b then some b else some d) none

/-- Whether messages of a level are logged by a filter for messages up to another. -/
def admits (upTo level : LogLevel) : Bool := upTo.rank ≤ level.rank

/-- Whether the directives without spans and values let something through; `fields` are those of an
event. Spans are let through whatever their fields are. -/
def plainly (ds : List Directive) (target : String) (fields : Option (List String))
    (level : LogLevel) : Bool :=
  let about := ds.filter fun d => d.isPlain && d.coversTarget target && fields.all d.coversFields
  match closest about with
  | some d => admits d.level level
  | none => false

/-! ### Spans -/

/-- The name of the span that a run is. -/
def spanName : String := "generate"

/-- What logs the span of a run. -/
def spanTarget : String := Event.started.target

/-- The level of the span of a run. -/
def spanLevel : LogLevel := .info

/-- The names of the fields of the span of a run. -/
def spanFieldNames : List String := ["source", "mode"]

/-- The fields of the span of a run. -/
def spanFields (r : Request) : List (String × String) :=
  spanFieldNames.zip [r.source.display, r.mode.name]

/-- Whether a directive is about spans like that of a run, whatever their fields hold. -/
def namesSpan (d : Directive) : Bool :=
  d.isScoped && d.coversTarget spanTarget && d.span.all (· = spanName)
    && d.coversFields spanFieldNames

/-- Whether a field of the span of a run is as asked for: a pattern has to match it up to its end.
No field holds a literal. -/
def holds (r : Request) (test : FieldTest) : Bool :=
  match test.value, (spanFields r).lookup test.name with
  | none, _ => true
  | some wanted, some held =>
    !Directive.isLiteral wanted && (Pattern.parse? wanted).any (·.endsWith held)
  | some _, none => false

/-- The directives without those that a later one takes the place of. -/
def lasting : List Directive → List Directive
  | [] => []
  | d :: ds => if ds.any d.sameSubject then lasting ds else d :: lasting ds

/-- Whether the span of a run is shown: always if a directive is about such spans. -/
def showsSpan (f : LogFilter) : Bool :=
  match f with
  | .upTo level => admits level spanLevel
  | .directives ds => ds.any namesSpan || plainly ds spanTarget none spanLevel

/-- Whether the directives log an event because of the run that it is in. -/
def inSpan (ds : List Directive) (r : Request) (level : LogLevel) : Bool :=
  (lasting ds).any fun d => namesSpan d && d.field.all (holds r) && admits d.level level

/-- Whether an event is logged, inside the run of a request or outside of all runs. -/
def shows (f : LogFilter) (request : Option Request) (e : Event) : Bool :=
  match f with
  | .upTo level => admits level e.level
  | .directives ds =>
    (request.any fun r => inSpan ds r e.level)
      || plainly ds e.target (some ("message" :: e.fields.map (·.1))) e.level

/-! ### Lines -/

/-- A character of a message as a log shows it: controls that a terminal could take for commands are
spelled out. -/
def showChar (c : Char) : List Char :=
  if c.toNat = 0x1b ∨ c.toNat = 7 ∨ c.toNat = 8 ∨ c.toNat = 0xc ∨ c.toNat = 0x7f then
    ['\\', 'x', Text.hexDigit 'a' (c.toNat / 16), Text.hexDigit 'a' (c.toNat % 16)]
  else if 0x80 ≤ c.toNat ∧ c.toNat ≤ 0x9f then
    ['\\', 'u', '\x7b', Text.hexDigit 'a' (c.toNat / 16), Text.hexDigit 'a' (c.toNat % 16), '\x7d']
  else [c]

/-- A message as a log shows it. -/
def showMessage (message : String) : String := String.ofList (message.toList.flatMap showChar)

/-- Fields with blanks between them. -/
def showFields (fields : List (String × String)) : String :=
  " ".intercalate (fields.map fun (name, value) => name ++ "=" ++ value)

/-- The line of the log for an event, if it is logged. -/
def line? (f : LogFilter) (request : Option Request) (e : Event) : Option String :=
  if !f.shows request e then none
  else
    let span := match request with
      | none => ""
      | some r =>
        if f.showsSpan then spanName ++ "\x7b" ++ showFields (spanFields r) ++ "\x7d: " else ""
    let fields := if e.fields.isEmpty then "" else " " ++ showFields e.fields
    some (e.level.display ++ " " ++ span ++ showMessage e.message ++ fields)

end LogFilter

end StubLoader
