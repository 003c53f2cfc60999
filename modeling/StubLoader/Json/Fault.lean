import StubLoader.Json.Number
import StubLoader.Text.Quoted
/-!
# Faults of JSON texts

Why a text was refused and where. A reader knows only the rest of the text, so a fault holds the
number of bytes not yet read; line and column are counted once the whole text is at hand. Lines
count from one, columns in bytes.
-/

namespace StubLoader.Json

/-- What stands where something else was expected. -/
inductive Found where
  | null
  | bool (b : Bool)
  | int (n : Int)
  | float (x : Binary64)
  | str (s : String)
  | seq
  | map
  deriving DecidableEq

/-- Shows what was found. -/
def Found.text : Found → String
  | .null => "null"
  | .bool true => "boolean `true`"
  | .bool false => "boolean `false`"
  | .int n => "integer `" ++ String.ofList (printInt n) ++ "`"
  | .float x => "floating point `" ++ String.ofList (printFloat x) ++ "`"
  | .str s => "string " ++ Text.quote s
  | .seq => "sequence"
  | .map => "map"

/-- Why a text was refused. -/
inductive Cause where
  | eofValue
  | eofString
  | eofObject
  | eofList
  | expectedValue
  | expectedColon
  | expectedListEnd
  | expectedObjectEnd
  | expectedIdent
  | keyNotString
  | trailingComma
  | trailingCharacters
  | tooDeep
  | invalidNumber
  | numberOutOfRange
  | controlCharacter
  | invalidEscape
  | loneSurrogate
  | unfinishedSurrogate
  | invalidType (found : Found) (expected : String)
  | invalidValue (found : Found) (expected : String)
  | invalidLength (length : Nat) (expected : String)
  | unknownVariant (name : String) (names : List String)
  | missingField (name : String)
  | duplicateField (name : String)
  deriving DecidableEq

/-- A name in the marks that messages put around it. -/
def marked (name : String) : String := "`" ++ name ++ "`"

/-- Shows the names of which one was expected. -/
def expectedNames : List String → String
  | [] => "there are no variants"
  | [a] => "expected " ++ marked a
  | [a, b] => "expected " ++ marked a ++ " or " ++ marked b
  | names => "expected one of " ++ ", ".intercalate (names.map marked)

/-- The wording of a cause. -/
def Cause.message : Cause → String
  | .eofValue => "EOF while parsing a value"
  | .eofString => "EOF while parsing a string"
  | .eofObject => "EOF while parsing an object"
  | .eofList => "EOF while parsing a list"
  | .expectedValue => "expected value"
  | .expectedColon => "expected `:`"
  | .expectedListEnd => "expected `,` or `]`"
  | .expectedObjectEnd => "expected `,` or `\x7d`"
  | .expectedIdent => "expected ident"
  | .keyNotString => "key must be a string"
  | .trailingComma => "trailing comma"
  | .trailingCharacters => "trailing characters"
  | .tooDeep => "recursion limit exceeded"
  | .invalidNumber => "invalid number"
  | .numberOutOfRange => "number out of range"
  | .controlCharacter => "control character (\\u0000-\\u001F) found while parsing a string"
  | .invalidEscape => "invalid escape"
  | .loneSurrogate => "lone leading surrogate in hex escape"
  | .unfinishedSurrogate => "unexpected end of hex escape"
  | .invalidType found expected => "invalid type: " ++ found.text ++ ", expected " ++ expected
  | .invalidValue found expected => "invalid value: " ++ found.text ++ ", expected " ++ expected
  | .invalidLength length expected => s!"invalid length {length}, expected {expected}"
  | .unknownVariant name names =>
    "unknown variant " ++ marked name ++ ", " ++ expectedNames names
  | .missingField name => "missing field " ++ marked name
  | .duplicateField name => "duplicate field " ++ marked name

/-- A cause and the number of bytes that were still unread when it was found. -/
structure Fault where
  cause : Cause
  left : Nat
  deriving DecidableEq

/-- What a reader answers: a value and the rest of the text, or a fault. -/
abbrev Read (α : Type) := Except Fault (α × List Char)

/-- A fault between what was read and the rest. -/
def Fault.before (cause : Cause) (rest : List Char) : Fault := ⟨cause, Utf8.size rest⟩

/-- A fault at the next byte of the rest, or at the end of the text. -/
def Fault.next (cause : Cause) (rest : List Char) : Fault := ⟨cause, Utf8.size rest - 1⟩

/-- A refused text: the cause and its place. -/
structure Error where
  cause : Cause
  line : Nat
  column : Nat
  deriving DecidableEq

/-- Counts out the place of a fault in its text. -/
def Fault.locate (text : List Char) (fault : Fault) : Error :=
  let bytes := Utf8.encode text
  let read := bytes.take (bytes.length - fault.left)
  let newline := fun b : UInt8 => b == 10
  ⟨fault.cause, 1 + read.countP newline, (read.reverse.takeWhile (!newline ·)).length⟩

/-- The wording of a refusal. -/
def Error.message (e : Error) : String :=
  e.cause.message ++ s!" at line {e.line} column {e.column}"

end StubLoader.Json
