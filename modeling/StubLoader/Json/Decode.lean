import StubLoader.Json.Reader
/-!
# Typed readers

Readers of texts, numbers, names of a fixed list and fixed sequences, which refuse a value of
another kind with a fault that says what stands there. A fault found by looking at a whole array
or object is placed after it; the helpers `pastBrace` and `pastBracket` find that place.
-/

namespace StubLoader.Json

/-- What a scalar is called. -/
def Found.ofScalar : Json → Found
  | .null => .null
  | .bool b => .bool b
  | .int n => .int n
  | .float x => .float x
  | .str s => .str s
  | .arr _ => .seq
  | .obj _ => .map

/-- The fault of a value that is not what was expected. A scalar is read to its end. -/
def wrongType (expected : String) (cs : List Char) : Fault :=
  if cs.head? = some '[' then .before (.invalidType .seq expected) cs
  else if cs.head? = some '{' then .before (.invalidType .map expected) cs
  else match scalar cs with
    | .ok (v, rest) => .before (.invalidType (.ofScalar v) expected) rest
    | .error fault => fault

/-- A string value. -/
def text (expected : String) (cs : List Char) : Read String :=
  match skipSpace cs with
  | [] => .error ⟨.eofValue, 0⟩
  | c :: r => if c = '"' then string r else .error (wrongType expected (c :: r))

/-- An integer value that is not negative. -/
def natural (expected : String) (cs : List Char) : Read Nat :=
  match skipSpace cs with
  | [] => .error ⟨.eofValue, 0⟩
  | c :: r =>
    if c = '-' ∨ isDigit c then
      match scalar (c :: r) with
      | .ok (.int (.ofNat n), rest) => .ok (n, rest)
      | .ok (.int n, rest) => .error (.before (.invalidValue (.int n) expected) rest)
      | .ok (v, rest) => .error (.before (.invalidType (.ofScalar v) expected) rest)
      | .error fault => .error fault
    else .error (wrongType expected (c :: r))

/-- The value `null`. -/
def unit (cs : List Char) : Except Fault (List Char) :=
  match skipSpace cs with
  | [] => .error ⟨.eofValue, 0⟩
  | c :: r =>
    if c = 'n' then (word .null ['u', 'l', 'l'] r).map (·.2)
    else .error (wrongType "unit" (c :: r))

/-- `null`, or what the reader takes. -/
def nullable {α : Type} (reader : List Char → Read α) (cs : List Char) : Read (Option α) :=
  match skipSpace cs with
  | 'n' :: r => (word .null ['u', 'l', 'l'] r).map fun (_, rest) => (none, rest)
  | _ => (reader cs).map fun (v, rest) => (some v, rest)

/-! ### Names -/

/-- A name of the list, as a string. -/
def name {α : Type} (expected : String) (choices : List (String × α)) (cs : List Char) :
    Except Fault (α × List Char) := do
  let (s, rest) ← text expected cs
  match choices.lookup s with
  | some v => return (v, rest)
  | none => throw (.before (.unknownVariant s (choices.map (·.1))) rest)

/-- A name of the list as the only key of an object whose brace was read, with `null` under it. -/
def onlyKey {α : Type} (choices : List (String × α)) (cs : List Char) :
    Except Fault (α × List Char) := do
  let (v, rest) ← name "variant identifier" choices cs
  let rest ← unit (← colon rest)
  match skipSpace rest with
  | [] => throw ⟨.eofObject, 0⟩
  | c :: r => if c = '}' then return (v, r) else throw (.before .expectedValue (c :: r))

/-- A name of the list: a string, or the only key of an object with `null` under it. -/
def variant {α : Type} (choices : List (String × α)) (depth : Nat) (cs : List Char) :
    Except Fault (α × List Char) :=
  match skipSpace cs with
  | [] => .error ⟨.eofValue, 0⟩
  | c :: r =>
    if c = '{' then
      if depth = 0 then .error (.next .tooDeep (c :: r)) else onlyKey choices r
    else if c = '"' then name "variant identifier" choices (c :: r)
    else .error (.next .expectedValue (c :: r))

/-! ### Objects with known members -/

/-- The text after a closing brace, or after the space where none stands. -/
def pastBrace (cs : List Char) : List Char :=
  match skipSpace cs with
  | '}' :: r => r
  | r => r

/-- The fault of a second member of the same name, whose key was read. -/
def duplicate (field : String) (cs : List Char) : Fault :=
  .before (.duplicateField field) (pastBrace cs)

/-- Reads the value of a member that may occur once, and remembers it. -/
def once {α : Type} (field : String) (reader : List Char → Read α) (seen : Option α)
    (cs : List Char) : Except Fault (Option α × List Char) :=
  match seen with
  | some _ => .error (duplicate field cs)
  | none => do
    let (v, rest) ← reader (← colon cs)
    return (some v, rest)

/-- The members of an object. -/
def object (depth : Nat) (cs : List Char) : Read Members :=
  match skipSpace cs with
  | [] => .error ⟨.eofValue, 0⟩
  | c :: r =>
    if c = '{' then
      match depth with
      | 0 => .error (.next .tooDeep (c :: r))
      | depth + 1 => members (insertMember (value depth)) [] r
    else .error (wrongType "a map" (c :: r))

/-! ### Fixed sequences -/

/-- Goes to the next item of an array: its start, or with `false` the closing bracket. -/
def nextItem (first : Bool) (cs : List Char) : Except Fault (Bool × List Char) :=
  match skipSpace cs with
  | [] => .error ⟨.eofList, 0⟩
  | c :: r =>
    if c = ']' then .ok (false, c :: r)
    else if first then .ok (true, c :: r)
    else if c = ',' then
      match skipSpace r with
      | [] => .error ⟨.eofValue, 0⟩
      | d :: s =>
        if d = ']' then .error (.next .trailingComma (d :: s)) else .ok (true, d :: s)
    else .error (.next .expectedListEnd (c :: r))

/-- The next item of an array of which `read` items were read, or none at its end. -/
def item? {α : Type} (read : Nat) (reader : List Char → Read α) (cs : List Char) :
    Except Fault (Option α × List Char) := do
  let (found, rest) ← nextItem (read == 0) cs
  if found then
    let (v, rest) ← reader rest
    return (some v, rest)
  else return (none, rest)

/-- The next item of an array that must have one. -/
def item {α : Type} (expected : String) (read : Nat) (reader : List Char → Read α)
    (cs : List Char) : Except Fault (α × List Char) := do
  match ← item? read reader cs with
  | (some v, rest) => return (v, rest)
  | (none, rest) => throw (.before (.invalidLength read expected) (rest.drop 1))

/-- The text after the closing bracket of an array all of whose items were read. -/
def closeList (cs : List Char) : Except Fault (List Char) :=
  match skipSpace cs with
  | [] => .error ⟨.eofList, 0⟩
  | c :: r =>
    if c = ']' then .ok r
    else if c = ',' then
      match skipSpace r with
      | [] => .error ⟨.trailingCharacters, 0⟩
      | d :: s =>
        .error (.next (if d = ']' then .trailingComma else .trailingCharacters) (d :: s))
    else .error (.next .trailingCharacters (c :: r))

end StubLoader.Json
