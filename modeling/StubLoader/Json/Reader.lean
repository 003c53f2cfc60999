import StubLoader.Json.Basic
import StubLoader.Json.Fault
/-!
# Reading JSON texts

Readers take the rest of a text and answer a value and what follows it. Arrays and objects are
read by `elements` and `members`, which take the reader of a part as an argument; nesting is
bounded by a depth that each bracket uses up, so `value` recurses on the depth alone.
-/

namespace StubLoader.Json

/-- Whether the character may stand between tokens. -/
def isSpace (c : Char) : Bool := c == ' ' || c == '\n' || c == '\t' || c == '\r'

/-- The text without the spaces at its start. -/
def skipSpace (cs : List Char) : List Char := cs.dropWhile isSpace

/-! ### Strings -/

/-- Where a reader of string characters stands with respect to escapes. -/
inductive Escape where
  /-- Between characters. -/
  | none
  /-- After a backslash. -/
  | slash
  /-- After `count` hexadecimal digits of a code unit, with the leading surrogate before it. -/
  | unit (high : Option Nat) (count value : Nat)
  /-- After the code unit of a leading surrogate. -/
  | high (unit : Nat)
  /-- After a leading surrogate and a backslash. -/
  | highSlash (unit : Nat)
  deriving DecidableEq

/-- The character that a one-letter escape stands for. -/
def escapeLetter? (c : Char) : Option Char :=
  if c = '"' then some '"'
  else if c = '\\' then some '\\'
  else if c = '/' then some '/'
  else if c = 'b' then some '\x08'
  else if c = 'f' then some '\x0c'
  else if c = 'n' then some '\n'
  else if c = 'r' then some '\r'
  else if c = 't' then some '\t'
  else none

/-- The value of a hexadecimal digit. -/
def hexValue? (c : Char) : Option Nat :=
  if '0' ≤ c ∧ c ≤ '9' then some (c.toNat - '0'.toNat)
  else if 'a' ≤ c ∧ c ≤ 'f' then some (c.toNat - 'a'.toNat + 10)
  else if 'A' ≤ c ∧ c ≤ 'F' then some (c.toNat - 'A'.toNat + 10)
  else none

/-- Whether a code unit leads a surrogate pair. -/
def isHigh (unit : Nat) : Bool := 0xD800 ≤ unit && unit ≤ 0xDBFF

/-- Whether a code unit ends a surrogate pair. -/
def isLow (unit : Nat) : Bool := 0xDC00 ≤ unit && unit ≤ 0xDFFF

/-- The character of a surrogate pair. -/
def pairChar (high low : Nat) : Char :=
  Char.ofNat (0x10000 + (high - 0xD800) * 0x400 + (low - 0xDC00))

/-- The fault of a code unit of which `count` digits were read and the rest starts with no digit:
its four places are taken before they are looked at. -/
def hexFault (count : Nat) (rest : List Char) : Fault :=
  if Utf8.size rest < 4 - count then ⟨.eofString, 0⟩
  else ⟨.invalidEscape, Utf8.size rest - (4 - count)⟩

/-- Puts a character before those of a read string. -/
def pushChar (c : Char) (read : Read (List Char)) : Read (List Char) :=
  read.map fun (cs, rest) => (c :: cs, rest)

/-- The characters of a string up to its closing quote. -/
def stringChars : Escape → List Char → Read (List Char)
  | .unit _ count _, [] => .error (hexFault count [])
  | _, [] => .error ⟨.eofString, 0⟩
  | .none, c :: cs =>
    if c = '"' then .ok ([], cs)
    else if c = '\\' then stringChars .slash cs
    else if c.toNat < 0x20 then .error (.before .controlCharacter cs)
    else pushChar c (stringChars .none cs)
  | .slash, c :: cs =>
    if c = 'u' then stringChars (.unit none 0 0) cs
    else match escapeLetter? c with
      | some d => pushChar d (stringChars .none cs)
      | none => .error (.next .invalidEscape (c :: cs))
  | .unit high count value, c :: cs =>
    match hexValue? c with
    | none => .error (hexFault count (c :: cs))
    | some d =>
      let unit := value * 16 + d
      if count < 3 then stringChars (.unit high (count + 1) unit) cs
      else match high with
        | none =>
          if isLow unit then .error (.before .loneSurrogate cs)
          else if isHigh unit then stringChars (.high unit) cs
          else pushChar (Char.ofNat unit) (stringChars .none cs)
        | some first =>
          if isLow unit then pushChar (pairChar first unit) (stringChars .none cs)
          else .error (.before .loneSurrogate cs)
  | .high unit, c :: cs =>
    if c = '\\' then stringChars (.highSlash unit) cs
    else .error (.next .unfinishedSurrogate (c :: cs))
  | .highSlash unit, c :: cs =>
    if c = 'u' then stringChars (.unit (some unit) 0 0) cs
    else .error (.next .unfinishedSurrogate (c :: cs))

/-- The string whose opening quote was read. -/
def string (cs : List Char) : Read String :=
  (stringChars .none cs).map fun (s, rest) => (String.ofList s, rest)

/-! ### Numbers and words -/

/-- The double of a literal that has been read up to `rest`. -/
def makeFloat (negative : Bool) (significand : Nat) (exponent : Int) (rest : List Char) :
    Read Json :=
  match Binary64.ofParts significand exponent with
  | some x => .ok (.float (x.withSign negative), rest)
  | none => .error (.before .numberOutOfRange rest)

/-- The literal from its exponent's digits on. -/
def exponentDigits (negative : Bool) (significand : Nat) (exponent : Int) (down : Bool)
    (cs : List Char) : Read Json :=
  match cs with
  | [] => .error ⟨.eofValue, 0⟩
  | c :: _ =>
    if !isDigit c then .error (.next .invalidNumber cs)
    else match exponentValue 0 0 (leadingDigits cs) with
      | .ok e =>
        makeFloat negative significand (if down then exponent - e else exponent + e)
          (afterDigits cs)
      | .error read =>
        if significand ≠ 0 ∧ !down then .error (.before .numberOutOfRange (cs.drop read))
        else .ok (.float (Binary64.zero.withSign negative), afterDigits cs)

/-- Whether the sign of an exponent points down, and the text after the sign if there is one. -/
def exponentSign : List Char → Bool × List Char
  | '-' :: r => (true, r)
  | '+' :: r => (false, r)
  | r => (false, r)

/-- Whether the character begins an exponent. -/
def isExponentMark (c : Char) : Bool := c == 'e' || c == 'E'

/-- The literal from the place on where its exponent may start. -/
def exponentPart (negative : Bool) (significand : Nat) (exponent : Int) (cs : List Char) :
    Read Json :=
  match cs with
  | [] => makeFloat negative significand exponent []
  | c :: r =>
    if isExponentMark c then
      let (down, r) := exponentSign r
      exponentDigits negative significand exponent down r
    else makeFloat negative significand exponent (c :: r)

/-- The literal from the first digit after its point on. -/
def fractionPart (negative : Bool) (significand : Nat) (exponent : Int) (cs : List Char) :
    Read Json :=
  match leadingDigits cs with
  | [] => .error (.next (if cs.isEmpty then .eofValue else .invalidNumber) cs)
  | digits =>
    let (s, skipped) := appendDigits significand digits
    exponentPart negative s (exponent - (digits.length - skipped : Nat)) (afterDigits cs)

/-- The number that has neither fraction nor exponent, of whose digits `skipped` did not fit. -/
def wholeNumber (negative : Bool) (significand skipped : Nat) (rest : List Char) : Read Json :=
  match if skipped = 0 then integer? negative significand else none with
  | some n => .ok (.int n, rest)
  | none => makeFloat negative significand skipped rest

/-- The number from after its whole digits on. -/
def afterWhole (negative : Bool) (significand skipped : Nat) (cs : List Char) : Read Json :=
  match cs with
  | [] => wholeNumber negative significand skipped []
  | c :: r =>
    if c = '.' then fractionPart negative significand skipped r
    else if isExponentMark c then exponentPart negative significand skipped (c :: r)
    else wholeNumber negative significand skipped (c :: r)

/-- The number whose sign was read. -/
def number (negative : Bool) (cs : List Char) : Read Json :=
  match cs with
  | [] => .error ⟨.eofValue, 0⟩
  | c :: r =>
    if !isDigit c then .error (.next .invalidNumber cs)
    else if c = '0' ∧ (r.head?.any isDigit) then .error (.next .invalidNumber r)
    else
      let (significand, skipped) := appendDigits 0 (leadingDigits cs)
      afterWhole negative significand skipped (afterDigits cs)

/-- The rest of a word, which stands for `v`. -/
def word (v : Json) : List Char → List Char → Read Json
  | [], cs => .ok (v, cs)
  | _ :: _, [] => .error ⟨.eofValue, 0⟩
  | w :: ws, c :: cs => if c = w then word v ws cs else .error (.next .expectedIdent (c :: cs))

/-- A value that is neither array nor object. -/
def scalar (cs : List Char) : Read Json :=
  match cs with
  | [] => .error ⟨.eofValue, 0⟩
  | c :: r =>
    if c = 'n' then word .null ['u', 'l', 'l'] r
    else if c = 't' then word (.bool true) ['r', 'u', 'e'] r
    else if c = 'f' then word (.bool false) ['a', 'l', 's', 'e'] r
    else if c = '-' then number true r
    else if isDigit c then number false cs
    else if c = '"' then (string r).map fun (s, rest) => (.str s, rest)
    else .error (.next .expectedValue cs)

/-! ### Arrays and objects -/

section Parts

variable {α σ : Type}

/-- Elements from the start of one to the closing bracket. The bound counts elements and is never
reached when it is the length of the text. -/
def elementsFrom (item : List Char → Read α) :
    Nat → List Char → Except Fault (List α × List Char)
  | 0, cs => .error (.before .eofList cs)
  | bound + 1, cs => do
    let (v, rest) ← item cs
    match skipSpace rest with
    | [] => .error ⟨.eofList, 0⟩
    | c :: r =>
      if c = ']' then .ok ([v], r)
      else if c = ',' then
        match skipSpace r with
        | [] => .error ⟨.eofValue, 0⟩
        | d :: s =>
          if d = ']' then .error (.next .trailingComma (d :: s))
          else do
            let (vs, rest) ← elementsFrom item bound (d :: s)
            return (v :: vs, rest)
      else .error (.next .expectedListEnd (c :: r))

/-- The elements of an array whose bracket was read. -/
def elements (item : List Char → Read α) (cs : List Char) : Read (List α) :=
  match skipSpace cs with
  | [] => .error ⟨.eofList, 0⟩
  | c :: r => if c = ']' then .ok ([], r) else elementsFrom item (c :: r).length (c :: r)

/-- Members from a key whose quote was read to the closing brace. Each is read by `member` from
after its key on and changes the state. -/
def membersFrom (member : σ → String → List Char → Read σ) :
    Nat → σ → List Char → Except Fault (σ × List Char)
  | 0, _, cs => .error (.before .eofObject cs)
  | bound + 1, s, cs => do
    let (key, rest) ← string cs
    let (s, rest) ← member s key rest
    match skipSpace rest with
    | [] => .error ⟨.eofObject, 0⟩
    | c :: r =>
      if c = '}' then .ok (s, r)
      else if c = ',' then
        match skipSpace r with
        | [] => .error ⟨.eofValue, 0⟩
        | d :: t =>
          if d = '"' then membersFrom member bound s t
          else if d = '}' then .error (.next .trailingComma (d :: t))
          else .error (.next .keyNotString (d :: t))
      else .error (.next .expectedObjectEnd (c :: r))

/-- The members of an object whose brace was read. -/
def members (member : σ → String → List Char → Read σ) (s : σ) (cs : List Char) : Read σ :=
  match skipSpace cs with
  | [] => .error ⟨.eofObject, 0⟩
  | c :: r =>
    if c = '}' then .ok (s, r)
    else if c = '"' then membersFrom member (c :: r).length s r
    else .error (.next .keyNotString (c :: r))

end Parts

/-- The rest of the text after the colon of a member. -/
def colon (cs : List Char) : Except Fault (List Char) :=
  match skipSpace cs with
  | [] => .error ⟨.eofObject, 0⟩
  | c :: r => if c = ':' then .ok r else .error (.next .expectedColon (c :: r))

/-- Reads the value of a member and puts it among those before it. -/
def insertMember (item : List Char → Read Json) (ms : Members) (key : String) (cs : List Char) :
    Except Fault (Members × List Char) := do
  let (v, rest) ← item (← colon cs)
  return (insert key v ms, rest)

/-- The number of brackets that may be open at once. -/
def maxDepth : Nat := 127

/-- A value, inside which `depth` more brackets may be open at once. -/
def value : Nat → List Char → Read Json
  | depth, cs =>
    match skipSpace cs with
    | [] => .error ⟨.eofValue, 0⟩
    | c :: r =>
      if c = '[' then
        match depth with
        | 0 => .error (.next .tooDeep (c :: r))
        | depth + 1 => (elements (value depth) r).map fun (vs, rest) => (.arr vs, rest)
      else if c = '{' then
        match depth with
        | 0 => .error (.next .tooDeep (c :: r))
        | depth + 1 =>
          (members (insertMember (value depth)) [] r).map fun (ms, rest) => (.obj ms, rest)
      else scalar (c :: r)

/-! ### Whole texts -/

/-- Reads a whole text: nothing but space may follow what the reader takes. -/
def readAll {α : Type} (reader : List Char → Read α) (text : String) : Except Error α :=
  Except.mapError (Fault.locate text.toList) do
    let (v, rest) ← reader text.toList
    match skipSpace rest with
    | [] => return v
    | c :: r => throw (.next .trailingCharacters (c :: r))

/-- The value that a text holds. -/
def parse (text : String) : Except Error Json := readAll (value maxDepth) text

end StubLoader.Json
