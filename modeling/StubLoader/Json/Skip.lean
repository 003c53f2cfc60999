import StubLoader.Json.Reader
/-!
# Skipped values

The value of a member that nobody asks for is passed over, not read: brackets may nest to any
depth, numbers may be out of range and surrogates may stand alone, but the text must otherwise be
well formed.
-/

namespace StubLoader.Json

/-- Passes over the characters of a string up to its closing quote. -/
def skipString : Escape → List Char → Except Fault (List Char)
  | .unit _ count _, [] => .error (hexFault count [])
  | _, [] => .error ⟨.eofString, 0⟩
  | .slash, c :: cs =>
    if c = 'u' then skipString (.unit none 0 0) cs
    else if (escapeLetter? c).isSome then skipString .none cs
    else .error (.next .invalidEscape (c :: cs))
  | .unit _ count _, c :: cs =>
    match hexValue? c with
    | none => .error (hexFault count (c :: cs))
    | some _ => skipString (if count < 3 then .unit none (count + 1) 0 else .none) cs
  | _, c :: cs =>
    if c = '"' then .ok cs
    else if c = '\\' then skipString .slash cs
    else if c.toNat < 0x20 then .error (.before .controlCharacter (c :: cs))
    else skipString .none cs

/-- Passes over the digits of an exponent. -/
def skipExponentDigits (cs : List Char) : Except Fault (List Char) :=
  if cs.head?.any isDigit then .ok (afterDigits cs) else .error (.next .invalidNumber cs)

/-- Passes over an exponent, if one stands here. -/
def skipExponent (cs : List Char) : Except Fault (List Char) :=
  match cs with
  | 'e' :: '+' :: r | 'E' :: '+' :: r | 'e' :: '-' :: r | 'E' :: '-' :: r
  | 'e' :: r | 'E' :: r => skipExponentDigits r
  | _ => .ok cs

/-- Passes over the number whose sign was read. -/
def skipNumber (cs : List Char) : Except Fault (List Char) :=
  match cs with
  | [] => .error ⟨.invalidNumber, 0⟩
  | c :: r =>
    if !isDigit c then .error (.next .invalidNumber cs)
    else if c = '0' ∧ r.head?.any isDigit then .error (.next .invalidNumber r)
    else
      match (if c = '0' then r else afterDigits cs) with
      | '.' :: r =>
        if r.head?.any isDigit then skipExponent (afterDigits r)
        else .error (.next .invalidNumber r)
      | rest => skipExponent rest

/-- Passes over a value that is neither array nor object. -/
def skipScalar (cs : List Char) : Except Fault (List Char) :=
  match cs with
  | [] => .error ⟨.eofValue, 0⟩
  | c :: r =>
    if c = '-' then skipNumber r
    else if isDigit c then skipNumber cs
    else if c = '"' then skipString .none r
    else (scalar cs).map (·.2)

/-- An open bracket. -/
inductive Frame where
  | list
  | object
  deriving DecidableEq

/-- The fault of a text that ends inside a bracket. -/
def Frame.eof : Frame → Fault
  | .list => ⟨.eofList, 0⟩
  | .object => ⟨.eofObject, 0⟩

/-- The character that closes a bracket. -/
def Frame.close : Frame → Char
  | .list => ']'
  | .object => '}'

/-- The cause of a missing comma. -/
def Frame.expectedEnd : Frame → Cause
  | .list => .expectedListEnd
  | .object => .expectedObjectEnd

/-- The text from the value of the next member or item on. -/
def skipToValue (frame : Frame) (cs : List Char) : Except Fault (List Char) :=
  match frame with
  | .list => .ok cs
  | .object =>
    match skipSpace cs with
    | [] => .error ⟨.eofObject, 0⟩
    | c :: r =>
      if c = '"' then do colon (← skipString .none r) else .error (.next .keyNotString (c :: r))

/-- Passes over the value that starts here, or with `done` over what follows one, inside the open
brackets. Every step takes a character, so the bound is not reached when it exceeds the length. -/
def skipFrom : Nat → List Frame → Bool → List Char → Except Fault (List Char)
  | 0, _, _, cs => .error (.before .eofValue cs)
  | _ + 1, [], true, cs => .ok cs
  | bound + 1, frame :: frames, true, cs =>
    match skipSpace cs with
    | [] => .error frame.eof
    | c :: r =>
      if c = ',' then do skipFrom bound (frame :: frames) false (← skipToValue frame r)
      else if c = frame.close then skipFrom bound frames true r
      else .error (.next frame.expectedEnd (c :: r))
  | bound + 1, frames, false, cs =>
    match skipSpace cs with
    | [] => .error ⟨.eofValue, 0⟩
    | c :: r =>
      if c = '[' ∨ c = '{' then
        let frame := if c = '[' then Frame.list else .object
        match skipSpace r with
        | [] => .error frame.eof
        | d :: s =>
          if d = frame.close then skipFrom bound frames true s
          else do skipFrom bound (frame :: frames) false (← skipToValue frame (d :: s))
      else do skipFrom bound frames true (← skipScalar (c :: r))

/-- The text after the value that starts here. -/
def skipValue (cs : List Char) : Except Fault (List Char) :=
  skipFrom (cs.length + 1) [] false cs

end StubLoader.Json
