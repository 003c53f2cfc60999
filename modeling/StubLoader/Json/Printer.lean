import StubLoader.Json.Basic
import StubLoader.Json.Number
import StubLoader.Text.Quoted
/-!
# Writing JSON texts

The compact form: no spaces, members in the order of the object, and in strings only quotes,
backslashes and control characters escaped.
-/

namespace StubLoader.Json

/-- How a string literal writes a character. -/
def escape (c : Char) : List Char :=
  if c = '"' then ['\\', '"']
  else if c = '\\' then ['\\', '\\']
  else if c = '\x08' then ['\\', 'b']
  else if c = '\x0c' then ['\\', 'f']
  else if c = '\n' then ['\\', 'n']
  else if c = '\r' then ['\\', 'r']
  else if c = '\t' then ['\\', 't']
  else if c.toNat < 0x20 then
    ['\\', 'u', '0', '0', Text.hexDigit 'a' (c.toNat / 16), Text.hexDigit 'a' (c.toNat % 16)]
  else [c]

/-- A string literal. -/
def printString (s : String) : List Char := '"' :: s.toList.flatMap escape ++ ['"']

/-- Parts with commas between them. -/
def commaSeparated : List (List Char) → List Char
  | [] => []
  | [p] => p
  | p :: ps => p ++ ',' :: commaSeparated ps

/-- A member from its key to the end of its value's text. -/
def printMember (key : String) (value : List Char) : List Char := printString key ++ ':' :: value

mutual

/-- The text of a value. -/
def print : Json → List Char
  | .null => ['n', 'u', 'l', 'l']
  | .bool true => ['t', 'r', 'u', 'e']
  | .bool false => ['f', 'a', 'l', 's', 'e']
  | .int n => printInt n
  | .float x => printFloat x
  | .str s => printString s
  | .arr items => '[' :: commaSeparated (printItems items) ++ [']']
  | .obj members => '{' :: commaSeparated (printMembers members) ++ ['}']

/-- The texts of the items of an array. -/
def printItems : List Json → List (List Char)
  | [] => []
  | v :: vs => print v :: printItems vs

/-- The texts of the members of an object. -/
def printMembers : List (String × Json) → List (List Char)
  | [] => []
  | (k, v) :: ms => printMember k (print v) :: printMembers ms

end

/-- The text of a value as a string. -/
def render (v : Json) : String := String.ofList v.print

end StubLoader.Json
