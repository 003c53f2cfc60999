import StubLoader.Toml.Scalar
import StubLoader.Toml.Text
/-!
# Reading TOML

Keys, values and the lines of a document. What a document means is the table that its lines build
up; this module reads them, and the next one builds.
-/

namespace StubLoader.Toml

/-! ### Keys -/

/-- Whether the character may stand in a key without quotes. -/
def isKeyChar (c : Char) : Bool := c.isAlphanum || c = '_' || c = '-'

/-- One part of a key. -/
def keyPart? (cs : List Char) : Option (String × List Char) :=
  match cs.takeWhile isKeyChar with
  | [] => quoted? cs
  | part => some (String.ofList part, cs.dropWhile isKeyChar)

/-- A key of at most `count` parts, set apart by dots, and the text after the blanks that
follow. -/
def keyOf? : (count : Nat) → List Char → Option (List String × List Char)
  | 0, _ => none
  | count + 1, cs => do
    let (part, cs) ← keyPart? (skipBlanks cs)
    match skipBlanks cs with
    | '.' :: cs =>
      let (parts, cs) ← keyOf? count cs
      return (part :: parts, cs)
    | cs => return ([part], cs)

/-- The number of tables, arrays and parts of one key that may stand inside each other. -/
def maxDepth : Nat := 80

/-- The key that the text starts with, and the text after the blanks that follow. -/
def key? (cs : List Char) : Option (List String × List Char) := keyOf? maxDepth cs

/-- The text after a character, if it starts with it. -/
def after? (c : Char) : List Char → Option (List Char)
  | [] => none
  | d :: cs => if d = c then some cs else none

/-! ### Tables between braces -/

/-- Puts a value under a dotted key of a table between braces. The key may pass through tables that
other dotted keys made, but not through a value that stands there as a whole. -/
def extend? (value : Toml) : List String → Entries → Option Entries
  | [], _ => none
  | [key], entries =>
    match find? key entries with
    | none => some (put key value entries)
    | some _ => none
  | key :: parts, entries =>
    match find? key entries with
    | none => (extend? value parts []).map fun inner => put key (.table .dotted inner) entries
    | some (.table .dotted inner) =>
      (extend? value parts inner).map fun inner => put key (.table .dotted inner) entries
    | some _ => none

section Brackets

variable (value? : List Char → Option (Toml × List Char))

/-- A key with its value; `gap?` skips what may stand on both sides of the equals sign. -/
def entry? (gap? : List Char → Option (List Char)) (cs : List Char) :
    Option ((List String × Toml) × List Char) := do
  let (key, cs) ← key? cs
  let (value, cs) ← value? (← gap? (← after? '=' (← gap? cs)))
  return ((key, value), cs)

/-- The items of an array up to its closing bracket. -/
def items? : Nat → List Char → Option (List Toml × List Char)
  | 0, _ => none
  | bound + 1, cs => do
    match ← skip? cs with
    | ']' :: cs => return ([], cs)
    | cs =>
      let (item, cs) ← value? cs
      match ← skip? cs with
      | ',' :: cs =>
        let (items, cs) ← items? bound cs
        return (item :: items, cs)
      | ']' :: cs => return ([item], cs)
      | _ => none

/-- The entries of a table up to its closing brace. -/
def entries? : Nat → Entries → List Char → Option (Entries × List Char)
  | 0, _, _ => none
  | bound + 1, entries, cs => do
    match ← skip? cs with
    | '}' :: cs => return (entries, cs)
    | cs =>
      let ((key, value), cs) ← entry? value? skip? cs
      let entries ← extend? value key entries
      match ← skip? cs with
      | ',' :: cs => entries? bound entries cs
      | '}' :: cs => return (entries, cs)
      | _ => none

end Brackets

/-! ### Values -/

/-- A value, inside which `depth` more brackets and braces may be open at once. -/
def value? : (depth : Nat) → List Char → Option (Toml × List Char)
  | depth, cs =>
    match cs with
    | [] => none
    | c :: rest =>
      if c = '"' || c = apostrophe then (text? cs).map fun (s, cs) => (.text s, cs)
      else if c = '[' then
        match depth with
        | 0 => none
        | depth + 1 =>
          (items? (value? depth) cs.length rest).map fun (items, cs) => (.array .inline items, cs)
      else if c = '{' then
        match depth with
        | 0 => none
        | depth + 1 =>
          (entries? (value? depth) cs.length [] rest).map fun (entries, cs) =>
            (.table .inline entries, cs)
      else word? cs

/-! ### Lines -/

/-- A line that says something. -/
inductive Line where
  | entry (key : List String) (value : Toml)
  /-- The header of a table. -/
  | header (key : List String)
  /-- The header of a table in an array. -/
  | item (key : List String)

/-- The line, or the lines taken up by one entry, that the text starts with. -/
def line? (cs : List Char) : Option (Line × List Char) :=
  match cs with
  | '[' :: '[' :: cs => do
    let (key, cs) ← key? cs
    return (.item key, ← lineEnd? (← after? ']' (← after? ']' cs)))
  | '[' :: cs => do
    let (key, cs) ← key? cs
    return (.header key, ← lineEnd? (← after? ']' cs))
  | cs => do
    let ((key, value), cs) ← entry? (value? maxDepth) (fun cs => some (skipBlanks cs)) cs
    return (.entry key value, ← lineEnd? cs)

/-- The lines of a text. -/
def linesFrom? : Nat → List Char → Option (List Line)
  | 0, _ => none
  | bound + 1, cs => do
    match ← skip? cs with
    | [] => return []
    | cs =>
      let (line, cs) ← line? cs
      return line :: (← linesFrom? bound cs)

/-- The lines of a document, before which a byte order mark may stand. -/
def document? (text : String) : Option (List Line) :=
  let cs := match text.toList with
    | '\ufeff' :: cs => cs
    | cs => cs
  linesFrom? (cs.length + 1) cs

end StubLoader.Toml
