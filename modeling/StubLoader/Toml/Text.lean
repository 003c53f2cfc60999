import StubLoader.Json.Reader
import StubLoader.Toml.Blank
/-!
# Strings

A string stands between double quotes, where a backslash begins an escape, or between single
quotes, where nothing does. Tripled quotes enclose several lines; a line end right after the
opening ones does not count, and neither does a line end after a backslash, together with all
blanks and lines that follow.
-/

namespace StubLoader.Toml

/-- The single quote. -/
def apostrophe : Char := Char.ofNat 0x27

/-- The character of a code, which must be one. -/
def ofCode? (n : Nat) : Option Char := if n.isValidChar then some (Char.ofNat n) else none

/-- The number that hexadecimal digits stand for. -/
def hexNumber? (digits : List Char) : Option Nat :=
  digits.foldlM (fun n c => (Json.hexValue? c).map (n * 16 + ·)) 0

/-- The character given by the first `count` hexadecimal digits, and the text after them. -/
def hexEscape? (count : Nat) (cs : List Char) : Option (Char × List Char) :=
  if cs.length < count then none
  else do
    let c ← ofCode? (← hexNumber? (cs.take count))
    return (c, cs.drop count)

/-- The character of the escape whose backslash was read, and the text after it. -/
def escape? : List Char → Option (Char × List Char)
  | [] => none
  | c :: cs =>
    match c with
    | 'b' => some ('\x08', cs)
    | 't' => some ('\t', cs)
    | 'n' => some ('\n', cs)
    | 'f' => some ('\x0c', cs)
    | 'r' => some ('\r', cs)
    | 'e' => some ('\x1b', cs)
    | '"' => some ('"', cs)
    | '\\' => some ('\\', cs)
    | 'x' => hexEscape? 2 cs
    | 'u' => hexEscape? 4 cs
    | 'U' => hexEscape? 8 cs
    | _ => none

/-! ### On one line -/

/-- The characters up to the closing quote of a string with escapes. The bound is never reached
when it is the length of the text. -/
def basic? : Nat → List Char → Option (List Char × List Char)
  | 0, _ => none
  | bound + 1, cs =>
    match cs with
    | [] => none
    | c :: cs =>
      if c = '"' then some ([], cs)
      else do
        let (c, rest) ← if c = '\\' then escape? cs else if isPlain c then some (c, cs) else none
        let (later, rest) ← basic? bound rest
        return (c :: later, rest)

/-- The characters up to the closing quote of a string without escapes. -/
def literal? (cs : List Char) : Option (List Char × List Char) :=
  let body := cs.takeWhile (· ≠ apostrophe)
  match cs.dropWhile (· ≠ apostrophe) with
  | [] => none
  | _ :: rest => if body.all isPlain then some (body, rest) else none

/-! ### On several lines -/

/-- The text after a line end at its start, if there is one. -/
def skipNewline (cs : List Char) : List Char := (newline? cs).getD cs

/-- The text after blanks and line ends. -/
def skipMargin : List Char → List Char
  | [] => []
  | '\r' :: '\n' :: cs => skipMargin cs
  | c :: cs => if isBlank c || c = '\n' then skipMargin cs else c :: cs

/-- The text after a line that goes on on the next one: blanks, a line end, and all blanks and line
ends that follow. -/
def continued? (cs : List Char) : Option (List Char) := (newline? (skipBlanks cs)).map skipMargin

/-- Up to two quotes before the closing ones belong to the string: the number of them and the text
after all, if the text starts with closing quotes. -/
def closing? (quote : Char) (cs : List Char) : Option (Nat × List Char) :=
  let quotes := (cs.takeWhile (· = quote)).length
  if quotes < 3 then none
  else
    let taken := min quotes 5
    some (taken - 3, cs.drop taken)

/-- The characters up to the closing quotes of a string over several lines. -/
def lines? (quote : Char) : Nat → List Char → Option (List Char × List Char)
  | 0, _ => none
  | bound + 1, cs =>
    match closing? quote cs with
    | some (count, rest) => some (List.replicate count quote, rest)
    | none =>
      match cs with
      | [] => none
      | c :: cs =>
        if c = '\\' && quote = '"' then
          match escape? cs with
          | some (c, rest) => (lines? quote bound rest).map fun (later, rest) => (c :: later, rest)
          | none => do lines? quote bound (← continued? cs)
        else if isPlain c || c = '\n' || (c = '\r' && cs.head? = some '\n') then
          (lines? quote bound cs).map fun (later, rest) => (c :: later, rest)
        else none

/-! ### Any string -/

/-- The string on one line that the text starts with. -/
def quoted? (cs : List Char) : Option (String × List Char) :=
  match cs with
  | [] => none
  | c :: cs =>
    let body := if c = '"' then basic? (cs.length + 1) cs
      else if c = apostrophe then literal? cs
      else none
    body.map fun (s, rest) => (String.ofList s, rest)

/-- The string that the text starts with. -/
def text? (cs : List Char) : Option (String × List Char) :=
  match cs with
  | a :: b :: c :: cs =>
    if (a = '"' || a = apostrophe) && b = a && c = a then
      (lines? a (cs.length + 1) (skipNewline cs)).map fun (s, rest) => (String.ofList s, rest)
    else quoted? (a :: b :: c :: cs)
  | cs => quoted? cs

end StubLoader.Toml
