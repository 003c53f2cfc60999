import StubLoader.Json.Reader
import StubLoader.Toml.Basic
import StubLoader.Toml.Moment
import StubLoader.Toml.Text
/-!
# Plain values

Whatever value is neither quoted nor bracketed is one word, with blanks inside it if another word
follows them, as a time does after a date. Digits may be set apart by underscores, each between two
of them, and a decimal number has no zeros at its front. A few words are close enough to an integer
to stand in a document but cannot be read: a base without digits (`0x`), and decimal digits with an
underscore among them that something else follows (`1_0x`).
-/

namespace StubLoader.Toml

/-! ### Numbers -/

/-- The digits that a text consists of, apart from underscores between two of them;
`afterDigit` says whether one came just before. -/
def digitsFrom? (isDigit : Char → Bool) : (afterDigit : Bool) → List Char → Option (List Char)
  | true, [] => some []
  | false, [] => none
  | afterDigit, c :: cs =>
    if c = '_' then if afterDigit then digitsFrom? isDigit false cs else none
    else if isDigit c then (digitsFrom? isDigit true cs).map (c :: ·)
    else none

/-- The digits of a text, at least one, without the underscores between them. -/
def digits? (isDigit : Char → Bool) (cs : List Char) : Option (List Char) :=
  digitsFrom? isDigit false cs

/-- The digits of a decimal number: no zero stands before others. -/
def decimal? (cs : List Char) : Option (List Char) := do
  let ds ← digits? Json.isDigit cs
  guard (ds.head? ≠ some '0' ∨ ds.length = 1)
  return ds

/-- The number that digits stand for. -/
def value (base : Nat) (ds : List Char) : Nat :=
  ds.foldl (fun n d => n * base + (Json.hexValue? d).getD 0) 0

/-- A sign at the start of a text, and the rest. -/
def sign (cs : List Char) : Bool × List Char :=
  match cs with
  | '-' :: cs => (true, cs)
  | '+' :: cs => (false, cs)
  | cs => (false, cs)

/-- Whether the character is a digit below `base`. -/
def isDigitBelow (base : Nat) (c : Char) : Bool := (Json.hexValue? c).any (· < base)

/-- The integer that a text stands for. -/
def integer? (cs : List Char) : Option Int :=
  let inBase (base : Nat) (cs : List Char) : Option Int :=
    (digits? (isDigitBelow base) cs).map fun ds => value base ds
  match cs with
  | '0' :: 'x' :: cs => inBase 16 cs
  | '0' :: 'o' :: cs => inBase 8 cs
  | '0' :: 'b' :: cs => inBase 2 cs
  | cs =>
    let (negative, cs) := sign cs
    (decimal? cs).map fun ds => if negative then -(value 10 ds : Int) else value 10 ds

/-- Beyond this power of ten, up or down, the size of a number is clear without computing it. -/
def maxPower : Int := 400

/-- The number `digits * 10 ^ exponent`. -/
def ofDecimal (negative : Bool) (digits : Nat) (exponent : Int) : Toml :=
  let power := exponent + (Json.natDigits digits).length
  if digits = 0 ∨ power < -maxPower then .real (.finite (Binary64.zero.withSign negative))
  else if maxPower < power then .illegible
  else match Binary64.ofDecimal digits exponent with
    | some x => .real (.finite (x.withSign negative))
    | none => .illegible

/-- Whether the character begins an exponent. -/
def isExponentMark (c : Char) : Bool := c = 'e' || c = 'E'

/-- The exponent at the end of a number; there need not be one. -/
def exponent? : List Char → Option Int
  | [] => some 0
  | _ :: cs =>
    let (negative, cs) := sign cs
    (digits? Json.isDigit cs).map fun ds => if negative then -(value 10 ds : Int) else value 10 ds

/-- The digits after the point of a number; there need not be a point. -/
def places? : List Char → Option (List Char)
  | [] => some []
  | _ :: cs => digits? Json.isDigit cs

/-- The number with a point, an exponent or both that a text stands for. -/
def real? (cs : List Char) : Option Toml :=
  let (negative, cs) := sign cs
  if cs = ['i', 'n', 'f'] ∨ cs = ['n', 'a', 'n'] then some (.real .special)
  else do
    let front := cs.takeWhile fun c => !isExponentMark c
    let whole ← decimal? (front.takeWhile (· ≠ '.'))
    let places ← places? (front.dropWhile (· ≠ '.'))
    let exponent ← exponent? (cs.dropWhile fun c => !isExponentMark c)
    return ofDecimal negative (value 10 (whole ++ places)) (exponent - places.length)

/-- Whether every underscore of a text stands between two hexadecimal digits; `last` is the
character before the text. -/
def separates (last : Char) : List Char → Bool
  | [] => true
  | c :: cs =>
    if c = '_' then
      isDigitBelow 16 last && cs.head?.any (isDigitBelow 16) && separates c cs
    else separates c cs

/-- Whether a text is close to an integer. -/
def isNearInteger (cs : List Char) : Bool :=
  match cs with
  | ['0', mark] => mark = 'x' || mark = 'o' || mark = 'b'
  | cs =>
    let body := (sign cs).2
    let rest := body.dropWhile Json.isDigit
    body.head?.any (fun c => Json.isDigit c && c ≠ '0') && rest.head? = some '_'
      && !rest.any (fun c => c = '.' || c = ' ' || isExponentMark c) && separates ' ' body

/-! ### Any plain value -/

/-- The value that a word stands for. -/
def ofWord? (cs : List Char) : Option Toml :=
  if cs = ['t', 'r', 'u', 'e'] then some (.bool true)
  else if cs = ['f', 'a', 'l', 's', 'e'] then some (.bool false)
  else match Moment.spelling? cs with
    | some spelling => some (.moment (String.ofList spelling))
    | none =>
      match integer? cs with
      | some n => some (.int n)
      | none =>
        match real? cs with
        | some x => some x
        | none => if isNearInteger cs then some .illegible else none

/-- Whether the character may stand in a plain value. -/
def isWordChar (c : Char) : Bool :=
  !(c = ' ' || c = '\t' || c = '\r' || c = '\n' || c = ',' || c = '=' || c = '#' || c = '['
    || c = ']' || c = '\x7b' || c = '\x7d')

/-- Whether a word that follows another one after blanks may start with the character. -/
def goesOn (c : Char) : Bool := isWordChar c && c ≠ '.' && c ≠ '"' && c ≠ apostrophe

/-- The words that the text starts with, the blanks between them included, and the rest. The bound
is never reached when it is more than the length of the text. -/
def words : Nat → List Char → List Char × List Char
  | 0, cs => ([], cs)
  | bound + 1, cs =>
    let rest := cs.dropWhile isWordChar
    let later := skipBlanks rest
    if rest.head?.any isBlank && later.head?.any goesOn then
      let (more, ending) := words bound later
      (cs.takeWhile isWordChar ++ rest.takeWhile isBlank ++ more, ending)
    else (cs.takeWhile isWordChar, rest)

/-- The plain value that the text starts with. -/
def word? (cs : List Char) : Option (Toml × List Char) :=
  let (word, rest) := words (cs.length + 1) cs
  (ofWord? word).map (·, rest)

end StubLoader.Toml
