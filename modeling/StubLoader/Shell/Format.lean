import StubLoader.Json.Reader
import StubLoader.Text.Utf8
/-!
# Formats of shell commands

Texts with escapes, and formats that arguments are put into. A format is used again as long as
arguments are left and it takes any.
-/

namespace StubLoader.Shell

/-- Whether the character is an octal digit. -/
def isOctal (c : Char) : Bool := '0' ≤ c ∧ c ≤ '7'

/-- The number that octal digits stand for. -/
def octal (ds : List Char) : Nat := ds.foldl (fun n d => n * 8 + Json.digitValue d) 0

/-- The number that decimal digits stand for. -/
def decimal (ds : List Char) : Nat := ds.foldl (fun n d => n * 10 + Json.digitValue d) 0

/-- The byte that a letter after a backslash stands for. -/
def escapes : List (Char × UInt8) :=
  [('a', 7), ('b', 8), ('e', 27), ('f', 12), ('n', 10), ('r', 13), ('t', 9), ('v', 11), ('\\', 92)]

/-- The byte of an escape, given what follows the backslash, and how long the escape is. -/
def escape? (cs : List Char) : Option (UInt8 × Nat) :=
  match (cs.take 3).takeWhile isOctal with
  | [] => do return (← escapes.lookup (← cs.head?), 1)
  | ds => some (UInt8.ofNat (octal ds), ds.length)

/-- A text with its escapes resolved, and whether it ends all output. A zero may stand before the
digits of an escape. The first characters are left out as far as `skip` tells. -/
def resolve (skip : Nat) : List Char → Bytes × Bool
  | [] => ([], false)
  | c :: cs =>
    match skip with
    | skip + 1 => resolve skip cs
    | 0 =>
      let also (bytes : Bytes) (rest : Bytes × Bool) : Bytes × Bool := (bytes ++ rest.1, rest.2)
      if c ≠ '\\' then also (Utf8.encodeChar c) (resolve 0 cs)
      else if cs.head? = some 'c' then ([], true)
      else
        let zero := cs.head? = some '0' ∧ cs.tail.head?.any isOctal
        match escape? (if zero then cs.tail else cs) with
        | some (b, n) => also [b] (resolve (if zero then n + 1 else n) cs)
        | none => also [92] (resolve 0 cs)

/-! ### Numbers -/

/-- The value of a digit in some base. -/
def digitIn? (base : Nat) (c : Char) : Option Nat := (Json.hexValue? c).filter (· < base)

/-- The number that a word stands for, and what is wrong with it. Digits are octal after a zero and
hexadecimal after a zero and an x. -/
def number (word : List Char) : Int × Option String :=
  let (negative, digits) := match word with
    | '-' :: digits => (true, digits)
    | '+' :: digits => (false, digits)
    | digits => (false, digits)
  let (base, digits) : Nat × List Char := match digits with
    | '0' :: x :: d :: digits =>
      if (x = 'x' ∨ x = 'X') ∧ (digitIn? 16 d).isSome then (16, d :: digits)
      else (8, '0' :: x :: d :: digits)
    | '0' :: digits => (8, '0' :: digits)
    | digits => (10, digits)
  let taken := digits.takeWhile fun c => (digitIn? base c).isSome
  let size := taken.foldl (fun n c => n * base + (digitIn? base c).getD 0) 0
  let fault :=
    if taken.isEmpty ∧ !word.isEmpty then some "expected numeric value"
    else if taken.length < digits.length then some "not completely converted"
    else none
  (if negative then -size else size, fault.map fun text => String.ofList word ++ ": " ++ text)

/-- The greatest number of bits in a number. -/
def wordSize : Nat := 64

/-! ### Formats -/

/-- What a format makes of arguments. -/
structure Output where
  bytes : Bytes
  /-- What is wrong with arguments. -/
  faults : List String
  /-- Whether nothing may follow. -/
  ended : Bool

/-- Bytes and nothing else. -/
def Output.ofBytes (bytes : Bytes) : Output := ⟨bytes, [], false⟩

/-- One output after another. -/
def Output.append (a b : Output) : Output :=
  if a.ended then a else ⟨a.bytes ++ b.bytes, a.faults ++ b.faults, b.ended⟩

/-- What an argument is shown as. -/
structure Directive where
  /-- Whether blanks come after the text, not before it. -/
  toLeft : Bool
  /-- Whether zeros fill a number up. -/
  zeros : Bool
  width : Nat
  kind : Char

namespace Directive

/-- The directive that a text begins with, and how long it is. -/
def read? (cs : List Char) : Option (Directive × Nat) := do
  let flags := cs.takeWhile fun c => c = '-' || c = '0'
  let digits := (cs.drop flags.length).takeWhile Char.isDigit
  let kind ← (cs.drop (flags.length + digits.length)).head?
  return (⟨flags.contains '-', flags.contains '0', decimal digits, kind⟩,
    flags.length + digits.length + 1)

/-- Fills a text up to the width; zeros go after a sign. -/
def pad (d : Directive) (sign bytes : Bytes) (zeros : Bool) : Bytes :=
  let missing := d.width - sign.length - bytes.length
  if d.toLeft then sign ++ bytes ++ List.replicate missing 32
  else if zeros then sign ++ List.replicate missing 48 ++ bytes
  else List.replicate missing 32 ++ sign ++ bytes

/-- Shows a number in some base. -/
def showNumber (d : Directive) (base : Nat) (signed : Bool) (arg : List Char) : Output :=
  let (n, fault) := number arg
  let size := if signed then n.natAbs else (n % (1 <<< wordSize : Nat)).toNat
  let sign : Bytes := if signed ∧ n < 0 then [45] else []
  ⟨d.pad sign (Utf8.encode (Nat.toDigits base size)) d.zeros, fault.toList, false⟩

/-- A small letter as a capital. -/
def capital (b : UInt8) : UInt8 := if 97 ≤ b && b ≤ 102 then b - 32 else b

/-- Shows an argument. -/
def show? (d : Directive) (arg : List Char) : Option Output :=
  let plain (bytes : Bytes) (ended : Bool) : Option Output := some ⟨d.pad [] bytes false, [], ended⟩
  match d.kind with
  | 's' => plain (Utf8.encode arg) false
  | 'c' => plain (if arg.isEmpty then [0] else (Utf8.encode arg).take 1) false
  | 'b' => plain (resolve 0 arg).1 (resolve 0 arg).2
  | 'd' | 'i' => some (d.showNumber 10 true arg)
  | 'u' => some (d.showNumber 10 false arg)
  | 'o' => some (d.showNumber 8 false arg)
  | 'x' => some (d.showNumber 16 false arg)
  | 'X' =>
    let shown := d.showNumber 16 false arg
    some { shown with bytes := shown.bytes.map capital }
  | _ => none

end Directive

/-- What a format makes of arguments, and the arguments that are left. The first characters are left
out as far as `skip` tells. -/
def formatOnce (skip : Nat) (args : List (List Char)) : List Char → Output × List (List Char)
  | [] => (.ofBytes [], args)
  | c :: cs =>
    match skip with
    | skip + 1 => formatOnce skip args cs
    | 0 =>
      let before (out : Output) (rest : Output × List (List Char)) : Output × List (List Char) :=
        (out.append rest.1, rest.2)
      if c = '\\' then
        match escape? cs with
        | some (b, n) => before (.ofBytes [b]) (formatOnce n args cs)
        | none => before (.ofBytes [92]) (formatOnce 0 args cs)
      else if c = '%' ∧ cs.head? = some '%' then before (.ofBytes [37]) (formatOnce 1 args cs)
      else if c = '%' then
        match (Directive.read? cs).bind fun (d, n) => (d.show? (args.headD [])).map (·, n) with
        | some (out, n) => before out (formatOnce n args.tail cs)
        | none => (⟨[], [], true⟩, [])
      else before (.ofBytes (Utf8.encodeChar c)) (formatOnce 0 args cs)

/-- The output of a format and its arguments. The bound is never reached when it is more than the
number of arguments. -/
def format : (bound : Nat) → (text : List Char) → (args : List (List Char)) → Output
  | 0, _, _ => .ofBytes []
  | bound + 1, text, args =>
    let (out, rest) := formatOnce 0 args text
    if out.ended ∨ rest.isEmpty ∨ rest.length = args.length then out
    else out.append (format bound text rest)

end StubLoader.Shell
