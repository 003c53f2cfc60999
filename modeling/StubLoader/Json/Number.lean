import StubLoader.Decimal.Shortest
/-!
# Number literals

A double is written with the fewest digits that read back, always with a fraction or an exponent.
Reading keeps a literal as an integer when it has neither and fits into 64 bits, and makes a double
of it otherwise: the leading digits that fit into 64 bits form the significand, further ones only
count.
-/

namespace StubLoader.Json

/-! ### Writing -/

/-- The decimal digits of a number. -/
def natDigits (n : Nat) : List Char := Nat.toDigits 10 n

/-- An integer literal. -/
def printInt (n : Int) : List Char :=
  if n < 0 then '-' :: natDigits n.natAbs else natDigits n.natAbs

/-- Leading-digit exponents from here on are written with `e`. -/
def maxPlain : Int := 16

/-- Leading-digit exponents below this are written with `e`. -/
def minPlain : Int := -5

/-- `digits * 10 ^ exponent` in positional notation, with at least one digit after the point. -/
def printPlain (digits : List Char) (exponent : Int) : List Char :=
  if 0 ≤ exponent then digits ++ List.replicate exponent.toNat '0' ++ ['.', '0']
  else
    let places := exponent.natAbs
    let padded := List.replicate (places + 1 - digits.length) '0' ++ digits
    padded.take (padded.length - places) ++ '.' :: padded.drop (padded.length - places)

/-- `digits * 10 ^ exponent` with one digit before the point and a signed exponent. -/
def printScientific (digits : List Char) (exponent : Int) : List Char :=
  let power := exponent + (digits.length - 1 : Nat)
  let fraction := match digits.tail with
    | [] => []
    | ds => '.' :: ds
  digits.take 1 ++ fraction ++ 'e' :: (if power < 0 then '-' else '+') :: natDigits power.natAbs

/-- The literal of a double. -/
def printFloat (x : Binary64) : List Char :=
  let size :=
    if x.mant = 0 then ['0', '.', '0']
    else
      let d := x.shortest
      let digits := natDigits d.digits
      let power := d.exponent + (digits.length - 1 : Nat)
      if minPlain ≤ power ∧ power < maxPlain then printPlain digits d.exponent
      else printScientific digits d.exponent
  if x.negative then '-' :: size else size

/-! ### Reading -/

/-- Whether the character is a decimal digit. -/
def isDigit (c : Char) : Bool := '0' ≤ c ∧ c ≤ '9'

/-- The value of a decimal digit. -/
def digitValue (c : Char) : Nat := c.toNat - '0'.toNat

/-- The digits at the start of a text. -/
def leadingDigits (cs : List Char) : List Nat := (cs.takeWhile isDigit).map digitValue

/-- The text after its leading digits. -/
def afterDigits (cs : List Char) : List Char := cs.dropWhile isDigit

/-- The greatest significand. -/
def maxSignificand : Nat := (1 <<< 64) - 1

/-- Appends digits to a significand as long as it stays in range, and says how many were left. -/
def appendDigits (significand : Nat) : List Nat → Nat × Nat
  | [] => (significand, 0)
  | d :: ds =>
    if significand * 10 + d ≤ maxSignificand then appendDigits (significand * 10 + d) ds
    else (significand, (d :: ds).length)

/-- The integer that a literal without fraction and exponent stands for, if it is kept as one:
`-0` and what does not fit into 64 bits are not. -/
def integer? (negative : Bool) (significand : Nat) : Option Int :=
  if !negative then some significand
  else if 0 < significand ∧ significand ≤ 1 <<< 63 then some (-significand)
  else none

/-- Greatest exponent whose digits are all taken into account. -/
def maxExponent : Nat := (1 <<< 31) - 1

/-- The value of exponent digits, or the number of digits read when it grew out of range. -/
def exponentValue (read value : Nat) : List Nat → Except Nat Nat
  | [] => .ok value
  | d :: ds =>
    if value * 10 + d ≤ maxExponent then exponentValue (read + 1) (value * 10 + d) ds
    else .error (read + 1)

end StubLoader.Json
