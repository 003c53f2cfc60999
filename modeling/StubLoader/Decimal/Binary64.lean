/-!
# Double precision

A finite double is a sign, an integer mantissa and a power of two. There is one way to make one
from an exact value: round the quotient of two integers to the nearest double, a half to the even
mantissa. Products and quotients of doubles are exact quotients of integers, rounded once.
-/

namespace StubLoader

/-- The finite double `mant * 2 ^ exp`, negated if `negative`. -/
structure Binary64 where
  negative : Bool
  mant : Nat
  exp : Int
  deriving DecidableEq

namespace Binary64

/-- The least exponent. -/
def minExp : Int := -1074

/-- The greatest exponent. -/
def maxExp : Int := 971

/-- Zero without a sign. -/
def zero : Binary64 := ⟨false, 0, minExp⟩

/-- The same value with the given sign. -/
def withSign (negative : Bool) (x : Binary64) : Binary64 := { x with negative }

/-- The integer nearest to `num / den`; a half goes to the even neighbour. -/
def roundDiv (num den : Nat) : Nat :=
  let q := num / den
  let r := num % den
  if 2 * r < den then q else if den < 2 * r then q + 1 else q + q % 2

/-- The numerator and denominator of `num / den / 2 ^ e`. -/
def scaled (num den : Nat) (e : Int) : Nat × Nat :=
  (num <<< (-e).toNat, den <<< e.toNat)

/-- The exponent at which `num / den` has a mantissa of 53 bits, or the least one. -/
def exponentFor (num den : Nat) : Int :=
  let e := (num.log2 : Int) - den.log2 - 53
  let (n, d) := scaled num den e
  max minExp (if 1 <<< 53 ≤ n / d then e + 1 else e)

/-- The double nearest to `num / den`, if that is finite. -/
def ofRatio (num den : Nat) : Option Binary64 :=
  if num = 0 then some zero
  else
    let e := exponentFor num den
    let (n, d) := scaled num den e
    let m := roundDiv n d
    let (m, e) := if m = 1 <<< 53 then (1 <<< 52, e + 1) else (m, e)
    if maxExp < e then none else some ⟨false, m, e⟩

/-- The size of a double as an exact quotient. -/
def ratio (x : Binary64) : Nat × Nat := (x.mant <<< x.exp.toNat, 1 <<< (-x.exp).toNat)

/-- The double nearest to the product of two sizes. -/
def mul? (x y : Binary64) : Option Binary64 :=
  ofRatio (x.ratio.1 * y.ratio.1) (x.ratio.2 * y.ratio.2)

/-- The double nearest to the quotient of two sizes. -/
def div? (x y : Binary64) : Option Binary64 :=
  ofRatio (x.ratio.1 * y.ratio.2) (x.ratio.2 * y.ratio.1)

/-- A power of ten. -/
def tenTo (n : Nat) : Nat := Nat.pow 10 n

/-- The double nearest to `digits * 10 ^ exponent`, if that is finite. -/
def ofDecimal (digits : Nat) (exponent : Int) : Option Binary64 :=
  ofRatio (digits * tenTo exponent.toNat) (tenTo (-exponent).toNat)

/-- The greatest power of ten that is a double. -/
def maxPower : Nat := 308

/-- `x * 10 ^ exponent` by one rounded product or quotient with a power of ten, a large negative
exponent being taken in strides of the greatest power. -/
def shift? (x : Binary64) (exponent : Int) : Option Binary64 :=
  if exponent.natAbs ≤ maxPower then do
    let power ← ofRatio (tenTo exponent.natAbs) 1
    if 0 ≤ exponent then x.mul? power else x.div? power
  else if x.mant = 0 then some x
  else if 0 ≤ exponent then none
  else do
    let power ← ofRatio (tenTo maxPower) 1
    let y ← x.div? power
    y.shift? (exponent + maxPower)
termination_by (-exponent).toNat
decreasing_by simp only [maxPower] at *; omega

/-- `significand * 10 ^ exponent`, the significand rounded before it is shifted. -/
def ofParts (significand : Nat) (exponent : Int) : Option Binary64 := do
  (← ofRatio significand 1).shift? exponent

end Binary64

end StubLoader
