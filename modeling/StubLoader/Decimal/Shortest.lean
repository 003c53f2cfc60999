import StubLoader.Decimal.Binary64
/-!
# Shortest decimals

The decimal with the fewest digits among those that round to a given double, and of these the one
nearest to it. Grids of decimals are tried from the coarse to the fine; on each only the two
points around the double can lie in the interval that rounds to it.
-/

namespace StubLoader.Binary64

/-- The decimal `digits * 10 ^ exponent`. -/
structure Decimal where
  digits : Nat
  exponent : Int
  deriving DecidableEq

/-- Whether `a / b ≤ c / d`, or `<` if `strict`. -/
def ratioLe (strict : Bool) (a b c d : Nat) : Bool :=
  if strict then a * d < c * b else a * d ≤ c * b

/-- Whether `n / d` rounds to the double: it lies between the midpoints to the neighbouring
doubles, which themselves round to an even mantissa. -/
def roundsTo (x : Binary64) (n d : Nat) : Bool :=
  let strict := x.mant % 2 == 1
  let below := if x.mant = 1 <<< 52 ∧ minExp < x.exp then 1 else 2
  let low := ratio ⟨false, 4 * x.mant - below, x.exp - 2⟩
  let high := ratio ⟨false, 4 * x.mant + 2, x.exp - 2⟩
  ratioLe strict low.1 low.2 n d && ratioLe strict n d high.1 high.2

/-- The value of a decimal as an exact quotient. -/
def Decimal.ratio (x : Decimal) : Nat × Nat :=
  (x.digits * tenTo x.exponent.toNat, tenTo (-x.exponent).toNat)

/-- Whether `a / b` is nearer to `p / q` than `c / d` is, where the one lies below and the other
above; an exact tie goes to `a / b` if `even`. -/
def nearer (even : Bool) (p q a b c d : Nat) : Bool :=
  -- twice the middle of the two is `a / b + c / d`
  let twice := 2 * p * (b * d)
  let sum := (a * d + c * b) * q
  twice < sum || (twice == sum && even)

/-- The point of the grid `10 ^ g` that rounds to the double and is nearest to it, if any does. -/
def onGrid (x : Binary64) (g : Int) : Option Decimal :=
  let (p, q) := x.ratio
  let d := (p * tenTo (-g).toNat) / (q * tenTo g.toNat)
  let low : Decimal := ⟨d, g⟩
  let high : Decimal := ⟨d + 1, g⟩
  let lowHit := d != 0 && x.roundsTo low.ratio.1 low.ratio.2
  let highHit := x.roundsTo high.ratio.1 high.ratio.2
  if lowHit && highHit then
    if nearer (d % 2 == 0) p q low.ratio.1 low.ratio.2 high.ratio.1 high.ratio.2 then some low
    else some high
  else if lowHit then some low
  else if highHit then some high
  else none

/-- The first hit on the grids from `10 ^ g` downwards. -/
def firstHit (x : Binary64) : Nat → Int → Decimal
  | 0, g => ⟨0, g⟩
  | tries + 1, g => (x.onGrid g).getD (x.firstHit tries (g - 1))

/-- An exponent above that of the leading digit of the double. -/
def topGrid (x : Binary64) : Int := ((x.mant.log2 : Int) + x.exp + 1) * 30103 / 100000 + 1

/-- The shortest decimal that rounds to the double. Seventeen digits always suffice, and the
leading one lies at most two places below the first grid. -/
def shortest (x : Binary64) : Decimal := x.firstHit 20 x.topGrid

end StubLoader.Binary64
