import ScriptBridge.Binary64.Rounding

/-!
# The fewest decimal digits that read back

A positive finite number is written with the fewest significant digits that round to it again; of
those decimals the nearest one is taken, and of two equally near ones the even one.

For one, two, … seventeen digits the search looks at the decimal grid of that many digits. The only
candidates are the two neighbours of the number on the grid: a decimal further away lies beyond
one of them, and rounding is monotone.
-/

namespace ScriptBridge

/-- A positive decimal: `0.d₁d₂… × 10 ^ point`, with a last digit that is not zero. -/
structure Decimal where
  digits : List Char
  point : Int
deriving DecidableEq, Repr

namespace Decimal

/-- The numerator and the denominator of `mantissa * 10 ^ exponent`. -/
def ratio (mantissa : Nat) (exponent : Int) : Nat × Nat :=
  (mantissa * Nat.pow 10 exponent.toNat, Nat.pow 10 (-exponent).toNat)

/-- The decimal with this whole mantissa, its trailing zeros dropped. -/
def ofMantissa (mantissa : Nat) (exponent : Int) : Decimal :=
  let digits := Nat.toDigits 10 mantissa
  { digits := (digits.reverse.dropWhile (· == '0')).reverse
    point := digits.length + exponent }

end Decimal

namespace Binary64

/-- How many decimal digits a positive natural number has. -/
def decimalLength (n : Nat) : Nat := (Nat.toDigits 10 n).length

/-- The least `p` such that the positive finite number `x` is smaller than `10 ^ p`. Below one it
counts the zeros after the point. -/
def decimalPoint (x : Binary64) : Int :=
  if unit ≤ x.units then decimalLength x.whole
  else 1 - (decimalLength ((unit - 1) / x.units) : Int)

/-- Whether `mantissa * 10 ^ exponent` rounds to `x`, up to the sign. -/
def readsBack (x : Binary64) (mantissa : Nat) (exponent : Int) : Bool :=
  let (num, den) := Decimal.ratio mantissa exponent
  (ofRatio num den).magnitude == x.magnitude

/-- The grid point `below` or its successor that is nearer to `x`, the even one on a tie. -/
def nearerNeighbour (x : Binary64) (below : Nat) (exponent : Int) : Nat :=
  let (num, den) := Decimal.ratio (2 * below + 1) exponent
  let twice := 2 * x.units * den
  let middle := num * unit
  if twice < middle then below
  else if middle < twice then below + 1
  else below + below % 2

/-- The decimal on the grid of multiples of `10 ^ exponent` that reads back as `x`, if there is
one. -/
def onGrid? (x : Binary64) (exponent : Int) : Option Nat :=
  let (num, den) := Decimal.ratio 1 exponent
  let below := x.units * den / (num * unit)
  if x.readsBack below exponent then
    some (if x.readsBack (below + 1) exponent then x.nearerNeighbour below exponent else below)
  else if x.readsBack (below + 1) exponent then some (below + 1)
  else none

/-- Search the grids of `17 - more, …, 17` digits. -/
def searchGrids (x : Binary64) (point : Int) : Nat → Option Decimal
  | 0 => none
  | more + 1 =>
    let exponent := point - (17 - more : Nat)
    (x.onGrid? exponent).map (Decimal.ofMantissa · exponent) <|> x.searchGrids point more

/-- The shortest decimal that reads back as the positive finite number `x`. Seventeen digits always
suffice; were they not enough, the exact decimal would be given. -/
def shortest (x : Binary64) : Decimal :=
  (x.searchGrids x.decimalPoint 17).getD
    (Decimal.ofMantissa (x.units * Nat.pow 10 1074 / unit) (-1074))

end Binary64

end ScriptBridge
