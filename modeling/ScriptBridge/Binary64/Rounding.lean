import ScriptBridge.Binary64

/-!
# Rounding to the nearest number

One function, `ofRatio`, rounds an exact non-negative ratio to the nearest `Binary64`, a tie going
to the even neighbour. Whole numbers, products and quotients are rounded through it. Numbers are
taken for integers of thirty-two bits by comparing them with the two limits as numbers.

## Why it is right

Scaled by `2 ^ 1074` the ratio is to be rounded to a whole number of units, of which the
leading fifty-three bits are kept. With `e` bits dropped the result is `m * 2 ^ e`, and its bit
pattern is `e * exponentWeight + m`: below the first binade `e` is zero and the pattern is `m` itself, above
it the leading bit of `m` adds the one that the exponent field is ahead of `e`. A carry out of `m`
moves to the next binade by itself.
-/

namespace ScriptBridge

/-- The whole number nearest to `num / den`; of two nearest ones, the even one. -/
def roundHalfEven (num den : Nat) : Nat :=
  let quotient := num / den
  let twice := 2 * (num % den)
  if twice < den then quotient
  else if den < twice then quotient + 1
  else quotient + quotient % 2

namespace Binary64

/-- How many low bits of a count of units fall outside the fifty-three that are kept. -/
def droppedBits (units : Nat) : Nat := units.log2 - 52

/-- The number nearest to `num / den`, infinite when it lies beyond the finite ones. -/
def ofRatio (num den : Nat) : Binary64 :=
  let dropped := droppedBits (num * unit / den)
  let kept := roundHalfEven (num * unit) (den * Nat.pow 2 dropped)
  ofMagnitude false (min infinityMagnitude (dropped * exponentWeight + kept))

/-- The number nearest to a natural number. -/
def ofNat (n : Nat) : Binary64 := ofRatio n 1

/-- The number nearest to an integer. Zero is positive. -/
def ofInt (n : Int) : Binary64 := if n < 0 then (ofNat n.natAbs).neg else ofNat n.natAbs

/-- The smallest integer of thirty-two bits, as a number. -/
def minInt32 : Binary64 := ofInt Int32.minValue.toInt

/-- The largest integer of thirty-two bits, as a number. -/
def maxInt32 : Binary64 := ofInt Int32.maxValue.toInt

/-- The integer that is left when the fractional part is dropped; nothing if that is not finite or
is outside the range of thirty-two bits. -/
def toInt32? (x : Binary64) : Option Int32 :=
  if !x.trunc.isFinite || x.trunc.less minInt32 || maxInt32.less x.trunc then none
  else some (Int32.ofInt x.trunc.toInt)

/-- The rounded product of two non-negative finite numbers. -/
def mul (x y : Binary64) : Binary64 := ofRatio (x.units * y.units) (unit * unit)

/-- The rounded quotient of two non-negative finite numbers. -/
def div (x y : Binary64) : Binary64 := ofRatio x.units y.units

/-- The number nearest to a power of ten. -/
def powTen (exponent : Nat) : Binary64 := ofNat (Nat.pow 10 exponent)

end Binary64

end ScriptBridge
