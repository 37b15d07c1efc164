import ScriptBridge.Binary64.Shortest

/-!
# Decimal text of numbers

The digits of a number are chosen by `Binary64.shortest`. What is left to a format is the layout,
kept in one record: which numbers are written positionally, and what follows a whole number.
-/

namespace ScriptBridge

/-- The decisions of a decimal format. A number `d.ddd × 10 ^ e` is written positionally when `e`
lies between the bounds, and with an exponent otherwise. -/
structure NumberLayout where
  /-- The least exponent that is written positionally, if there is a bound. -/
  positionalFrom : Option Int
  /-- The least exponent too large to be written positionally, if there is a bound. -/
  positionalBelow : Option Int
  /-- What follows the digits of a whole number. -/
  wholeEnding : List Char

namespace NumberLayout

/-- Whether a number with this decimal exponent is written positionally. -/
def isPositional (layout : NumberLayout) (exponent : Int) : Bool :=
  layout.positionalFrom.all (· ≤ exponent) && layout.positionalBelow.all (exponent < ·)

end NumberLayout

namespace Decimal

/-- Digits on both sides of the point, padded with zeros. -/
def positional (d : Decimal) (layout : NumberLayout) : List Char :=
  if d.point ≤ 0 then
    '0' :: '.' :: (List.replicate (-d.point).toNat '0' ++ d.digits)
  else if d.point < d.digits.length then
    d.digits.take d.point.toNat ++ '.' :: d.digits.drop d.point.toNat
  else
    d.digits ++ List.replicate (d.point - d.digits.length).toNat '0' ++ layout.wholeEnding

/-- One digit before the point, and a signed exponent. -/
def scientific (d : Decimal) : List Char :=
  let exponent := d.point - 1
  let tail := match d.digits.drop 1 with
    | [] => []
    | rest => '.' :: rest
  d.digits.take 1 ++ tail ++ 'e' :: (if exponent < 0 then '-' else '+') ::
    Nat.toDigits 10 exponent.natAbs

/-- The text of a positive decimal in a format. -/
def text (d : Decimal) (layout : NumberLayout) : List Char :=
  if layout.isPositional (d.point - 1) then d.positional layout else d.scientific

end Decimal

namespace Binary64

/-- The text of a finite number in a format, a minus sign in front of negative ones. -/
def finiteText (x : Binary64) (layout : NumberLayout) : List Char :=
  let digits := if x.isZero then '0' :: layout.wholeEnding else x.shortest.text layout
  if x.isNegative then '-' :: digits else digits

/-- Numbers in messages are written positionally throughout. -/
def messageLayout : NumberLayout :=
  { positionalFrom := none, positionalBelow := none, wholeEnding := [] }

/-- The text of a number in a message. -/
def messageText (x : Binary64) : String :=
  if x.isNaN then "NaN"
  else if x.isInfinite then (if x.isNegative then "-inf" else "inf")
  else String.ofList (x.finiteText messageLayout)

end Binary64

end ScriptBridge
