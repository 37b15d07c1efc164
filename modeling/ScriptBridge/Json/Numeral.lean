import ScriptBridge.Binary64.Rounding

/-!
# Numbers as JSON writes them

A numeral is kept digit by digit until it is known what it is read as.

Read as a count, a numeral has to be a whole number without sign, fraction or exponent, and fit into
sixty-four bits.

Read as a floating point number, the digits are first collected into a significand of sixty-four
bits. Digits that no longer fit are dropped; those before the point raise the exponent. The
significand is rounded to a number, and that is multiplied or divided by a power of ten, with a
second rounding. So a numeral with many digits may be read as a neighbour of the number nearest to
it. A numeral beyond the finite numbers is refused.
-/

namespace ScriptBridge

/-- A number as written: its sign and the digits of its parts. -/
structure Numeral where
  negative : Bool
  whole : List Nat
  /-- The digits after the point, if there is one. -/
  fraction : Option (List Nat)
  /-- Whether the exponent is negative, and its digits, if there is one. -/
  exponent : Option (Bool × List Nat)
deriving DecidableEq, Repr

namespace Numeral

/-- The first number that does not fit into the significand. -/
def significandLimit : Nat := UInt64.size

/-- The first number that does not fit into the exponent. -/
def exponentLimit : Nat := 0x80000000

/-- Collect digits as long as the number stays below the limit. Gives the number and the digits that
were left over. -/
def collect (limit : Nat) : Nat → List Nat → Nat × List Nat
  | n, [] => (n, [])
  | n, d :: rest => if 10 * n + d < limit then collect limit (10 * n + d) rest else (n, d :: rest)

/-- The number that digits stand for. -/
def ofDigits (digits : List Nat) : Nat := digits.foldl (fun n d => 10 * n + d) 0

/-- A whole number without sign, fraction or exponent that fits into sixty-four bits. -/
def toUInt64? (numeral : Numeral) : Option UInt64 :=
  match numeral with
  | { negative := false, whole, fraction := none, exponent := none } =>
    let n := ofDigits whole
    if n < UInt64.size then some (UInt64.ofNat n) else none
  | _ => none

/-- The significand and the power of ten that the digits before and after the point give. -/
def significand (numeral : Numeral) : Nat × Int :=
  let (n, dropped) := collect significandLimit 0 numeral.whole
  let (m, ignored) := collect significandLimit n (numeral.fraction.getD [])
  (m, (dropped.length : Int) - ((numeral.fraction.getD []).length - ignored.length : Nat))

/-- Divide `steps` times by `10 ^ 308`, unless nothing is left to divide. -/
def shrink : Nat → Binary64 → Binary64
  | 0, x => x
  | steps + 1, x => if x.isZero then x else shrink steps (x.div (.powTen 308))

/-- A significand times a power of ten, or nothing when the result is not finite. Negative powers
beyond the range of the numbers are applied in steps. -/
def scale (significand : Nat) (exponent : Int) : Option Binary64 :=
  let x := Binary64.ofNat significand
  if 0 ≤ exponent then
    if exponent ≤ 308 then
      let product := x.mul (.powTen exponent.toNat)
      if product.isFinite then some product else none
    else if significand = 0 then some x
    else none
  else
    let tens := exponent.natAbs
    let steps := (tens - 1) / 308
    some ((shrink steps x).div (.powTen (tens - 308 * steps)))

/-- The absolute value of a numeral as a floating point number. -/
def absolute? (numeral : Numeral) : Option Binary64 :=
  let (significand, exponent) := numeral.significand
  match numeral.exponent with
  | none => scale significand exponent
  | some (isNegative, digits) =>
    match collect exponentLimit 0 digits with
    | (shift, []) =>
      scale significand (if isNegative then exponent - shift else exponent + shift)
    | (_, _ :: _) => if significand = 0 ∨ isNegative then some .zero else none

/-- A numeral as a floating point number, or nothing when it lies beyond the finite ones. -/
def toBinary64? (numeral : Numeral) : Option Binary64 :=
  numeral.absolute?.map fun x => if numeral.negative then x.neg else x

end Numeral

end ScriptBridge
