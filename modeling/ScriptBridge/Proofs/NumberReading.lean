import ScriptBridge.Proofs.NumberText
import ScriptBridge.Proofs.SteppedQuotient

/-!
# Written numbers are read

The text of a number is the shortest one that identifies it. The reader rounds the digits and the
result, each to the nearest number, and may end up next to where it began. How far a number can go
astray, and which ones cannot, is said here for every finite number.

* `Numeral.scale_law` — what a number was written as is read at most two places away from it.
* `Binary64.ReadBack` — a number, and what its text is read as.
* `Json.exists_toBinary64?_finiteText` — the text of a finite number is read back in this sense.
-/

namespace ScriptBridge

/-! ## Scaling -/

namespace Numeral

open Binary64

variable {x : Binary64} {n k : ℕ}

theorem scale_natCast (hk : k ≤ 308) (hfinite : ((ofNat n).mul (powTen k)).isFinite = true) :
    scale n k = some ((ofNat n).mul (powTen k)) := by
  simp only [scale, Int.toNat_natCast]
  rw [if_pos (by omega), if_pos (by omega), if_pos hfinite]

theorem scale_neg (hpos : 0 < k) (hk : k ≤ 308) :
    scale n (-k) = some ((ofNat n).div (powTen k)) := by
  have hsteps : (k - 1) / 308 = 0 := Nat.div_eq_of_lt (by omega)
  simp only [scale, Int.natAbs_neg, Int.natAbs_natCast, hsteps]
  rw [if_neg (by omega)]
  rfl

theorem scale_neg_of_deep {r : ℕ} (hpos : 0 < r) (hr : r ≤ 308) :
    scale n (-(308 + r : ℕ)) = some ((shrink 1 (ofNat n)).div (powTen r)) := by
  have hsteps : (308 + r - 1) / 308 = 1 := by omega
  have hrest : 308 + r - 308 * 1 = r := by omega
  simp only [scale, Int.natAbs_neg, Int.natAbs_natCast, hsteps, hrest]
  rw [if_neg (by omega)]

/-- **A number is read at most two places away from where it was written**, and in its own place if
its digits and its power of ten are not rounded. -/
theorem scale_law {exponent : ℤ} (h : x.WrittenAs n exponent) :
    ∃ y, scale n exponent = some y ∧ TwoPlaces x.magnitude y ∧
      ((ofNat n).exactValue = n → exponent.natAbs ≤ 22 → y.magnitude = x.magnitude) := by
  have hle := h.mantissa_le
  have hlow := h.le_exponent
  have hhigh := h.exponent_lt
  rcases le_or_gt 0 exponent with hnonneg | hnegative
  · obtain ⟨k, rfl⟩ := Int.eq_ofNat_of_zero_le hnonneg
    have hk : k ≤ 308 := by omega
    have hread : TwoPlaces x.magnitude ((ofNat n).mul (powTen k)) := by
      rcases Nat.lt_or_ge (x.magnitude + 2) infinityMagnitude with hlt | hlast
      · exact twoPlaces_mul hle hk h.nearest hlt
      · exact twoPlaces_last hle h.nearest h.le_largest hlast
    refine ⟨_, scale_natCast hk hread.isFinite, hread, fun hn hsmall => ?_⟩
    exact magnitude_mul (exactValue_ofNat_iff.mp hn) (by omega) h.nearest h.magnitude_lt
  obtain ⟨k, rfl⟩ : ∃ k : ℕ, exponent = -k := ⟨exponent.natAbs, by omega⟩
  have hlt := h.magnitude_add_two_lt
  rcases Nat.lt_or_ge 308 k with hdeep | hk
  · obtain ⟨r, rfl⟩ := Nat.exists_eq_add_of_le hdeep.le
    refine ⟨_, scale_neg_of_deep (by omega) (by omega),
      twoPlaces_shrink (by omega) hle h.nearest hlt, fun _ hsmall => ?_⟩
    omega
  · refine ⟨_, scale_neg (by omega) hk, twoPlaces_div hle hk h.nearest hlt, fun hn hsmall => ?_⟩
    exact magnitude_div (exactValue_ofNat_iff.mp hn) (by omega) h.nearest (by omega)

end Numeral

/-! ## The text of a number -/

namespace Binary64

/-- A number and what its text is read as: a finite number with the same sign, at most two places
away in the order of numbers. A zero is read as itself, bit for bit. So is every number whose
digits, without the point, make up a whole number that is not rounded, as all below `2 ^ 53` do, if
the power of ten with it is between `-22` and `22`. -/
structure ReadBack (x y : Binary64) : Prop where
  isFinite : y.isFinite = true
  isNegative_eq : y.isNegative = x.isNegative
  le : y.magnitude ≤ x.magnitude + 2
  ge : x.magnitude ≤ y.magnitude + 2
  zero : x.isZero = true → y = x
  exact : ∀ n, Json.NumeralText n (x.finiteText Json.numberLayout) →
    (ofNat n.mantissa).exactValue = n.mantissa → n.power.natAbs ≤ 22 → y = x

theorem magnitude_neg (x : Binary64) : x.neg.magnitude = x.magnitude :=
  magnitude_ofMagnitude x.magnitude_lt _

theorem isNegative_neg (x : Binary64) : x.neg.isNegative = !x.isNegative :=
  isNegative_ofMagnitude x.magnitude_lt _

theorem eq_of_isNegative_of_magnitude {x y : Binary64} (hsign : x.isNegative = y.isNegative)
    (hmagnitude : x.magnitude = y.magnitude) : x = y := by
  rw [← x.ofMagnitude_isNegative_magnitude, hsign, hmagnitude, y.ofMagnitude_isNegative_magnitude]

end Binary64

namespace Json

open Binary64

variable {n n' : Numeral} {cs : List Char}

/-- A text is that of one numeral only. -/
theorem NumeralText.unique (h : NumeralText n cs) (h' : NumeralText n' cs) : n = n' := by
  have hends : EndsNumeral [] := fun c hc => nomatch hc
  have hread := readNumeral_append h hends
  rw [readNumeral_append h' hends] at hread
  exact (Prod.mk.inj (Option.some.inj hread)).1.symm

/-- **The text of a finite number is read back**, at most two places away. -/
theorem exists_toBinary64?_finiteText {x : Binary64} (hfinite : x.isFinite = true) :
    ∃ n y, NumeralText n (x.finiteText numberLayout) ∧ n.toBinary64? = some y ∧ x.ReadBack y := by
  obtain ⟨n, htext, hnegative, hshort, hwritten⟩ := exists_numeralText_finiteText hfinite
  obtain ⟨y, hscale, hread, hexact⟩ := Numeral.scale_law hwritten
  have hlimit : n.mantissa < Numeral.significandLimit :=
    hwritten.mantissa_le.trans_lt (by decide)
  have habsolute : n.absolute? = some y := by rw [Numeral.absolute?_eq hlimit hshort, hscale]
  have hvalue : n.toBinary64? = some (if n.negative then y.neg else y) := by
    rw [Numeral.toBinary64?, habsolute, Option.map_some]
  have hmagnitude : (if n.negative then y.neg else y).magnitude = y.magnitude := by
    split
    · exact y.magnitude_neg
    · rfl
  have hsign : (if n.negative then y.neg else y).isNegative = x.isNegative := by
    rw [← hnegative]
    cases n.negative with
    | true => exact y.isNegative_neg.trans (by rw [hread.isNegative]; rfl)
    | false => exact hread.isNegative
  have hsame : ∀ n', NumeralText n' (x.finiteText numberLayout) →
      (ofNat n'.mantissa).exactValue = n'.mantissa → n'.power.natAbs ≤ 22 →
      (if n.negative then y.neg else y) = x := by
    intro n' htext' hdigits hpower
    obtain rfl := htext'.unique htext
    exact eq_of_isNegative_of_magnitude hsign (hmagnitude.trans (hexact hdigits hpower))
  refine ⟨n, _, htext, hvalue, ?_⟩
  constructor
  · rw [isFinite, hmagnitude]
    exact hread.isFinite
  · exact hsign
  · rw [hmagnitude]
    exact hread.le
  · rw [hmagnitude]
    exact hread.ge
  · intro hzero
    have hdigits : (ofNat 0).exactValue = (0 : ℕ) := exactValue_ofNat (by decide)
    have hpower : (-1 : ℤ).natAbs ≤ 22 := by decide
    exact hsame _ (numeralText_of_isZero hzero) hdigits hpower
  · exact hsame

end Json

end ScriptBridge
