import Mathlib.Algebra.Group.Nat.Defs
import ScriptBridge.Binary64.Rounding

/-!
# Integers as script numbers

Integers of up to fifty-three bits are script numbers exactly.

* `Binary64.units_ofMagnitude` — the exact value of a number, read off its bit pattern.
* `Binary64.units_ofNat` — a natural number below `2 ^ 53` is not rounded.
* `Binary64.toInt_ofInt` — neither is an integer.
-/

namespace ScriptBridge

theorem roundHalfEven_mul (quotient : Nat) {den : Nat} (h : 0 < den) :
    roundHalfEven (quotient * den) den = quotient := by
  have hdiv : quotient * den / den = quotient := Nat.mul_div_cancel quotient h
  have hmod : quotient * den % den = 0 := Nat.mul_mod_left quotient den
  simp only [roundHalfEven, hdiv, hmod, Nat.mul_zero, h, if_true]

namespace Binary64

/-! ## Natural numbers -/

/-- A bit pattern of an exponent and a significand with its leading bit, and its exact value. The
leading bit adds one to the exponent field. -/
theorem units_ofMagnitude {exponent significand : Nat} (hlow : exponentWeight ≤ significand)
    (hhigh : significand < 2 * exponentWeight) (hexponent : exponent < 2046) (negative : Bool) :
    (ofMagnitude negative (exponent * exponentWeight + significand)).units =
      significand * 2 ^ exponent := by
  have hlt : exponent * exponentWeight + significand < signWeight := by
    unfold exponentWeight signWeight at *
    omega
  have hfield : (exponent * exponentWeight + significand) / exponentWeight = exponent + 1 := by
    unfold exponentWeight at *
    omega
  have hfraction : (exponent * exponentWeight + significand) % exponentWeight =
      significand - exponentWeight := by
    unfold exponentWeight at *
    omega
  rw [units, Binary64.significand, exponentField, fraction, magnitude_ofMagnitude hlt, hfield,
    hfraction, if_neg (Nat.succ_ne_zero exponent), Nat.sub_add_cancel hlow, Nat.add_sub_cancel]
  rfl

theorem unit_eq_two_pow {k : Nat} (hk : k = 1074) : unit = 2 ^ k := by
  unfold unit
  rw [← hk, Nat.pow_eq]

theorem unit_pos : 0 < unit := by
  obtain ⟨k, hk⟩ : ∃ k, k = 1074 := ⟨1074, rfl⟩
  rw [unit_eq_two_pow hk]
  exact Nat.two_pow_pos k

variable {n : Nat}

theorem log2_mul_unit {k : Nat} (hk : k = 1074) (h : n ≠ 0) :
    (n * unit).log2 = n.log2 + k := by
  have hpow : 0 < 2 ^ k := Nat.two_pow_pos k
  have hlow : 2 ^ n.log2 ≤ n := Nat.log2_self_le h
  have hhigh : n < 2 ^ (n.log2 + 1) := Nat.lt_log2_self
  rw [unit_eq_two_pow hk, Nat.log2_eq_iff (Nat.mul_ne_zero h (Nat.ne_of_gt hpow)), Nat.pow_add,
    Nat.add_right_comm, Nat.pow_add]
  exact ⟨Nat.mul_le_mul_right _ hlow, Nat.mul_lt_mul_of_pos_right hhigh hpow⟩

/-- The significand of a natural number: its bits, moved up until the leading one is in place. -/
theorem significand_bounds (hpos : n ≠ 0) (h : n < 2 ^ 53) :
    exponentWeight ≤ n * 2 ^ (52 - n.log2) ∧ n * 2 ^ (52 - n.log2) < 2 * exponentWeight := by
  have hlog : n.log2 < 53 := (Nat.log2_lt hpos).mpr h
  have hlow : 2 ^ n.log2 ≤ n := Nat.log2_self_le hpos
  have hhigh : n < 2 ^ (n.log2 + 1) := Nat.lt_log2_self
  have hshift : 0 < 2 ^ (52 - n.log2) := Nat.two_pow_pos _
  constructor
  · calc exponentWeight = 2 ^ n.log2 * 2 ^ (52 - n.log2) := by
          rw [← Nat.pow_add, Nat.add_sub_cancel' (Nat.lt_succ_iff.mp hlog)]
          rfl
      _ ≤ n * 2 ^ (52 - n.log2) := Nat.mul_le_mul_right _ hlow
  · calc n * 2 ^ (52 - n.log2) < 2 ^ (n.log2 + 1) * 2 ^ (52 - n.log2) :=
          Nat.mul_lt_mul_of_pos_right hhigh hshift
      _ = 2 * exponentWeight := by
          have hsum : n.log2 + 1 + (52 - n.log2) = 53 := by omega
          rw [← Nat.pow_add, hsum]
          rfl

/-- The bit pattern of a natural number. Nothing is rounded, since all bits are kept. -/
theorem ofNat_eq (hpos : n ≠ 0) (h : n < 2 ^ 53) :
    ofNat n = ofMagnitude false ((n.log2 + 1022) * exponentWeight + n * 2 ^ (52 - n.log2)) := by
  have hlog : n.log2 < 53 := (Nat.log2_lt hpos).mpr h
  have hdropped : droppedBits (n * unit / 1) = n.log2 + 1022 := by
    rw [droppedBits, Nat.div_one, log2_mul_unit rfl hpos]
    omega
  have hexact : n * unit = n * 2 ^ (52 - n.log2) * (1 * Nat.pow 2 (n.log2 + 1022)) := by
    have hunit : unit = 2 ^ (52 - n.log2 + (n.log2 + 1022)) := unit_eq_two_pow (by omega)
    rw [hunit, Nat.one_mul, Nat.pow_eq, Nat.mul_assoc, Nat.pow_add]
  have hden : 0 < 1 * Nat.pow 2 (n.log2 + 1022) := by
    rw [Nat.one_mul, Nat.pow_eq]
    exact Nat.two_pow_pos _
  have hfinite : (n.log2 + 1022) * exponentWeight + n * 2 ^ (52 - n.log2) ≤ infinityMagnitude := by
    have hbounds := significand_bounds hpos h
    unfold infinityMagnitude exponentWeight at *
    omega
  rw [ofNat, ofRatio]
  simp only [hdropped]
  rw [hexact, roundHalfEven_mul _ hden, Nat.min_eq_right hfinite]

theorem ofNat_zero : ofNat 0 = zero := by
  simp only [ofNat, ofRatio, Nat.zero_mul, Nat.zero_div]
  rfl

/-- **A natural number below `2 ^ 53` is not rounded.** -/
theorem units_ofNat (h : n < 2 ^ 53) : (ofNat n).units = n * unit := by
  by_cases hpos : n = 0
  · rw [hpos, ofNat_zero, Nat.zero_mul]
    rfl
  have hlog : n.log2 < 53 := (Nat.log2_lt hpos).mpr h
  obtain ⟨hlow, hhigh⟩ := significand_bounds hpos h
  have hunit : unit = 2 ^ (52 - n.log2 + (n.log2 + 1022)) := unit_eq_two_pow (by omega)
  rw [ofNat_eq hpos h, units_ofMagnitude hlow hhigh (by omega), Nat.mul_assoc,
    ← Nat.pow_add 2 (52 - n.log2), hunit]

/-- Such a number is not negative, and it is finite. -/
theorem ofNat_eq_ofMagnitude (h : n < 2 ^ 53) :
    ∃ magnitude < infinityMagnitude, ofNat n = ofMagnitude false magnitude := by
  by_cases hpos : n = 0
  · exact ⟨0, by decide, by rw [hpos, ofNat_zero]; rfl⟩
  have hlog : n.log2 < 53 := (Nat.log2_lt hpos).mpr h
  obtain ⟨_, hhigh⟩ := significand_bounds hpos h
  refine ⟨_, ?_, ofNat_eq hpos h⟩
  unfold infinityMagnitude exponentWeight at *
  omega

/-! ## Integers -/

theorem units_eq_of_magnitude_eq {x y : Binary64} (h : x.magnitude = y.magnitude) :
    x.units = y.units := by
  unfold units Binary64.significand exponentField fraction
  rw [h]

/-- An integer of up to fifty-three bits: its sign, its absolute value, and it is finite. -/
theorem ofInt_exact {i : Int} (h : i.natAbs < 2 ^ 53) :
    (ofInt i).isNegative = decide (i < 0) ∧ (ofInt i).units = i.natAbs * unit ∧
      (ofInt i).isFinite = true := by
  obtain ⟨magnitude, hfinite, heq⟩ := ofNat_eq_ofMagnitude h
  have hlt : magnitude < signWeight := by
    unfold infinityMagnitude exponentWeight at hfinite
    unfold signWeight
    omega
  have hint : ofInt i = ofMagnitude (decide (i < 0)) magnitude := by
    rw [ofInt, heq]
    split
    · next hneg =>
      rw [neg, isNegative_ofMagnitude hlt, magnitude_ofMagnitude hlt, decide_eq_true hneg]
      rfl
    · next hneg => rw [decide_eq_false hneg]
  have hmagnitude : (ofInt i).magnitude = magnitude := by
    rw [hint, magnitude_ofMagnitude hlt]
  refine ⟨?_, ?_, ?_⟩
  · rw [hint, isNegative_ofMagnitude hlt]
  · rw [← units_ofNat h]
    refine units_eq_of_magnitude_eq ?_
    rw [hmagnitude, heq, magnitude_ofMagnitude hlt]
  · rw [isFinite, hmagnitude]
    exact decide_eq_true hfinite

/-- **An integer of up to fifty-three bits is not rounded.** -/
theorem toInt_ofInt {i : Int} (h : i.natAbs < 2 ^ 53) : (ofInt i).toInt = i := by
  obtain ⟨hnegative, hunits, _⟩ := ofInt_exact h
  rw [toInt, whole, hnegative, hunits, Nat.mul_div_cancel _ unit_pos]
  split
  · next hneg =>
    rw [decide_eq_true_eq] at hneg
    omega
  · next hneg =>
    rw [decide_eq_true_eq] at hneg
    omega

theorem natAbs_toInt_lt (n : Int32) : n.toInt.natAbs < 2 ^ 53 := by
  have hlow : Int32.minValue.toInt ≤ n.toInt := Int32.minValue_le_toInt n
  have hhigh : n.toInt ≤ Int32.maxValue.toInt := Int32.toInt_le n
  have hmin : Int32.minValue.toInt = -2147483648 := rfl
  have hmax : Int32.maxValue.toInt = 2147483647 := rfl
  omega

end Binary64

end ScriptBridge
