import Mathlib.Data.Rat.Floor
import Mathlib.Tactic.Ring
import ScriptBridge.Proofs.Integers

/-!
# The exact value of a number

A finite number stands for a rational with a power of two below the line. `exactValue` reads it off
the three fields of the bit pattern, in the way of the format: a fraction with a leading one, or
without for the subnormal numbers, times a power of two. All else that is said about exact values in
this library goes by counts of units, so the two are tied here.

* `Binary64.exactValue_eq` — the exact value is the count of units, with the sign.
* `Binary64.toInt_eq` — `toInt` rounds the exact value towards zero.
* `Binary64.less_iff`, `Binary64.same_iff` — finite bit patterns compare as their exact values do.
* `Binary64.exactValue_trunc` — `trunc` has the rounded value, and loses nothing else.
* `Binary64.toInt32?_eq_some_iff` — dropping the fractional part and comparing with the limits finds
  the integer that the exact value is rounded to.
* `Binary64.toInt32?_ofInt` — an integer that became a number comes back.
-/

namespace ScriptBridge

namespace Binary64

variable {x y : Binary64}

/-! ## Values and units -/

/-- The absolute value of a finite number. -/
def absoluteValue (x : Binary64) : ℚ :=
  if x.exponentField = 0 then (x.fraction : ℚ) / 2 ^ 52 * 2 ^ (-1022 : ℤ)
  else (1 + (x.fraction : ℚ) / 2 ^ 52) * 2 ^ ((x.exponentField : ℤ) - 1023)

/-- The value of a finite number. -/
def exactValue (x : Binary64) : ℚ := if x.isNegative then -x.absoluteValue else x.absoluteValue

theorem cast_unit : (unit : ℚ) = 2 ^ (1074 : ℤ) := by
  rw [unit_eq_two_pow rfl, Nat.cast_pow, Nat.cast_two]
  exact (zpow_natCast 2 1074).symm

theorem cast_unit_pos : (0 : ℚ) < unit := Nat.cast_pos.mpr unit_pos

theorem cast_exponentWeight : (exponentWeight : ℚ) = 2 ^ 52 := by norm_num [exponentWeight]

theorem two_zpow_bias (e : ℤ) : (2 : ℚ) ^ (e - 1023) = 2 ^ (e - 1) * 2 ^ 52 / unit := by
  have hsum : e - 1023 = e - 1 + 52 - 1074 := by ring
  have hpow : (2 : ℚ) ^ (52 : ℤ) = 2 ^ 52 := zpow_natCast 2 52
  rw [cast_unit, hsum, zpow_sub₀ two_ne_zero, zpow_add₀ two_ne_zero, hpow]

/-- **The absolute value is the count of units.** -/
theorem absoluteValue_eq (x : Binary64) : x.absoluteValue = x.units / unit := by
  rw [absoluteValue, units, Binary64.significand, Nat.pow_eq]
  split
  · next hzero =>
    have hbias : (-1022 : ℤ) = 1 - 1023 := rfl
    rw [hzero, hbias, two_zpow_bias, sub_self, zpow_zero, Nat.zero_sub, Nat.pow_zero, Nat.mul_one]
    generalize (unit : ℚ) = u
    ring
  · next hfield =>
    have hexponent : (x.exponentField : ℤ) - 1 = (x.exponentField - 1 : ℕ) := by omega
    rw [two_zpow_bias, hexponent, zpow_natCast, Nat.cast_mul, Nat.cast_add, cast_exponentWeight,
      Nat.cast_pow, Nat.cast_two]
    generalize (unit : ℚ) = u
    ring

/-- The count of units, with the sign. -/
def signedUnits (x : Binary64) : ℤ := if x.isNegative then -(x.units : ℤ) else x.units

/-- **The exact value is the count of units**, with the sign. -/
theorem exactValue_eq (x : Binary64) : x.exactValue = x.signedUnits / unit := by
  rw [exactValue, absoluteValue_eq, signedUnits]
  split
  · rw [Int.cast_neg, Int.cast_natCast, neg_div]
  · rw [Int.cast_natCast]

/-! ## Rounding towards zero -/

/-- The integer that is left of a rational when the fractional part is dropped. -/
def towardZero (q : ℚ) : ℤ := if 0 ≤ q then ⌊q⌋ else ⌈q⌉

theorem towardZero_neg (q : ℚ) : towardZero (-q) = -towardZero q := by
  unfold towardZero
  rcases lt_trichotomy q 0 with h | h | h
  · rw [if_pos (by linarith), if_neg (by linarith), Int.floor_neg]
  · simp [h]
  · rw [if_neg (by linarith), if_pos (by linarith), Int.ceil_neg]

theorem towardZero_natCast_div (n d : ℕ) : towardZero (n / d) = (n / d : ℕ) := by
  have hnonneg : (0 : ℚ) ≤ n / d := by positivity
  rw [towardZero, if_pos hnonneg, Rat.floor_natCast_div_natCast]
  rfl

/-- **The integral part is the exact value rounded towards zero.** -/
theorem toInt_eq (x : Binary64) : x.toInt = towardZero x.exactValue := by
  rw [toInt, exactValue, absoluteValue_eq, whole]
  split
  · rw [towardZero_neg, towardZero_natCast_div]
  · rw [towardZero_natCast_div]

theorem towardZero_lt_iff {q : ℚ} {n : ℤ} (hn : 0 < n) : towardZero q < n ↔ q < n := by
  unfold towardZero
  split
  · exact Int.floor_lt
  · next h =>
    have hq : q < 0 := not_le.mp h
    have hceil : ⌈q⌉ ≤ 0 := Int.ceil_le.mpr (by exact_mod_cast hq.le)
    have hcast : (0 : ℚ) < n := Int.cast_pos.mpr hn
    exact ⟨fun _ => hq.trans hcast, fun _ => hceil.trans_lt hn⟩

theorem lt_towardZero_iff {q : ℚ} {n : ℤ} (hn : n < 0) : n < towardZero q ↔ (n : ℚ) < q := by
  have h := towardZero_lt_iff (q := -q) (n := -n) (by omega)
  rw [towardZero_neg, neg_lt_neg_iff] at h
  rw [h]
  push_cast
  exact neg_lt_neg_iff

/-! ## Order -/

theorem fraction_lt (x : Binary64) : x.fraction < exponentWeight := Nat.mod_lt _ (by decide)

theorem magnitude_eq (x : Binary64) :
    x.magnitude = x.exponentField * exponentWeight + x.fraction :=
  (Nat.div_add_mod' x.magnitude exponentWeight).symm

/-- Every number is below the first one with the next exponent. -/
theorem units_lt (x : Binary64) : x.units < exponentWeight * 2 ^ x.exponentField := by
  have hfraction := x.fraction_lt
  rw [units, Binary64.significand, Nat.pow_eq]
  by_cases hzero : x.exponentField = 0
  · rw [if_pos hzero, hzero]
    simpa using hfraction
  · obtain ⟨e, he⟩ := Nat.exists_eq_succ_of_ne_zero hzero
    rw [if_neg hzero, he, Nat.succ_sub_one, Nat.pow_succ', ← Nat.mul_assoc]
    exact Nat.mul_lt_mul_of_pos_right (by omega) (Nat.two_pow_pos e)

theorem le_units (h : x.exponentField ≠ 0) :
    exponentWeight * 2 ^ (x.exponentField - 1) ≤ x.units := by
  rw [units, Binary64.significand, if_neg h]
  exact Nat.mul_le_mul_right _ (Nat.le_add_left _ _)

/-- Without the sign, bit patterns are ordered as the numbers are. -/
theorem units_lt_units (h : x.magnitude < y.magnitude) : x.units < y.units := by
  have hx := x.fraction_lt
  have hy := y.fraction_lt
  rw [x.magnitude_eq, y.magnitude_eq] at h
  by_cases hfield : x.exponentField = y.exponentField
  · rw [units, units, Binary64.significand, Binary64.significand, hfield]
    rw [hfield] at h
    refine Nat.mul_lt_mul_of_pos_right ?_ (Nat.two_pow_pos _)
    split <;> omega
  · have hlt : x.exponentField < y.exponentField := by
      unfold exponentWeight at *
      omega
    calc x.units < exponentWeight * 2 ^ x.exponentField := x.units_lt
      _ ≤ exponentWeight * 2 ^ (y.exponentField - 1) :=
          Nat.mul_le_mul_left _ (Nat.pow_le_pow_right Nat.two_pos (Nat.le_sub_one_of_lt hlt))
      _ ≤ y.units := le_units (Nat.ne_zero_of_lt hlt)

theorem units_lt_units_iff : x.units < y.units ↔ x.magnitude < y.magnitude := by
  refine ⟨fun h => ?_, units_lt_units⟩
  rcases Nat.lt_trichotomy x.magnitude y.magnitude with hlt | heq | hgt
  · exact hlt
  · exact absurd h (units_eq_of_magnitude_eq heq).not_lt
  · exact absurd h (units_lt_units hgt).asymm

theorem signedUnits_lt_iff : x.signedUnits < y.signedUnits ↔ x.rank < y.rank := by
  have hzero : zero.units = 0 := rfl
  have hzero' : zero.magnitude = 0 := rfl
  have hlt := units_lt_units_iff (x := x) (y := y)
  have hgt := units_lt_units_iff (x := y) (y := x)
  -- Only zero has no units.
  have hx := units_lt_units_iff (x := zero) (y := x)
  have hy := units_lt_units_iff (x := zero) (y := y)
  rw [hzero, hzero'] at hx hy
  unfold signedUnits rank
  split <;> split <;> omega

theorem not_isNaN_of_isFinite (h : x.isFinite = true) : x.isNaN = false :=
  decide_eq_false (Nat.lt_asymm (of_decide_eq_true h))

/-- **Finite bit patterns are ordered as their exact values are.** -/
theorem less_iff (hx : x.isFinite = true) (hy : y.isFinite = true) :
    x.less y = true ↔ x.exactValue < y.exactValue := by
  rw [less, not_isNaN_of_isFinite hx, not_isNaN_of_isFinite hy, exactValue_eq, exactValue_eq,
    div_lt_div_iff_of_pos_right cast_unit_pos, Int.cast_lt, signedUnits_lt_iff]
  simp

/-- The two zeros are the only bit patterns in one place. -/
theorem same_iff_rank_eq (hx : x.isNaN = false) (hy : y.isNaN = false) :
    x.same y = true ↔ x.rank = y.rank := by
  simp only [same, hx, hy, Bool.not_false, Bool.true_and, Bool.or_eq_true, Bool.and_eq_true,
    beq_iff_eq, isZero, decide_eq_true_iff]
  constructor
  · rintro (rfl | ⟨hzero, hzero'⟩)
    · rfl
    · rw [rank, rank, hzero, hzero']
      simp
  · intro hrank
    by_cases hsign : x.isNegative = y.isNegative
    · left
      have hmagnitude : x.magnitude = y.magnitude := by
        unfold rank at hrank
        rw [hsign] at hrank
        split at hrank <;> omega
      rw [← x.ofMagnitude_isNegative_magnitude, hsign, hmagnitude,
        y.ofMagnitude_isNegative_magnitude]
    · right
      unfold rank at hrank
      cases hx : x.isNegative <;> cases hy : y.isNegative <;> simp_all

/-- **Finite bit patterns are the same number if their exact values are equal.** -/
theorem same_iff (hx : x.isFinite = true) (hy : y.isFinite = true) :
    x.same y = true ↔ x.exactValue = y.exactValue := by
  have hlt := signedUnits_lt_iff (x := x) (y := y)
  have hgt := signedUnits_lt_iff (x := y) (y := x)
  have hsigned : x.signedUnits = y.signedUnits ↔ x.rank = y.rank := by omega
  rw [same_iff_rank_eq (not_isNaN_of_isFinite hx) (not_isNaN_of_isFinite hy), exactValue_eq,
    exactValue_eq, div_left_inj' cast_unit_pos.ne', Int.cast_inj, hsigned]

/-! ## Truncation -/

theorem magnitude_trunc (x : Binary64) :
    x.trunc.magnitude =
      if x.exponentField < 1023 then 0
      else x.magnitude - x.magnitude % 2 ^ (1075 - x.exponentField) := by
  refine magnitude_ofMagnitude ?_ x.isNegative
  split
  · decide
  · exact (Nat.sub_le _ _).trans_lt x.magnitude_lt

theorem isNegative_trunc (x : Binary64) : x.trunc.isNegative = x.isNegative := by
  refine isNegative_ofMagnitude ?_ x.isNegative
  split
  · decide
  · exact (Nat.sub_le _ _).trans_lt x.magnitude_lt

/-- Numbers with all fraction bits above the point are not changed. -/
theorem trunc_of_le (h : 1075 ≤ x.exponentField) : x.trunc = x := by
  have hfield : ¬ x.exponentField < 1023 := by omega
  rw [trunc, if_neg hfield, Nat.sub_eq_zero_of_le h, Nat.pow_eq, Nat.pow_zero, Nat.mod_one,
    Nat.sub_zero, ofMagnitude_isNegative_magnitude]

theorem isFinite_trunc (x : Binary64) : x.trunc.isFinite = x.isFinite := by
  by_cases h : 1075 ≤ x.exponentField
  · rw [trunc_of_le h]
  · have hfinite : x.magnitude < infinityMagnitude := by
      have hfraction := x.fraction_lt
      rw [x.magnitude_eq]
      unfold infinityMagnitude exponentWeight at *
      omega
    have htrunc : x.trunc.magnitude ≤ x.magnitude := by
      rw [magnitude_trunc]
      split
      · exact Nat.zero_le _
      · exact Nat.sub_le _ _
    rw [isFinite, isFinite, decide_eq_true hfinite, decide_eq_true (htrunc.trans_lt hfinite)]

/-- The leading bit stands for a whole number, so the bits below the point are fraction bits. -/
theorem exponentWeight_eq (hlow : 1023 ≤ x.exponentField) (hhigh : x.exponentField < 1075) :
    exponentWeight = 2 ^ (1075 - x.exponentField) * 2 ^ (x.exponentField - 1023) := by
  have hsum : 1075 - x.exponentField + (x.exponentField - 1023) = 52 := by omega
  rw [← Nat.pow_add, hsum]
  rfl

/-- The fraction bits that stand for parts smaller than one are cleared, and nothing else is. -/
theorem fields_trunc (hlow : 1023 ≤ x.exponentField) (hhigh : x.exponentField < 1075) :
    x.trunc.exponentField = x.exponentField ∧
      x.trunc.fraction = x.fraction - x.fraction % 2 ^ (1075 - x.exponentField) := by
  have hmod : x.magnitude % 2 ^ (1075 - x.exponentField) =
      x.fraction % 2 ^ (1075 - x.exponentField) := by
    rw [x.magnitude_eq, exponentWeight_eq hlow hhigh, Nat.mul_left_comm, Nat.mul_add_mod]
  have hle := Nat.mod_le x.fraction (2 ^ (1075 - x.exponentField))
  have htrunc : x.trunc.magnitude = x.exponentField * exponentWeight +
      (x.fraction - x.fraction % 2 ^ (1075 - x.exponentField)) := by
    rw [magnitude_trunc, if_neg hlow.not_gt, hmod, ← Nat.add_sub_assoc hle, ← x.magnitude_eq]
  have hlt := (Nat.sub_le _ (x.fraction % 2 ^ (1075 - x.exponentField))).trans_lt x.fraction_lt
  rw [exponentField, fraction, htrunc]
  constructor
  · rw [Nat.mul_comm, Nat.mul_add_div (by decide), Nat.div_eq_of_lt hlt, Nat.add_zero]
  · rw [Nat.mul_add_mod_self_right, Nat.mod_eq_of_lt hlt]

/-- A number with an exponent below zero is smaller than one. -/
theorem units_lt_unit (h : x.exponentField < 1023) : x.units < unit := by
  obtain ⟨rest, hrest⟩ : ∃ rest, 52 + x.exponentField + rest = 1074 :=
    ⟨1022 - x.exponentField, by omega⟩
  calc x.units < exponentWeight * 2 ^ x.exponentField := x.units_lt
    _ = 2 ^ (52 + x.exponentField) := (Nat.pow_add 2 52 x.exponentField).symm
    _ ≤ 2 ^ (52 + x.exponentField + rest) :=
        Nat.pow_le_pow_right Nat.two_pos (Nat.le_add_right _ _)
    _ = unit := (unit_eq_two_pow hrest).symm

/-- **Truncating leaves the whole part**, without loss. -/
theorem units_trunc (x : Binary64) : x.trunc.units = x.whole * unit := by
  rcases Nat.lt_or_ge x.exponentField 1023 with hsmall | hlow
  · have hzero : x.trunc.magnitude = zero.magnitude := by
      rw [magnitude_trunc, if_pos hsmall]
      rfl
    rw [units_eq_of_magnitude_eq hzero, whole, Nat.div_eq_of_lt (units_lt_unit hsmall),
      Nat.zero_mul]
    rfl
  rcases Nat.lt_or_ge x.exponentField 1075 with hhigh | hlarge
  · have hfield : x.exponentField ≠ 0 := by omega
    have hunit : unit = 2 ^ (1075 - x.exponentField) * 2 ^ (x.exponentField - 1) := by
      rw [← Nat.pow_add]
      exact unit_eq_two_pow (by omega)
    obtain ⟨hexponent, hfraction⟩ := fields_trunc hlow hhigh
    have hwhole : x.whole = (x.fraction + exponentWeight) / 2 ^ (1075 - x.exponentField) := by
      rw [whole, hunit, units, Binary64.significand, if_neg hfield]
      exact Nat.mul_div_mul_right _ _ (Nat.two_pow_pos _)
    have hsignificand : x.fraction - x.fraction % 2 ^ (1075 - x.exponentField) + exponentWeight =
        x.whole * 2 ^ (1075 - x.exponentField) := by
      rw [hwhole, exponentWeight_eq hlow hhigh, Nat.add_mul_div_left _ _ (Nat.two_pow_pos _),
        Nat.add_mul, Nat.div_mul_self_eq_mod_sub_self, Nat.mul_comm (2 ^ (1075 - x.exponentField))]
    rw [units, Binary64.significand, hexponent, if_neg hfield, hfraction, hsignificand, hunit,
      ← Nat.mul_assoc]
    rfl
  · obtain ⟨k, hk⟩ : ∃ k, k = 1074 := ⟨1074, rfl⟩
    have hdvd : unit ∣ x.units := by
      rw [unit_eq_two_pow hk, units]
      exact Dvd.dvd.mul_left (Nat.pow_dvd_pow 2 (by omega)) _
    rw [trunc_of_le hlarge, whole, Nat.div_mul_cancel hdvd]

/-- **The truncated number is the exact value rounded towards zero.** -/
theorem exactValue_trunc (x : Binary64) : x.trunc.exactValue = towardZero x.exactValue := by
  have hunit := cast_unit_pos.ne'
  rw [← toInt_eq, exactValue_eq, signedUnits, toInt, isNegative_trunc, units_trunc]
  split
  · rw [Int.cast_neg, Int.cast_natCast, Nat.cast_mul, neg_div, mul_div_cancel_right₀ _ hunit,
      Int.cast_neg, Int.cast_natCast]
  · rw [Int.cast_natCast, Nat.cast_mul, mul_div_cancel_right₀ _ hunit, Int.cast_natCast]

/-! ## Integers of thirty-two bits -/

/-- Dropping the fractional part leaves an integer of thirty-two bits. The bounds are exclusive: a
fraction beyond the smallest or the largest integer is dropped like any other. -/
def FitsInt32 (x : Binary64) : Prop :=
  x.isFinite = true ∧ -2 ^ 31 - 1 < x.exactValue ∧ x.exactValue < 2 ^ 31

theorem fitsInt32_iff (x : Binary64) :
    x.FitsInt32 ↔
      x.isFinite = true ∧ Int32.minValue.toInt ≤ x.toInt ∧ x.toInt ≤ Int32.maxValue.toInt := by
  have hmin : Int32.minValue.toInt = -2147483648 := rfl
  have hmax : Int32.maxValue.toInt = 2147483647 := rfl
  have hlow : Int32.minValue.toInt ≤ x.toInt ↔ -2 ^ 31 - 1 < x.exactValue := by
    have h := lt_towardZero_iff (q := x.exactValue) (n := Int32.minValue.toInt - 1) (by decide)
    rw [toInt_eq, ← Int.sub_one_lt_iff, h, hmin]
    norm_num
  have hhigh : x.toInt ≤ Int32.maxValue.toInt ↔ x.exactValue < 2 ^ 31 := by
    have h := towardZero_lt_iff (q := x.exactValue) (n := Int32.maxValue.toInt + 1) (by decide)
    rw [toInt_eq, ← Int.lt_add_one_iff, h, hmax]
    norm_num
  rw [FitsInt32, hlow, hhigh]

theorem exactValue_ofInt {i : ℤ} (h : i.natAbs < 2 ^ 53) : (ofInt i).exactValue = i := by
  obtain ⟨hnegative, hunits, _⟩ := ofInt_exact h
  have hsigned : (ofInt i).signedUnits = i * unit := by
    rw [signedUnits, hnegative, hunits, Nat.cast_mul]
    split
    · next hneg => rw [← neg_mul, Int.ofNat_natAbs_of_nonpos (of_decide_eq_true hneg).le, neg_neg]
    · next hneg =>
      rw [Int.natAbs_of_nonneg (not_lt.mp fun h => hneg (decide_eq_true h))]
  rw [exactValue_eq, hsigned, Int.cast_mul, Int.cast_natCast,
    mul_div_cancel_right₀ _ cast_unit_pos.ne']

theorem toInt_trunc (x : Binary64) : x.trunc.toInt = x.toInt := by
  rw [toInt, isNegative_trunc, whole, units_trunc, Nat.mul_div_cancel _ unit_pos, toInt]

theorem trunc_less_minInt32_iff (h : x.isFinite = true) :
    x.trunc.less minInt32 = true ↔ x.toInt < Int32.minValue.toInt := by
  have hlimit : Int32.minValue.toInt.natAbs < 2 ^ 53 := by decide
  have hfinite : x.trunc.isFinite = true := by rwa [isFinite_trunc]
  rw [minInt32, less_iff hfinite (ofInt_exact hlimit).2.2, exactValue_trunc,
    exactValue_ofInt hlimit, Int.cast_lt, toInt_eq]

theorem maxInt32_less_trunc_iff (h : x.isFinite = true) :
    maxInt32.less x.trunc = true ↔ Int32.maxValue.toInt < x.toInt := by
  have hlimit : Int32.maxValue.toInt.natAbs < 2 ^ 53 := by decide
  have hfinite : x.trunc.isFinite = true := by rwa [isFinite_trunc]
  rw [maxInt32, less_iff (ofInt_exact hlimit).2.2 hfinite, exactValue_trunc,
    exactValue_ofInt hlimit, Int.cast_lt, toInt_eq]

/-- **Comparing the truncated number with the limits checks the range of its integer.** -/
theorem toInt32?_eq (x : Binary64) :
    x.toInt32? =
      if x.isFinite = true ∧ Int32.minValue.toInt ≤ x.toInt ∧ x.toInt ≤ Int32.maxValue.toInt then
        some (Int32.ofInt x.toInt)
      else none := by
  rw [toInt32?, toInt_trunc, isFinite_trunc]
  by_cases hfinite : x.isFinite = true
  · have hlow := trunc_less_minInt32_iff hfinite
    have hhigh := maxInt32_less_trunc_iff hfinite
    rw [← ite_not]
    refine if_congr ?_ rfl rfl
    simp only [hfinite, Bool.not_true, Bool.false_or, Bool.or_eq_true, hlow, hhigh, not_or, not_lt,
      true_and]
  · rw [if_pos (by simp [hfinite]), if_neg fun h => hfinite h.1]

/-- **The integer of a number**, if its integral part is an integer of thirty-two bits. -/
theorem toInt32?_eq_some_iff {n : Int32} :
    x.toInt32? = some n ↔ x.FitsInt32 ∧ n.toInt = towardZero x.exactValue := by
  rw [toInt32?_eq, ← toInt_eq, fitsInt32_iff]
  constructor
  · intro h
    split at h
    · next hfits =>
      obtain rfl := Option.some.inj h
      exact ⟨hfits, Int32.toInt_ofInt_of_le hfits.2.1 (Int.lt_add_one_iff.mpr hfits.2.2)⟩
    · cases h
  · rintro ⟨hfits, hn⟩
    rw [if_pos hfits, ← hn, Int32.ofInt_toInt]

theorem toInt32?_eq_none_iff : x.toInt32? = none ↔ ¬ x.FitsInt32 := by
  rw [toInt32?_eq, fitsInt32_iff]
  split
  · next h => exact ⟨fun hnone => absurd hnone (Option.some_ne_none _), fun hnot => absurd h hnot⟩
  · next h => exact ⟨fun _ => h, fun _ => rfl⟩

/-- **An integer of thirty-two bits comes back.** -/
theorem toInt32?_ofInt (n : Int32) : (ofInt n.toInt).toInt32? = some n := by
  have habs := natAbs_toInt_lt n
  have hint := toInt_ofInt habs
  refine toInt32?_eq_some_iff.mpr ⟨(fitsInt32_iff _).mpr ?_, ?_⟩
  · rw [hint]
    exact ⟨(ofInt_exact habs).2.2, Int32.minValue_le_toInt n, Int32.toInt_le n⟩
  · rw [← toInt_eq, hint]

end Binary64

end ScriptBridge
