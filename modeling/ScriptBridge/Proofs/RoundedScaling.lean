import ScriptBridge.Proofs.ShortestDecimal

/-!
# Whole numbers times powers of ten

A whole number is rounded, and so is a power of ten, and their product or quotient is rounded once
more. Each of the first two roundings changes the result by one part in `2 ^ 53` at most, and that
moves it by one place at most. So the result is no more than two places away from the number nearest
to the exact one.

* `Binary64.within_ofNat`, `Binary64.within_powTen` — what is lost of the number and of the power.
* `Binary64.TwoPlaces`, `Binary64.Rounds.twoPlaces` — two changes of one part before a rounding.
* `Binary64.twoPlaces_mul`, `Binary64.twoPlaces_div` — products and quotients.
* `Binary64.magnitude_mul`, `Binary64.magnitude_div` — those of which nothing is lost.
* `Binary64.twoPlaces_last` — the end of the range, where two places more would be infinite.
-/

namespace ScriptBridge

namespace Binary64

variable {x y : Binary64} {q q' q'' : ℚ} {place : ℕ}

/-! ## Rounded results -/

theorem rounds_ofNat (n : ℕ) : Rounds (n * unit) (ofNat n) := by
  have h := rounds_ofRatio n Nat.one_pos
  rwa [Nat.cast_mul, Nat.cast_one, div_one] at h

theorem rounds_mul (x y : Binary64) : Rounds (x.units * y.units / unit) (x.mul y) := by
  have h := rounds_ofRatio (x.units * y.units) (Nat.mul_pos unit_pos unit_pos)
  have hunit := cast_unit_pos.ne'
  rw [Nat.cast_mul, Nat.cast_mul, Nat.cast_mul, mul_div_mul_right _ _ hunit] at h
  exact h

theorem rounds_div (x : Binary64) (hy : 0 < y.units) :
    Rounds (x.units * unit / y.units) (x.div y) := by
  have h := rounds_ofRatio x.units hy
  rwa [Nat.cast_mul] at h

/-- A rational up to a power of ten is rounded to a finite number. -/
theorem Rounds.nearest_of_le (h : Rounds q y) {k : ℕ} (hk : k ≤ 308) (hle : q ≤ 10 ^ k * unit) :
    Nearest q y.magnitude := by
  obtain ⟨place, hplace, -⟩ := id h
  obtain ⟨m, hm, hpower⟩ : ∃ m, m = 308 ∧ Nat.pow 10 m * unit ≤ unitsAt (infinityMagnitude - 1) :=
    ⟨308, rfl, by decide +kernel⟩
  have hpower' : (10 ^ m * unit : ℚ) ≤ unitsAt (infinityMagnitude - 1) := by exact_mod_cast hpower
  have hkm : (10 ^ k : ℚ) ≤ 10 ^ m := pow_le_pow_right₀ (by norm_num) (by omega)
  have hmul := mul_le_mul_of_nonneg_right hkm cast_unit_pos.le
  have hlast := hplace.le_of_le (nearest_unitsAt (infinityMagnitude - 1))
    (hle.trans (hmul.trans hpower'))
  have hinfinity : 0 < infinityMagnitude := by decide
  rw [h.magnitude_eq_of_lt hplace (by omega)]
  exact hplace

/-- A whole number with few digits is rounded by one part at most. -/
theorem within_ofNat {n k : ℕ} (hk : k ≤ 308) (hle : n ≤ 10 ^ k) :
    Within 1 (n * unit) (ofNat n).units := by
  have hle' : (n * unit : ℚ) ≤ 10 ^ k * unit := by
    have hcast : (n : ℚ) ≤ 10 ^ k := by exact_mod_cast hle
    exact mul_le_mul_of_nonneg_right hcast cast_unit_pos.le
  have hnearest := (rounds_ofNat n).nearest_of_le hk hle'
  rcases Nat.eq_zero_or_pos n with rfl | hpos
  · rw [units_ofNat (by decide), Nat.zero_mul, Nat.cast_zero, zero_mul]
    exact .refl le_rfl zero_le_one
  · -- From one on, numbers are not subnormal.
    rw [units_eq_unitsAt]
    refine hnearest.within_one (mul_nonneg (Nat.cast_nonneg n) cast_unit_pos.le) ?_
    have hone : unitsAt exponentWeight ≤ unit := by decide +kernel
    have hunit : unitsAt exponentWeight ≤ n * unit :=
      hone.trans (Nat.le_mul_of_pos_left unit hpos)
    exact (nearest_unitsAt exponentWeight).le_of_le hnearest (by exact_mod_cast hunit)

theorem within_powTen {k : ℕ} (hk : k ≤ 308) : Within 1 (10 ^ k * unit) (powTen k).units := by
  have h := within_ofNat hk (le_refl (10 ^ k))
  rw [Nat.cast_pow, Nat.cast_ofNat] at h
  exact h

theorem powTen_units_pos {k : ℕ} (hk : k ≤ 308) : 0 < (powTen k).units := by
  have hle := (within_powTen hk).le_right
  have hpos : (0 : ℚ) < 10 ^ k * unit := mul_pos (by positivity) cast_unit_pos
  have hunits : (0 : ℚ) < (powTen k).units := by linarith
  exact_mod_cast hunits

/-- Small powers of ten are not rounded. -/
theorem units_powTen {k : ℕ} (hk : k ≤ 22) : (powTen k).units = 10 ^ k * unit := by
  have hall : ∀ k < 23, (powTen k).units = Nat.pow 10 k * unit := by decide +kernel
  exact hall k (by omega)

/-! ## Up to two places -/

/-- A number that is not negative, finite, and at most two places away from a place. -/
structure TwoPlaces (place : ℕ) (y : Binary64) : Prop where
  isNegative : y.isNegative = false
  isFinite : y.isFinite = true
  le : y.magnitude ≤ place + 2
  ge : place ≤ y.magnitude + 2

instance (place : ℕ) (y : Binary64) : Decidable (TwoPlaces place y) :=
  decidable_of_iff (y.isNegative = false ∧ y.isFinite = true ∧ y.magnitude ≤ place + 2 ∧
      place ≤ y.magnitude + 2)
    ⟨fun ⟨hnegative, hfinite, hle, hge⟩ => ⟨hnegative, hfinite, hle, hge⟩,
      fun ⟨hnegative, hfinite, hle, hge⟩ => ⟨hnegative, hfinite, hle, hge⟩⟩

/-- Two changes of one part each before the last rounding. -/
theorem Rounds.twoPlaces (h : Rounds q'' y) (hplace : Nearest q place)
    (hlt : place + 2 < infinityMagnitude) (hq' : 0 ≤ q') (hfirst : Within 1 q q')
    (hsecond : Within 1 q' q'') : TwoPlaces place y := by
  obtain ⟨place', hplace', -⟩ := id h
  obtain ⟨hle, hge⟩ := hplace.le_add_two_of_within hplace' hq' hfirst hsecond
  have hmagnitude := h.magnitude_eq_of_lt hplace' (by omega)
  refine ⟨h.isNegative, ?_, by omega, by omega⟩
  rw [Binary64.isFinite, hmagnitude]
  exact decide_eq_true (by omega)

theorem twoPlaces_mul {n k : ℕ} (hn : n ≤ 10 ^ 17) (hk : k ≤ 308)
    (h : Nearest (decimalUnits n k) place) (hlt : place + 2 < infinityMagnitude) :
    TwoPlaces place ((ofNat n).mul (powTen k)) := by
  have hunit := cast_unit_pos.ne'
  have hfirst := (within_ofNat (by decide) hn).mul_right (c := 10 ^ k) (by positivity)
  have hsecond := ((within_powTen hk).mul_left (c := (ofNat n).units)
    (Nat.cast_nonneg _)).div_right cast_unit_pos.le
  rw [← mul_assoc, mul_div_cancel_right₀ _ hunit] at hsecond
  rw [decimalUnits_natCast] at h
  have hmiddle : (0 : ℚ) ≤ (ofNat n).units * 10 ^ k :=
    mul_nonneg (Nat.cast_nonneg _) (pow_nonneg (by norm_num) k)
  exact (rounds_mul _ _).twoPlaces h hlt hmiddle hfirst hsecond

theorem twoPlaces_div {n k : ℕ} (hn : n ≤ 10 ^ 17) (hk : k ≤ 308)
    (h : Nearest (decimalUnits n (-k)) place) (hlt : place + 2 < infinityMagnitude) :
    TwoPlaces place ((ofNat n).div (powTen k)) := by
  have hunit := cast_unit_pos.ne'
  have hpower : (0 : ℚ) < 10 ^ k * unit := mul_pos (by positivity) cast_unit_pos
  have hpos := powTen_units_pos hk
  have hfirst := (within_ofNat (by decide) hn).div_right (c := 10 ^ k) (by positivity)
  have hsecond := (within_powTen hk).div_left (c := (ofNat n).units * unit) hpower
    (Nat.cast_pos.mpr hpos) (mul_nonneg (Nat.cast_nonneg _) cast_unit_pos.le)
  rw [mul_div_mul_right _ _ hunit] at hsecond
  rw [decimalUnits_neg] at h
  have hmiddle : (0 : ℚ) ≤ (ofNat n).units / 10 ^ k :=
    div_nonneg (Nat.cast_nonneg _) (pow_nonneg (by norm_num) k)
  exact (rounds_div _ hpos).twoPlaces h hlt hmiddle hfirst hsecond

/-- Whole numbers that are not rounded. -/
theorem exactValue_ofNat_iff {n : ℕ} : (ofNat n).exactValue = n ↔ (ofNat n).units = n * unit := by
  rw [exactValue_eq, signedUnits, (rounds_ofNat n).isNegative, if_neg Bool.false_ne_true,
    Int.cast_natCast, div_eq_iff cast_unit_pos.ne']
  exact_mod_cast Iff.rfl

theorem exactValue_ofNat {n : ℕ} (h : n < 2 ^ 53) : (ofNat n).exactValue = n :=
  exactValue_ofNat_iff.mpr (units_ofNat h)

/-- Nothing is rounded before the product if the number is not and the power of ten is small. -/
theorem magnitude_mul {n k : ℕ} (hn : (ofNat n).units = n * unit) (hk : k ≤ 22)
    (h : Nearest (decimalUnits n k) place) (hlt : place < infinityMagnitude) :
    ((ofNat n).mul (powTen k)).magnitude = place := by
  have hunit := cast_unit_pos.ne'
  have hrounds := rounds_mul (ofNat n) (powTen k)
  rw [hn, units_powTen hk, Nat.cast_mul, Nat.cast_mul, Nat.cast_pow, Nat.cast_ofNat,
    ← mul_assoc, mul_div_cancel_right₀ _ hunit, ← decimalUnits_natCast] at hrounds
  exact hrounds.magnitude_eq_of_lt h hlt

theorem magnitude_div {n k : ℕ} (hn : (ofNat n).units = n * unit) (hk : k ≤ 22)
    (h : Nearest (decimalUnits n (-k)) place) (hlt : place < infinityMagnitude) :
    ((ofNat n).div (powTen k)).magnitude = place := by
  have hunit := cast_unit_pos.ne'
  have hrounds := rounds_div (ofNat n) (powTen_units_pos (k := k) (by omega))
  rw [hn, units_powTen hk, Nat.cast_mul, Nat.cast_mul, Nat.cast_pow, Nat.cast_ofNat,
    mul_div_mul_right _ _ hunit, ← decimalUnits_neg] at hrounds
  exact hrounds.magnitude_eq_of_lt h hlt

variable {n k : ℕ}

/-! ## The last places -/

/-- What is rounded to one of the last two finite numbers is above the middle before them. -/
theorem last_middle_le (h : Nearest (decimalUnits n k) place)
    (hlast : infinityMagnitude ≤ place + 2) :
    unitsAt (infinityMagnitude - 3) + unitsAt (infinityMagnitude - 2) ≤
      2 * (n * unit * 10 ^ k) := by
  obtain ⟨before, hbefore⟩ : ∃ before, place = before + 1 := ⟨place - 1, by
    unfold infinityMagnitude exponentWeight at hlast
    omega⟩
  have hfirst : unitsAt (infinityMagnitude - 3) ≤ unitsAt before :=
    strictMono_unitsAt.monotone (by omega)
  have hsecond : unitsAt (infinityMagnitude - 2) ≤ unitsAt place :=
    strictMono_unitsAt.monotone (by omega)
  have hmiddle := h.above_last before hbefore
  rw [decimalUnits_natCast] at hmiddle
  have hmiddle' : unitsAt before + unitsAt place ≤ 2 * (n * unit * 10 ^ k) := by
    exact_mod_cast hmiddle
  omega

/-- Only these decimals up to the largest finite number are rounded to the last two of them. -/
theorem eq_of_last_places (hle : n ≤ 10 ^ 17) (h : Nearest (decimalUnits n k) place)
    (hlargest : decimalUnits n k ≤ unitsAt (infinityMagnitude - 1))
    (hlast : infinityMagnitude ≤ place + 2) :
    k = 292 ∧ 17976931348623155 ≤ n ∧ n < 17976931348623158 := by
  have hlower := last_middle_le h hlast
  have hupper : n * unit * 10 ^ k ≤ unitsAt (infinityMagnitude - 1) := by
    rw [decimalUnits_natCast] at hlargest
    exact_mod_cast hlargest
  obtain ⟨j, hj, hsmall, hbelow, habove⟩ : ∃ j, j = 292 ∧
      2 * (Nat.pow 10 17 * unit * Nat.pow 10 (j - 1)) <
        unitsAt (infinityMagnitude - 3) + unitsAt (infinityMagnitude - 2) ∧
      2 * (17976931348623154 * (unit * Nat.pow 10 j)) <
        unitsAt (infinityMagnitude - 3) + unitsAt (infinityMagnitude - 2) ∧
      unitsAt (infinityMagnitude - 1) < 17976931348623158 * (unit * Nat.pow 10 j) :=
    ⟨292, rfl, by decide +kernel, by decide +kernel, by decide +kernel⟩
  have hkj : j ≤ k := by
    by_contra hgt
    have hmul : n * unit * 10 ^ k ≤ Nat.pow 10 17 * unit * Nat.pow 10 (j - 1) :=
      Nat.mul_le_mul (Nat.mul_le_mul_right _ hle) (Nat.pow_le_pow_right (by decide) (by omega))
    omega
  obtain ⟨m, rfl⟩ : ∃ m, k = m + j := ⟨k - j, by omega⟩
  have hshift : n * unit * 10 ^ (m + j) = n * 10 ^ m * (unit * Nat.pow 10 j) := by
    rw [Nat.pow_add, Nat.pow_eq]
    ring
  rw [hshift] at hlower hupper
  have hgt : 17976931348623154 < n * 10 ^ m :=
    Nat.lt_of_mul_lt_mul_right (a := unit * Nat.pow 10 j) (by omega)
  have hlt : n * 10 ^ m < 17976931348623158 :=
    Nat.lt_of_mul_lt_mul_right (a := unit * Nat.pow 10 j) (by omega)
  cases m with
  | zero =>
    rw [Nat.pow_zero, Nat.mul_one] at hgt hlt
    omega
  | succ m =>
    -- None of the numbers in between ends with a zero.
    rw [Nat.pow_succ, ← Nat.mul_assoc] at hgt hlt
    omega

/-- The decimals at the end of the range are computed one by one. -/
theorem twoPlaces_last_decimals (hk : k = 292) : ∀ i < 3,
    TwoPlaces (placeOf ((17976931348623155 + i) * unit * Nat.pow 10 k) 1)
      ((ofNat (17976931348623155 + i)).mul (powTen k)) := by
  subst hk
  decide +kernel

/-- The last two finite numbers are not read as an infinite one. -/
theorem twoPlaces_last (hle : n ≤ 10 ^ 17) (h : Nearest (decimalUnits n k) place)
    (hlargest : decimalUnits n k ≤ unitsAt (infinityMagnitude - 1))
    (hlast : infinityMagnitude ≤ place + 2) : TwoPlaces place ((ofNat n).mul (powTen k)) := by
  obtain ⟨hk, hlow, hhigh⟩ := eq_of_last_places hle h hlargest hlast
  obtain ⟨i, rfl⟩ := Nat.exists_eq_add_of_le hlow
  have hplace := nearest_placeOf ((17976931348623155 + i) * unit * Nat.pow 10 k) Nat.one_pos
  rw [Nat.cast_mul, Nat.cast_mul, Nat.pow_eq, Nat.cast_pow, Nat.cast_ofNat, Nat.cast_one, div_one,
    ← decimalUnits_natCast] at hplace
  obtain rfl := h.unique hplace
  exact twoPlaces_last_decimals hk i (by omega)

end Binary64

end ScriptBridge
