import ScriptBridge.Json.Numeral
import ScriptBridge.Proofs.RoundedScaling

/-!
# Quotients in two steps

A power of ten that is beyond the range of the numbers is divided by in two steps, first by the
largest power in the table and then by the rest, which is not rounded. So there are three roundings
before the last one. The table entry is a tenth of a part away from the power of ten. It is a little
above the first step of its binade: a number above that is rounded by less than one part, and a
number below it has a quotient in the binade below, high up, which is rounded by less than one part.
Either way two of the three changes together are no more than one.

* `Binary64.within_powTen_308`, `Binary64.powTen_308_bounds` — the table entry.
* `Binary64.highSignificand` — from where on a number is rounded by less than a part.
* `Binary64.within_or_within_quotient` — the number or the quotient is changed by less than a part.
* `Binary64.twoPlaces_shrink` — the quotient in two steps is at most two places away.
-/

namespace ScriptBridge

namespace Binary64

variable {q : ℚ} {n k place : ℕ}

/-! ## The table entry -/

/-- The largest power of ten in the table is a tenth of a part away. -/
theorem within_powTen_308 (hk : k = 308) :
    Within (1 / 10) (10 ^ k * unit) (powTen k).units := by
  obtain ⟨hright, hleft⟩ :
      (10 * 2 ^ 53 - 1) * (Nat.pow 10 k * unit) ≤ 10 * 2 ^ 53 * (powTen k).units ∧
        (10 * 2 ^ 53 - 1) * (powTen k).units ≤ 10 * 2 ^ 53 * (Nat.pow 10 k * unit) := by
    subst hk
    decide +kernel
  have hright' : ((10 * 2 ^ 53 - 1 : ℕ) * (10 ^ k * unit) : ℚ) ≤
      (10 * 2 ^ 53 : ℕ) * (powTen k).units := by exact_mod_cast hright
  have hleft' : ((10 * 2 ^ 53 - 1 : ℕ) * (powTen k).units : ℚ) ≤
      (10 * 2 ^ 53 : ℕ) * (10 ^ k * unit) := by exact_mod_cast hleft
  generalize (unit : ℚ) = u at *
  constructor
  · norm_num at hright' ⊢
    linarith
  · norm_num at hleft' ⊢
    linarith

theorem quotient_le (hk : k = 308) (hle : n ≤ 10 ^ 17) :
    ((ofNat n).units * unit / (powTen k).units : ℚ) ≤ 10 ^ 18 * unit := by
  have hunit := cast_unit_pos
  have hpos : (0 : ℚ) < (powTen k).units := Nat.cast_pos.mpr (powTen_units_pos hk.le)
  have hbelow : unit ≤ (powTen k).units := by
    subst hk
    decide +kernel
  have hquotient : ((ofNat n).units * unit / (powTen k).units : ℚ) ≤ (ofNat n).units := by
    rw [div_le_iff₀ hpos]
    exact mul_le_mul_of_nonneg_left (Nat.cast_le.mpr hbelow) (Nat.cast_nonneg _)
  have hle' : (n : ℚ) ≤ 10 ^ 17 := by exact_mod_cast hle
  have hnumber := (within_ofNat (by decide) hle).le_left
  have hnumber' := mul_le_mul_of_nonneg_right hle' hunit.le
  linarith

theorem le_quotient (hk : k = 308) (hn : 3 ≤ n) (hle : n ≤ 10 ^ 17) :
    (unitsAt exponentWeight : ℚ) ≤ (ofNat n).units * unit / (powTen k).units := by
  have hunit := cast_unit_pos
  have hpos : (0 : ℚ) < (powTen k).units := Nat.cast_pos.mpr (powTen_units_pos hk.le)
  have habove : 2 ^ 53 * (unitsAt exponentWeight * (powTen k).units) ≤
      (2 ^ 53 - 1) * (3 * unit) * unit := by
    subst hk
    decide +kernel
  have habove' : (2 ^ 53 * (unitsAt exponentWeight * (powTen k).units) : ℚ) ≤
      (2 ^ 53 - 1 : ℕ) * (3 * unit) * unit := by exact_mod_cast habove
  have hcount : ((2 ^ 53 - 1 : ℕ) : ℚ) = 2 ^ 53 - 1 := by norm_num
  have hn' : (3 : ℚ) ≤ n := by exact_mod_cast hn
  have hnumber := mul_le_mul_of_nonneg_right (within_ofNat (by decide) hle).le_right hunit.le
  have hnumber' := mul_le_mul_of_nonneg_right (mul_le_mul_of_nonneg_right hn' hunit.le) hunit.le
  rw [hcount] at habove'
  rw [le_div_iff₀ hpos]
  linarith

/-- The quotient by that power is finite, and not subnormal. -/
theorem nearest_quotient (hk : k = 308) (hn : 3 ≤ n) (hle : n ≤ 10 ^ 17) :
    Nearest ((ofNat n).units * unit / (powTen k).units) ((ofNat n).div (powTen k)).magnitude ∧
      exponentWeight ≤ ((ofNat n).div (powTen k)).magnitude := by
  have hnearest := (rounds_div (ofNat n) (powTen_units_pos hk.le)).nearest_of_le (k := 18)
    (by decide) (quotient_le hk hle)
  exact ⟨hnearest, (nearest_unitsAt exponentWeight).le_of_le hnearest (le_quotient hk hn hle)⟩

/-! ## High significands -/

/-- From this significand on, half a step is less than nine tenths of a part. -/
def highSignificand : ℕ := 10 * exponentWeight / 9 + 1

/-- A number with a high significand is rounded by less than a part. -/
theorem within_of_highSignificand_le {e c : ℕ} (hq : 0 ≤ q) (hlow : highSignificand ≤ c)
    (hhigh : c < 2 * exponentWeight) (h : Nearest q (e * exponentWeight + c)) :
    Within (9 / 10) q (unitsAt (e * exponentWeight + c)) := by
  have hnormal : exponentWeight ≤ c := le_trans (by decide) hlow
  refine h.within hq (by norm_num) ?_
  rw [gap_eq (Or.inr hnormal) hhigh, unitsAt_eq (Or.inr hnormal) hhigh.le]
  have hcount : 10 * exponentWeight ≤ 9 * c := le_trans (by decide) (Nat.mul_le_mul_left 9 hlow)
  have hgap : 10 * exponentWeight * 2 ^ e ≤ 9 * (c * 2 ^ e) := by
    rw [← Nat.mul_assoc 9]
    exact Nat.mul_le_mul_right _ hcount
  have hgap' : (10 * exponentWeight * (2 ^ e : ℕ) : ℚ) ≤ 9 * (c * 2 ^ e : ℕ) := by
    exact_mod_cast hgap
  rw [cast_exponentWeight] at hgap'
  linarith

/-- The table entry is above a power of two by a little more than a tenth. -/
theorem powTen_308_bounds {j : ℕ} (hk : k = 308) (hj : j = 1024) :
    highSignificand * (powTen k).units ≤ exponentWeight * Nat.pow 2 j * unit ∧
      (highSignificand - 1) * Nat.pow 2 j * unit ≤
        (2 * exponentWeight - 1) * (powTen k).units := by
  subst hk hj
  exact ⟨by decide +kernel, by decide +kernel⟩

variable {c i j : ℕ}

theorem le_place_quotient (hk : k = 308) (hj : j = 1024) (hc : exponentWeight ≤ c)
    (h : Nearest ((c * 2 ^ (i + j) : ℕ) * unit / (powTen k).units) place) :
    i * exponentWeight + highSignificand ≤ place := by
  have hpos : (0 : ℚ) < (powTen k).units := Nat.cast_pos.mpr (powTen_units_pos hk.le)
  have hle : highSignificand * 2 ^ i * (powTen k).units ≤ c * 2 ^ (i + j) * unit := by
    calc highSignificand * 2 ^ i * (powTen k).units
        = highSignificand * (powTen k).units * 2 ^ i := by ring
      _ ≤ exponentWeight * Nat.pow 2 j * unit * 2 ^ i :=
          Nat.mul_le_mul_right _ (powTen_308_bounds hk hj).1
      _ ≤ c * Nat.pow 2 j * unit * 2 ^ i :=
          Nat.mul_le_mul_right _ (Nat.mul_le_mul_right _ (Nat.mul_le_mul_right _ hc))
      _ = c * 2 ^ (i + j) * unit := by rw [Nat.pow_eq, Nat.pow_add]; ring
  refine (nearest_unitsAt _).le_of_le h ?_
  rw [le_div_iff₀ hpos, unitsAt_eq (Or.inr (by decide)) (by decide)]
  exact_mod_cast hle

theorem place_quotient_le (hk : k = 308) (hj : j = 1024) (hc : c < highSignificand)
    (h : Nearest ((c * 2 ^ (i + j) : ℕ) * unit / (powTen k).units) place) :
    place ≤ i * exponentWeight + (2 * exponentWeight - 1) := by
  have hpos : (0 : ℚ) < (powTen k).units := Nat.cast_pos.mpr (powTen_units_pos hk.le)
  have hc' : c ≤ highSignificand - 1 := Nat.le_sub_one_of_lt hc
  have hle : c * 2 ^ (i + j) * unit ≤ (2 * exponentWeight - 1) * 2 ^ i * (powTen k).units := by
    calc c * 2 ^ (i + j) * unit = c * Nat.pow 2 j * unit * 2 ^ i := by
          rw [Nat.pow_eq, Nat.pow_add]; ring
      _ ≤ (highSignificand - 1) * Nat.pow 2 j * unit * 2 ^ i :=
          Nat.mul_le_mul_right _ (Nat.mul_le_mul_right _ (Nat.mul_le_mul_right _ hc'))
      _ ≤ (2 * exponentWeight - 1) * (powTen k).units * 2 ^ i :=
          Nat.mul_le_mul_right _ (powTen_308_bounds hk hj).2
      _ = (2 * exponentWeight - 1) * 2 ^ i * (powTen k).units := by ring
  refine h.le_of_le (nearest_unitsAt _) ?_
  rw [div_le_iff₀ hpos, unitsAt_eq (Or.inr (by decide)) (by decide)]
  exact_mod_cast hle

/-- A number just above the first step of its binade has a quotient high up in its own one. -/
theorem exists_high_quotient {e : ℕ} (hk : k = 308) (he : 1024 ≤ e) (hlow : exponentWeight ≤ c)
    (hhigh : c < highSignificand)
    (h : Nearest ((c * 2 ^ e : ℕ) * unit / (powTen k).units) place) :
    ∃ i c', place = i * exponentWeight + c' ∧ highSignificand ≤ c' ∧ c' < 2 * exponentWeight := by
  obtain ⟨j, hj⟩ : ∃ j, j = 1024 := ⟨1024, rfl⟩
  obtain ⟨i, rfl⟩ : ∃ i, e = i + j := ⟨e - j, by omega⟩
  have hfrom := le_place_quotient hk hj hlow h
  have hto := place_quotient_le hk hj hhigh h
  have hweight : 0 < exponentWeight := by decide
  exact ⟨i, place - i * exponentWeight, by omega, by omega, by omega⟩

/-! ## The quotient in two steps -/

/-- A number and its quotient are not both a whole part away from what they are rounded from. -/
theorem within_or_within_quotient (hk : k = 308) (hn : 3 ≤ n) (hle : n ≤ 10 ^ 17) :
    Within (9 / 10) (n * unit) (ofNat n).units ∨
      Within (9 / 10) ((ofNat n).units * unit / (powTen k).units)
        ((ofNat n).div (powTen k)).units := by
  rcases Nat.lt_or_ge n (2 ^ 53) with hexact | hlarge
  · left
    rw [units_ofNat hexact, Nat.cast_mul]
    exact .refl (mul_nonneg (Nat.cast_nonneg _) cast_unit_pos.le) (by norm_num)
  obtain ⟨e, c, hplace, hlow, hhigh⟩ := exists_place_eq (ofNat n).magnitude
  have hunits : (ofNat n).units = c * 2 ^ e := by
    rw [units_eq_unitsAt, hplace, unitsAt_eq hlow hhigh.le]
  have hnearest := (rounds_ofNat n).nearest_of_le (k := 17) (by decide)
    (mul_le_mul_of_nonneg_right (by exact_mod_cast hle) cast_unit_pos.le)
  have he : 1024 ≤ e := by
    have hfirst : unitsAt (1026 * exponentWeight) ≤ 8 * unit := by decide +kernel
    have hunit : unitsAt (1026 * exponentWeight) ≤ n * unit :=
      hfirst.trans (Nat.mul_le_mul_right _ (by omega))
    have hle' := (nearest_unitsAt (1026 * exponentWeight)).le_of_le hnearest
      (by exact_mod_cast hunit)
    unfold exponentWeight at *
    omega
  have hc : exponentWeight ≤ c := hlow.resolve_left (by omega)
  have hunit := cast_unit_pos.le
  rcases Nat.lt_or_ge c highSignificand with hsmall | hbig
  · right
    obtain ⟨hquotient, -⟩ := nearest_quotient hk hn hle
    rw [hunits] at hquotient ⊢
    obtain ⟨i, c', hplace', hlow', hhigh'⟩ := exists_high_quotient hk he hc hsmall hquotient
    rw [units_eq_unitsAt (div _ _), hplace']
    rw [hplace'] at hquotient
    refine within_of_highSignificand_le ?_ hlow' hhigh' hquotient
    exact div_nonneg (mul_nonneg (Nat.cast_nonneg _) hunit) (Nat.cast_nonneg _)
  · left
    rw [units_eq_unitsAt, hplace]
    rw [hplace] at hnearest
    exact within_of_highSignificand_le (mul_nonneg (Nat.cast_nonneg _) hunit) hbig hhigh hnearest

/-- **The quotient by the largest power of ten** is two changes of one part each away. -/
theorem exists_within_quotient (hk : k = 308) (hn : 3 ≤ n) (hle : n ≤ 10 ^ 17) :
    ∃ m : ℚ, 0 ≤ m ∧ Within 1 (n * unit / 10 ^ k) m ∧
      Within 1 m ((ofNat n).div (powTen k)).units := by
  have hunit := cast_unit_pos
  have hten : (0 : ℚ) < 10 ^ k := pow_pos (by norm_num) k
  have hpos : (0 : ℚ) < (powTen k).units := Nat.cast_pos.mpr (powTen_units_pos hk.le)
  have hproduct : (0 : ℚ) ≤ (ofNat n).units * unit := mul_nonneg (Nat.cast_nonneg _) hunit.le
  have hquotient : (0 : ℚ) ≤ (ofNat n).units * unit / (powTen k).units :=
    div_nonneg hproduct hpos.le
  have htable := (within_powTen_308 hk).div_left (mul_pos hten hunit) hpos hproduct
  rw [mul_div_mul_right _ _ hunit.ne'] at htable
  rcases within_or_within_quotient hk hn hle with hnumber | hdiv
  · obtain ⟨hnearest, hnormal⟩ := nearest_quotient hk hn hle
    have hfirst := (hnumber.div_right hten.le).trans htable
      (div_nonneg (mul_nonneg (Nat.cast_nonneg _) hunit.le) hten.le) hquotient
      (by norm_num) (by norm_num) (by norm_num) (by norm_num)
    have hsum : (9 / 10 + 1 / 10 : ℚ) = 1 := by norm_num
    rw [hsum] at hfirst
    have hsecond := hnearest.within_one hquotient hnormal
    rw [← units_eq_unitsAt] at hsecond
    exact ⟨_, hquotient, hfirst, hsecond⟩
  · have hfirst := (within_ofNat (by decide) hle).div_right hten.le
    have hsecond := htable.trans hdiv (div_nonneg (Nat.cast_nonneg _) hten.le) (Nat.cast_nonneg _)
      (by norm_num) (by norm_num) (by norm_num) (by norm_num)
    have hsum : (1 / 10 + 9 / 10 : ℚ) = 1 := by norm_num
    rw [hsum] at hsecond
    exact ⟨_, div_nonneg (Nat.cast_nonneg _) hten.le, hfirst, hsecond⟩

theorem not_isZero_ofNat (hpos : 0 < n) (hle : n ≤ 10 ^ 17) : ¬(ofNat n).isZero = true := by
  intro hzero
  have hmagnitude : (ofNat n).magnitude = 0 := of_decide_eq_true hzero
  have hlower := (within_ofNat (by decide) hle).le_right
  have hunits : (0 : ℚ) < n * unit := mul_pos (Nat.cast_pos.mpr hpos) cast_unit_pos
  rw [units_eq_unitsAt, hmagnitude, unitsAt_zero, Nat.cast_zero] at hlower
  linarith

/-- A quotient of a few units is computed for each power. -/
theorem twoPlaces_smallest : ∀ n < 3, ∀ r < 17,
    TwoPlaces (placeOf (n * unit) (Nat.pow 10 (308 + r)))
      ((Numeral.shrink 1 (ofNat n)).div (powTen r)) := by
  decide +kernel

/-- Powers beyond the range are divided by in two steps. -/
theorem twoPlaces_shrink {r : ℕ} (hr : r ≤ 16) (hle : n ≤ 10 ^ 17)
    (h : Nearest (decimalUnits n (-(308 + r : ℕ))) place) (hlt : place + 2 < infinityMagnitude) :
    TwoPlaces place ((Numeral.shrink 1 (ofNat n)).div (powTen r)) := by
  rw [decimalUnits_neg] at h
  rcases Nat.lt_or_ge n 3 with hsmall | hlarge
  · have hpower : 0 < 10 ^ (308 + r) := Nat.pow_pos (by decide)
    have hplace := nearest_placeOf (n * unit) hpower
    rw [Nat.cast_mul, Nat.cast_pow, Nat.cast_ofNat] at hplace
    obtain rfl := h.unique hplace
    exact twoPlaces_smallest n hsmall r (by omega)
  · obtain ⟨k, hk⟩ : ∃ k, k = 308 := ⟨308, rfl⟩
    have hten : (0 : ℚ) ≤ 10 ^ r := pow_nonneg (by norm_num) r
    obtain ⟨m, hm, hfirst, hsecond⟩ := exists_within_quotient hk hlarge hle
    have hrounds := rounds_div ((ofNat n).div (powTen k)) (powTen_units_pos (k := r) (by omega))
    rw [units_powTen (by omega), Nat.cast_mul, Nat.cast_pow, Nat.cast_ofNat,
      mul_div_mul_right _ _ cast_unit_pos.ne'] at hrounds
    rw [← hk, pow_add, ← div_div] at h
    rw [Numeral.shrink, if_neg (not_isZero_ofNat (by omega) hle), Numeral.shrink, ← hk]
    exact hrounds.twoPlaces h hlt (div_nonneg hm hten) (hfirst.div_right hten)
      (hsecond.div_right hten)

end Binary64

end ScriptBridge
