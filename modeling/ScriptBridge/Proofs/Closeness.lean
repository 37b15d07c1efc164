import ScriptBridge.Proofs.Rounding

/-!
# Rationals that are rounded to neighbours

Rounding changes a rational by at most one part in `2 ^ 53`, unless it is subnormal. A change of
this size moves the place that a rational is rounded to by one at most. So after each rounding of an
intermediate result the final one is at most one place further away.

* `Binary64.Within` — two rationals differ by no more than so many parts in `2 ^ 53`.
* `Binary64.Nearest.within` — a rational and what it is rounded to.
* `Binary64.Nearest.le_succ_of_within` — one part in `2 ^ 53` is one place at most.
-/

namespace ScriptBridge

namespace Binary64

/-- Two rationals differ by no more than `t` parts in `2 ^ 53` of the larger one. -/
structure Within (t q q' : ℚ) : Prop where
  le_right : (2 ^ 53 - t) * q ≤ 2 ^ 53 * q'
  le_left : (2 ^ 53 - t) * q' ≤ 2 ^ 53 * q

variable {q q' q'' t t' c : ℚ} {a b : ℕ}

/-! ## Combining differences -/

namespace Within

theorem refl (hq : 0 ≤ q) (ht : 0 ≤ t) : Within t q q := by
  constructor <;> nlinarith

theorem symm (h : Within t q q') : Within t q' q := ⟨h.le_left, h.le_right⟩

/-- One change after the other. -/
theorem trans (h : Within t q q') (h' : Within t' q' q'') (hq : 0 ≤ q) (hq'' : 0 ≤ q'')
    (ht : 0 ≤ t) (ht' : 0 ≤ t') (hlt : t < 2 ^ 53) (hlt' : t' < 2 ^ 53) :
    Within (t + t') q q'' := by
  have hproduct : 2 ^ 53 * (2 ^ 53 - (t + t')) ≤ (2 ^ 53 - t) * (2 ^ 53 - t') := by
    nlinarith [mul_nonneg ht ht']
  constructor
  · have hfirst := mul_le_mul_of_nonneg_left h.le_right (sub_nonneg.mpr hlt'.le)
    have hsecond := h'.le_right
    have hwhole := mul_le_mul_of_nonneg_right hproduct hq
    linarith
  · have hfirst := mul_le_mul_of_nonneg_left h'.le_left (sub_nonneg.mpr hlt.le)
    have hsecond := h.le_left
    have hwhole := mul_le_mul_of_nonneg_right hproduct hq''
    linarith

theorem mul_right (h : Within t q q') (hc : 0 ≤ c) : Within t (q * c) (q' * c) where
  le_right := by linarith [mul_le_mul_of_nonneg_right h.le_right hc]
  le_left := by linarith [mul_le_mul_of_nonneg_right h.le_left hc]

theorem mul_left (h : Within t q q') (hc : 0 ≤ c) : Within t (c * q) (c * q') := by
  rw [mul_comm c, mul_comm c]
  exact h.mul_right hc

theorem div_right (h : Within t q q') (hc : 0 ≤ c) : Within t (q / c) (q' / c) := by
  rw [div_eq_mul_inv, div_eq_mul_inv]
  exact h.mul_right (inv_nonneg.mpr hc)

/-- Dividing by one or the other. -/
theorem div_left (h : Within t q q') (hq : 0 < q) (hq' : 0 < q') (hc : 0 ≤ c) :
    Within t (c / q) (c / q') := by
  constructor
  · rw [mul_div_assoc', mul_div_assoc', div_le_div_iff₀ hq hq']
    linarith [mul_le_mul_of_nonneg_left h.le_left hc]
  · rw [mul_div_assoc', mul_div_assoc', div_le_div_iff₀ hq' hq]
    linarith [mul_le_mul_of_nonneg_left h.le_right hc]

end Within

/-! ## Rounding -/

/-- What is rounded is at most half a step away. -/
theorem Nearest.abs_sub_le (h : Nearest q a) (hq : 0 ≤ q) :
    2 * q ≤ 2 * unitsAt a + gap a ∧ 2 * (unitsAt a : ℚ) ≤ 2 * q + gap a := by
  constructor
  · have hnext := h.below_next
    rw [unitsAt_succ, Nat.cast_add] at hnext
    linarith
  · cases a with
    | zero =>
      have hgap : (0 : ℚ) ≤ gap 0 := Nat.cast_nonneg _
      rw [unitsAt_zero, Nat.cast_zero]
      linarith
    | succ last =>
      have hlast := h.above_last last rfl
      have hgap : (gap last : ℚ) ≤ gap (last + 1) := Nat.cast_le.mpr (gap_mono (Nat.le_succ last))
      have hstep : (unitsAt (last + 1) : ℚ) = unitsAt last + gap last := by
        rw [unitsAt_succ, Nat.cast_add]
      linarith

/-- **A rational and what it is rounded to**, when half a step is no more than `t` parts. -/
theorem Nearest.within (h : Nearest q a) (hq : 0 ≤ q) (ht : 0 ≤ t)
    (hgap : 2 ^ 53 * (gap a : ℚ) ≤ 2 * t * unitsAt a) : Within t q (unitsAt a) := by
  obtain ⟨hupper, hlower⟩ := h.abs_sub_le hq
  have hunits : (0 : ℚ) ≤ unitsAt a := Nat.cast_nonneg _
  constructor
  · rcases le_total t (2 ^ 53) with hle | hgt
    · nlinarith [mul_le_mul_of_nonneg_left hupper (sub_nonneg.mpr hle), mul_nonneg ht hunits,
        mul_nonneg ht (mul_nonneg ht hunits)]
    · nlinarith [mul_nonneg (sub_nonneg.mpr hgt) hq]
  · linarith

theorem Nearest.within_one (h : Nearest q a) (hq : 0 ≤ q) (hnormal : exponentWeight ≤ a) :
    Within 1 q (unitsAt a) := by
  refine h.within hq zero_le_one ?_
  have hgap : exponentWeight * gap a ≤ unitsAt a := mul_gap_le hnormal
  have hgap' : (2 ^ 52 * gap a : ℚ) ≤ unitsAt a := by
    rw [← cast_exponentWeight]
    exact_mod_cast hgap
  linarith

/-- Every rational that is not negative has a nearest place. -/
theorem exists_nearest (hq : 0 ≤ q) : ∃ place, Nearest q place := by
  have hnum : ((q.num.toNat : ℕ) : ℚ) = q.num := by
    exact_mod_cast Int.toNat_of_nonneg (Rat.num_nonneg.mpr hq)
  refine ⟨placeOf q.num.toNat q.den, ?_⟩
  have hplace := nearest_placeOf q.num.toNat q.den_pos
  rwa [hnum, Rat.num_div_den] at hplace

/-! ## One place -/

/-- The two steps around a number are together more than two parts in `2 ^ 53` of the middle of the
second one. -/
theorem lt_gap_add_gap (place : ℕ) :
    2 * unitsAt (place + 1) + gap (place + 1) <
      2 * exponentWeight * (gap place + gap (place + 1)) := by
  obtain ⟨e, c, rfl, hlow, hhigh⟩ := exists_place_eq place
  have hlow' : e = 0 ∨ exponentWeight ≤ c + 1 := hlow.imp_right Nat.le_succ_of_le
  have hpos : 0 < 2 ^ e := Nat.two_pow_pos e
  rw [Nat.add_assoc, unitsAt_eq hlow' hhigh, gap_eq hlow hhigh]
  rcases Nat.lt_or_ge (c + 1) (2 * exponentWeight) with hlt | hge
  · rw [gap_eq hlow' hlt]
    have hmul : (2 * (c + 1) + 1) * 2 ^ e < 2 * exponentWeight * 2 * 2 ^ e :=
      Nat.mul_lt_mul_of_pos_right (by omega) hpos
    linarith
  · -- The second step is the first one of the next binade, and twice as long.
    have hplace : e * exponentWeight + (c + 1) = (e + 1) * exponentWeight + exponentWeight := by
      rw [le_antisymm hhigh hge]
      ring
    rw [hplace, gap_eq (Or.inr le_rfl) (by decide), le_antisymm hhigh hge, Nat.pow_succ]
    have hmul : (4 * exponentWeight + 2) * 2 ^ e < 6 * exponentWeight * 2 ^ e :=
      Nat.mul_lt_mul_of_pos_right (by decide) hpos
    linarith

/-- **A part in `2 ^ 53` is one place at most.** -/
theorem Nearest.le_succ_of_within (ha : Nearest q a) (hb : Nearest q' b) (h : Within 1 q q') :
    b ≤ a + 1 := by
  by_contra hlt
  obtain ⟨last, rfl⟩ := Nat.exists_eq_succ_of_ne_zero (Nat.ne_zero_of_lt (not_le.mp hlt))
  have hle : a + 1 ≤ last := Nat.lt_succ_iff.mp (not_le.mp hlt)
  have hupper := hb.above_last last rfl
  have hlower := ha.below_next
  have hlast : (unitsAt (a + 1) : ℚ) ≤ unitsAt last :=
    Nat.cast_le.mpr (strictMono_unitsAt.monotone hle)
  have hnext : (unitsAt (a + 1 + 1) : ℚ) ≤ unitsAt (last + 1) :=
    Nat.cast_le.mpr (strictMono_unitsAt.monotone (Nat.succ_le_succ hle))
  have hgap : (2 * unitsAt (a + 1) + gap (a + 1) : ℚ) < 2 ^ 53 * (gap a + gap (a + 1)) := by
    have htwice : (2 ^ 53 : ℚ) = 2 * exponentWeight := by rw [cast_exponentWeight, pow_succ']
    rw [htwice]
    exact_mod_cast lt_gap_add_gap a
  have hright := h.le_left
  rw [unitsAt_succ, Nat.cast_add] at hnext
  have hstep : (unitsAt (a + 1) : ℚ) = unitsAt a + gap a := by
    rw [unitsAt_succ, Nat.cast_add]
  linarith

/-- Two changes of a part in `2 ^ 53` are two places at most. -/
theorem Nearest.le_add_two_of_within (ha : Nearest q a) (hb : Nearest q'' b) (hq' : 0 ≤ q')
    (h : Within 1 q q') (h' : Within 1 q' q'') : b ≤ a + 2 ∧ a ≤ b + 2 := by
  obtain ⟨middle, hmiddle⟩ := exists_nearest hq'
  have hfirst := ha.le_succ_of_within hmiddle h
  have hsecond := hmiddle.le_succ_of_within hb h'
  have hthird := hmiddle.le_succ_of_within ha h.symm
  have hfourth := hb.le_succ_of_within hmiddle h'.symm
  omega

end Binary64

end ScriptBridge
