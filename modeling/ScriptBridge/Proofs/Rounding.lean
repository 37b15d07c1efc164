import Mathlib.Algebra.Order.Field.Rat
import Mathlib.Tactic.Linarith
import Mathlib.Tactic.LinearCombination
import Mathlib.Tactic.Ring
import ScriptBridge.Proofs.ExactValue

/-!
# What rounding to the nearest number is

The finite numbers without their signs are numbered by their magnitudes, without gaps, and the
numbering is that of their size. So a rational is rounded by saying between which two of them it
lies, and on which side of their middle. This holds beyond the largest finite number as well, if the
binades are continued.

* `Binary64.unitsAt`, `Binary64.gap` — the number at a place, in units, and how far the next one is.
* `Binary64.Nearest` — a place is the nearest one to a rational, the even one of two.
* `Binary64.Nearest.le_of_le`, `Binary64.Nearest.unique` — rounding is monotone, and has one result.
* `Binary64.Rounds`, `Binary64.rounds_ofRatio` — ratios are rounded to the nearest place.
-/

namespace ScriptBridge

/-- The rounded quotient is at most half the denominator away, and even at that distance. -/
theorem roundHalfEven_spec (num : ℕ) {den : ℕ} (h : 0 < den) :
    2 * num ≤ (2 * roundHalfEven num den + 1) * den ∧
      2 * roundHalfEven num den * den ≤ 2 * num + den ∧
      (2 * num = (2 * roundHalfEven num den + 1) * den → roundHalfEven num den % 2 = 0) ∧
      (2 * roundHalfEven num den * den = 2 * num + den → roundHalfEven num den % 2 = 0) := by
  have hnum : den * (num / den) + num % den = num := Nat.div_add_mod num den
  have hlt : num % den < den := Nat.mod_lt num h
  have hround : roundHalfEven num den =
      if 2 * (num % den) < den then num / den
      else if den < 2 * (num % den) then num / den + 1
      else num / den + num / den % 2 := rfl
  generalize roundHalfEven num den = c at *
  generalize num / den = q at *
  generalize num % den = r at *
  have hbelow : 2 * q * den = 2 * (den * q) := by ring
  have hmiddle : (2 * q + 1) * den = 2 * (den * q) + den := by ring
  have habove : 2 * (q + 1) * den = 2 * (den * q) + 2 * den := by ring
  have hbeyond : (2 * (q + 1) + 1) * den = 2 * (den * q) + 3 * den := by ring
  split at hround
  · subst hround
    omega
  · split at hround
    · subst hround
      omega
    · -- At the same distance from both, the even one is taken.
      rcases Nat.mod_two_eq_zero_or_one q with heven | hodd
      · rw [heven, Nat.add_zero] at hround
        subst hround
        omega
      · rw [hodd] at hround
        subst hround
        omega

theorem roundHalfEven_le {num den bound : ℕ} (h : 0 < den) (hlt : num < bound * den) :
    roundHalfEven num den ≤ bound := by
  by_contra hgt
  have hbelow := (roundHalfEven_spec num h).2.1
  have hle : (bound + 1) * den ≤ roundHalfEven num den * den :=
    Nat.mul_le_mul_right den (not_le.mp hgt)
  linarith

theorem le_roundHalfEven {num den bound : ℕ} (h : 0 < den) (hle : bound * den ≤ num) :
    bound ≤ roundHalfEven num den := by
  by_contra hlt
  have habove := (roundHalfEven_spec num h).1
  have hle' : (roundHalfEven num den + 1) * den ≤ bound * den :=
    Nat.mul_le_mul_right den (not_le.mp hlt)
  linarith

namespace Binary64

/-! ## Places -/

/-- The distance between the numbers at two neighbouring places, in units. -/
def gap (place : ℕ) : ℕ := 2 ^ (place / exponentWeight - 1)

/-- The number at a place, in units. -/
def unitsAt (place : ℕ) : ℕ :=
  (place % exponentWeight + if place / exponentWeight = 0 then 0 else exponentWeight) * gap place

theorem units_eq_unitsAt (x : Binary64) : x.units = unitsAt x.magnitude := by
  rw [units, Binary64.significand, unitsAt, gap]
  show (if x.exponentField = 0 then x.fraction else x.fraction + exponentWeight) * _ = _
  split
  · next h => rw [if_pos (show x.magnitude / exponentWeight = 0 from h), Nat.add_zero]; rfl
  · next h => rw [if_neg (show ¬x.magnitude / exponentWeight = 0 from h)]; rfl

theorem unitsAt_zero : unitsAt 0 = 0 := by simp [unitsAt]

theorem gap_pos (place : ℕ) : 0 < gap place := Nat.two_pow_pos _

theorem gap_mono {a b : ℕ} (h : a ≤ b) : gap a ≤ gap b :=
  Nat.pow_le_pow_right Nat.two_pos (Nat.sub_le_sub_right (Nat.div_le_div_right h) 1)

/-- With `e` bits dropped, the significand counts steps of `2 ^ e`. A significand of fifty-four bits
is the first one of the next binade. -/
theorem unitsAt_eq {e c : ℕ} (hlow : e = 0 ∨ exponentWeight ≤ c) (hhigh : c ≤ 2 * exponentWeight) :
    unitsAt (e * exponentWeight + c) = c * 2 ^ e := by
  rw [unitsAt, gap]
  rcases Nat.lt_or_ge c exponentWeight with hsmall | hlarge
  · obtain rfl : e = 0 := hlow.resolve_right (Nat.not_le.mpr hsmall)
    rw [Nat.zero_mul, Nat.zero_add, Nat.div_eq_of_lt hsmall, Nat.mod_eq_of_lt hsmall]
    rfl
  rcases Nat.lt_or_ge c (2 * exponentWeight) with hlt | hge
  · have hdiv : (e * exponentWeight + c) / exponentWeight = e + 1 := by
      unfold exponentWeight at *
      omega
    have hmod : (e * exponentWeight + c) % exponentWeight = c - exponentWeight := by
      unfold exponentWeight at *
      omega
    rw [hdiv, hmod, if_neg (Nat.succ_ne_zero e), Nat.sub_add_cancel hlarge, Nat.add_sub_cancel]
  · obtain rfl : c = 2 * exponentWeight := le_antisymm hhigh hge
    have hdiv : (e * exponentWeight + 2 * exponentWeight) / exponentWeight = e + 2 := by
      rw [← Nat.add_mul, Nat.mul_div_cancel _ (by decide)]
    have hmod : (e * exponentWeight + 2 * exponentWeight) % exponentWeight = 0 := by
      rw [← Nat.add_mul, Nat.mul_mod_left]
    have hexponent : e + 2 - 1 = e + 1 := rfl
    rw [hdiv, hmod, if_neg (Nat.succ_ne_zero _), Nat.zero_add, hexponent, Nat.pow_succ]
    ring

theorem gap_eq {e c : ℕ} (hlow : e = 0 ∨ exponentWeight ≤ c) (hhigh : c < 2 * exponentWeight) :
    gap (e * exponentWeight + c) = 2 ^ e := by
  have hdiv : (e * exponentWeight + c) / exponentWeight - 1 = e := by
    unfold exponentWeight at *
    omega
  rw [gap, hdiv]

/-- The step after a place is not shorter than the dropped bits say. -/
theorem two_pow_le_gap {e c : ℕ} (hlow : e = 0 ∨ exponentWeight ≤ c)
    (hhigh : c ≤ 2 * exponentWeight) : 2 ^ e ≤ gap (e * exponentWeight + c) := by
  rcases Nat.lt_or_ge c (2 * exponentWeight) with hlt | hge
  · exact (gap_eq hlow hlt).ge
  · obtain rfl : c = 2 * exponentWeight := le_antisymm hhigh hge
    refine Nat.pow_le_pow_right Nat.two_pos ?_
    rw [← Nat.add_mul, Nat.mul_div_cancel _ (by decide)]
    omega

/-- Every place is of this kind. -/
theorem exists_place_eq (place : ℕ) : ∃ e c, place = e * exponentWeight + c ∧
    (e = 0 ∨ exponentWeight ≤ c) ∧ c < 2 * exponentWeight := by
  rcases Nat.lt_or_ge place (2 * exponentWeight) with hsmall | hlarge
  · exact ⟨0, place, by omega, Or.inl rfl, hsmall⟩
  · refine ⟨place / exponentWeight - 1, place % exponentWeight + exponentWeight, ?_, ?_, ?_⟩ <;>
      unfold exponentWeight at * <;> omega

theorem unitsAt_succ (place : ℕ) : unitsAt (place + 1) = unitsAt place + gap place := by
  obtain ⟨e, c, rfl, hlow, hhigh⟩ := exists_place_eq place
  rw [gap_eq hlow hhigh, unitsAt_eq hlow hhigh.le, Nat.add_assoc,
    unitsAt_eq (hlow.imp_right Nat.le_succ_of_le) hhigh, Nat.succ_mul]

/-- Only the first step of a binade has a shorter one before it. -/
theorem unitsAt_add_two_pow {e c last : ℕ} (hlow : e = 0 ∨ exponentWeight < c)
    (hhigh : c ≤ 2 * exponentWeight) (heq : e * exponentWeight + c = last + 1) :
    unitsAt last + 2 ^ e = c * 2 ^ e := by
  obtain ⟨c', rfl⟩ : ∃ c', c = c' + 1 := by
    refine Nat.exists_eq_succ_of_ne_zero ?_
    rintro rfl
    rcases hlow with rfl | hc
    · omega
    · exact absurd hc (Nat.not_lt_zero _)
  obtain rfl : last = e * exponentWeight + c' := by omega
  have hgap : gap (e * exponentWeight + c') = 2 ^ e :=
    gap_eq (hlow.imp_right Nat.lt_succ_iff.mp) hhigh
  calc unitsAt (e * exponentWeight + c') + 2 ^ e
      = unitsAt (e * exponentWeight + (c' + 1)) := by rw [← Nat.add_assoc, unitsAt_succ, hgap]
    _ = (c' + 1) * 2 ^ e := unitsAt_eq (hlow.imp_right le_of_lt) hhigh

theorem strictMono_unitsAt : StrictMono unitsAt := by
  refine strictMono_nat_of_lt_succ fun place => ?_
  rw [unitsAt_succ]
  exact Nat.lt_add_of_pos_right (gap_pos place)

/-- A number is less than `2 ^ 53` steps, and the next one is no more than that. -/
theorem unitsAt_succ_le (place : ℕ) : unitsAt (place + 1) ≤ 2 * exponentWeight * gap place := by
  obtain ⟨e, c, rfl, hlow, hhigh⟩ := exists_place_eq place
  rw [gap_eq hlow hhigh, Nat.add_assoc, unitsAt_eq (hlow.imp_right Nat.le_succ_of_le) hhigh]
  exact Nat.mul_le_mul_right _ hhigh

/-- A number that is not subnormal is at least `2 ^ 52` steps. -/
theorem mul_gap_le {place : ℕ} (h : exponentWeight ≤ place) :
    exponentWeight * gap place ≤ unitsAt place := by
  obtain ⟨e, c, rfl, hlow, hhigh⟩ := exists_place_eq place
  rw [gap_eq hlow hhigh, unitsAt_eq hlow hhigh.le]
  refine Nat.mul_le_mul_right _ ?_
  rcases hlow with rfl | hlow
  · rwa [Nat.zero_mul, Nat.zero_add] at h
  · exact hlow

/-! ## The nearest place -/

/-- The place of the number nearest to a rational, the even one of two at the same distance: the
rational lies between the middles towards the two neighbours. -/
structure Nearest (q : ℚ) (place : ℕ) : Prop where
  below_next : 2 * q ≤ unitsAt place + unitsAt (place + 1)
  above_last : ∀ last, place = last + 1 → (unitsAt last : ℚ) + unitsAt place ≤ 2 * q
  even_next : 2 * q = unitsAt place + unitsAt (place + 1) → place % 2 = 0
  even_last : ∀ last, place = last + 1 → (unitsAt last : ℚ) + unitsAt place = 2 * q →
    place % 2 = 0

variable {q q' : ℚ} {a b : ℕ}

/-- **Rounding is monotone.** -/
theorem Nearest.le_of_le (ha : Nearest q a) (hb : Nearest q' b) (h : q ≤ q') : a ≤ b := by
  by_contra hlt
  obtain ⟨last, rfl⟩ := Nat.exists_eq_succ_of_ne_zero (Nat.ne_zero_of_lt (not_le.mp hlt))
  have hle : b ≤ last := Nat.lt_succ_iff.mp (not_le.mp hlt)
  have hlast := ha.above_last last rfl
  have hnext := hb.below_next
  have hfirst : (unitsAt b : ℚ) ≤ unitsAt last := Nat.cast_le.mpr (strictMono_unitsAt.monotone hle)
  have hsecond : (unitsAt (b + 1) : ℚ) ≤ unitsAt (last + 1) :=
    Nat.cast_le.mpr (strictMono_unitsAt.monotone (Nat.succ_le_succ hle))
  -- Both rationals are the middle between two neighbours, which would both be even.
  have heq : (unitsAt b : ℚ) = unitsAt last := by linarith
  obtain rfl : b = last := strictMono_unitsAt.injective (Nat.cast_injective heq)
  have heven := ha.even_last b rfl (by linarith)
  have heven' := hb.even_next (by linarith)
  omega

theorem Nearest.unique (ha : Nearest q a) (hb : Nearest q b) : a = b :=
  le_antisymm (ha.le_of_le hb le_rfl) (hb.le_of_le ha le_rfl)

/-- A number is nearest to itself. -/
theorem nearest_unitsAt (place : ℕ) : Nearest (unitsAt place) place := by
  have hnext : (unitsAt place : ℚ) < unitsAt (place + 1) :=
    Nat.cast_lt.mpr (strictMono_unitsAt (Nat.lt_succ_self place))
  have hlast : ∀ last, place = last + 1 → (unitsAt last : ℚ) < unitsAt place := by
    rintro last rfl
    exact Nat.cast_lt.mpr (strictMono_unitsAt (Nat.lt_succ_self last))
  constructor
  · linarith
  · intro last h
    linarith [hlast last h]
  · intro h
    linarith
  · intro last h heq
    linarith [hlast last h]

/-! ## Ratios -/

/-- The place to which a ratio of units is rounded. -/
def placeOf (num den : ℕ) : ℕ :=
  droppedBits (num / den) * exponentWeight +
    roundHalfEven num (den * 2 ^ droppedBits (num / den))

theorem ofRatio_eq (num den : ℕ) :
    ofRatio num den = ofMagnitude false (min infinityMagnitude (placeOf (num * unit) den)) := rfl

/-- The dropped bits are those that leave fifty-three. -/
theorem droppedBits_bounds (v : ℕ) :
    v < 2 * exponentWeight * 2 ^ droppedBits v ∧
      (droppedBits v = 0 ∨ exponentWeight * 2 ^ droppedBits v ≤ v) := by
  have hweight : exponentWeight = 2 ^ 52 := rfl
  have htwice : 2 * exponentWeight = 2 ^ 53 := rfl
  have hlt : v < 2 ^ (v.log2 + 1) := Nat.lt_log2_self
  rw [htwice, hweight, ← Nat.pow_add, ← Nat.pow_add]
  constructor
  · refine hlt.trans_le (Nat.pow_le_pow_right Nat.two_pos ?_)
    unfold droppedBits
    omega
  · by_cases hzero : droppedBits v = 0
    · exact Or.inl hzero
    · right
      have hlog : 52 + droppedBits v = v.log2 := by
        unfold droppedBits at *
        omega
      rw [hlog]
      refine Nat.log2_self_le ?_
      rintro rfl
      exact hzero rfl

/-- The middle towards the place before, when the rational is at most half a step below. Where the
step before is a shorter one, the rational is not below at all. -/
theorem middle_le_of_steps {e c last : ℕ} (hlow : e = 0 ∨ exponentWeight ≤ c)
    (hhigh : c ≤ 2 * exponentWeight) (hbinade : e = 0 ∨ (exponentWeight * 2 ^ e : ℚ) ≤ q)
    (hbelow : 2 * c * 2 ^ e ≤ 2 * q + 2 ^ e)
    (hevenBelow : 2 * c * 2 ^ e = 2 * q + 2 ^ e → c % 2 = 0)
    (heq : e * exponentWeight + c = last + 1) :
    (unitsAt last : ℚ) + c * 2 ^ e ≤ 2 * q ∧
      ((unitsAt last : ℚ) + c * 2 ^ e = 2 * q → c % 2 = 0) := by
  have hlt : (unitsAt last : ℚ) < c * 2 ^ e := by
    have hplace := strictMono_unitsAt (Nat.lt_succ_self last)
    rw [Nat.succ_eq_add_one, ← heq, unitsAt_eq hlow hhigh] at hplace
    exact_mod_cast hplace
  rcases le_or_gt (c * 2 ^ e : ℚ) q with hle | hgt
  · exact ⟨by linarith, fun h => by linarith⟩
  · have hc : e = 0 ∨ exponentWeight < c := by
      refine hbinade.imp_right fun hbinade => ?_
      have hmul : (exponentWeight * 2 ^ e : ℚ) < c * 2 ^ e := hbinade.trans_lt hgt
      exact_mod_cast lt_of_mul_lt_mul_right hmul (by positivity)
    have hstep : (unitsAt last + 2 ^ e : ℚ) = c * 2 ^ e := by
      exact_mod_cast unitsAt_add_two_pow hc hhigh heq
    exact ⟨by linarith, fun h => hevenBelow (by linarith)⟩

/-- With `e` bits dropped, the nearest place is that of the nearest number of steps. -/
theorem nearest_of_steps {e c : ℕ} (hlow : e = 0 ∨ exponentWeight ≤ c)
    (hhigh : c ≤ 2 * exponentWeight) (hbinade : e = 0 ∨ (exponentWeight * 2 ^ e : ℚ) ≤ q)
    (habove : 2 * q ≤ (2 * c + 1) * 2 ^ e) (hbelow : 2 * c * 2 ^ e ≤ 2 * q + 2 ^ e)
    (hevenAbove : 2 * q = (2 * c + 1) * 2 ^ e → c % 2 = 0)
    (hevenBelow : 2 * c * 2 ^ e = 2 * q + 2 ^ e → c % 2 = 0) :
    Nearest q (e * exponentWeight + c) := by
  have hparity : c % 2 = 0 → (e * exponentWeight + c) % 2 = 0 := by
    unfold exponentWeight
    omega
  have hunits : (unitsAt (e * exponentWeight + c) : ℚ) = c * 2 ^ e := by
    rw [unitsAt_eq hlow hhigh]
    push_cast
    rfl
  have hgap : (2 ^ e : ℚ) ≤ gap (e * exponentWeight + c) := by
    exact_mod_cast two_pow_le_gap hlow hhigh
  have hnext : (unitsAt (e * exponentWeight + c + 1) : ℚ) =
      c * 2 ^ e + gap (e * exponentWeight + c) := by
    rw [unitsAt_succ, Nat.cast_add, hunits]
  constructor
  · rw [hunits, hnext]
    linarith
  · intro last heq
    rw [hunits]
    exact (middle_le_of_steps hlow hhigh hbinade hbelow hevenBelow heq).1
  · intro heq
    rw [hunits, hnext] at heq
    exact hparity (hevenAbove (by linarith))
  · intro last heq hmiddle
    rw [hunits] at hmiddle
    exact hparity ((middle_le_of_steps hlow hhigh hbinade hbelow hevenBelow heq).2 hmiddle)

/-- **Rounding half to even finds the nearest place.** -/
theorem nearest_placeOf (num : ℕ) {den : ℕ} (h : 0 < den) :
    Nearest ((num : ℚ) / den) (placeOf num den) := by
  obtain ⟨hupper, hlower⟩ := droppedBits_bounds (num / den)
  rw [placeOf]
  generalize droppedBits (num / den) = e at *
  have hsteps : 0 < den * 2 ^ e := Nat.mul_pos h (Nat.two_pow_pos e)
  -- In steps of `2 ^ e`, the ratio is less than `2 ^ 53`, and at least `2 ^ 52` if there are any.
  have hnum : num < 2 * exponentWeight * (den * 2 ^ e) := by
    calc num < 2 * exponentWeight * 2 ^ e * den := (Nat.div_lt_iff_lt_mul h).mp hupper
      _ = 2 * exponentWeight * (den * 2 ^ e) := by ring
  have hnum' : e = 0 ∨ exponentWeight * (den * 2 ^ e) ≤ num := by
    refine hlower.imp_right fun hle => ?_
    calc exponentWeight * (den * 2 ^ e) = exponentWeight * 2 ^ e * den := by ring
      _ ≤ num := (Nat.le_div_iff_mul_le h).mp hle
  have hhigh := roundHalfEven_le hsteps hnum
  have hlow := hnum'.imp_right (le_roundHalfEven hsteps)
  obtain ⟨habove, hbelow, hevenAbove, hevenBelow⟩ := roundHalfEven_spec num hsteps
  generalize roundHalfEven num (den * 2 ^ e) = c at *
  -- The same in units.
  have hden : (0 : ℚ) < den := Nat.cast_pos.mpr h
  have hq : (num : ℚ) = num / den * den := (div_mul_cancel₀ _ hden.ne').symm
  generalize (num : ℚ) / den = q at *
  refine nearest_of_steps hlow hhigh (hnum'.imp_right fun hle => ?_) ?_ ?_ ?_ ?_
  · have hle' : (exponentWeight * (den * 2 ^ e) : ℚ) ≤ num := by exact_mod_cast hle
    exact le_of_mul_le_mul_right (by linarith) hden
  · have habove' : (2 * num : ℚ) ≤ (2 * c + 1) * (den * 2 ^ e) := by exact_mod_cast habove
    exact le_of_mul_le_mul_right (by linarith) hden
  · have hbelow' : (2 * c * (den * 2 ^ e) : ℚ) ≤ 2 * num + den * 2 ^ e := by exact_mod_cast hbelow
    exact le_of_mul_le_mul_right (by linarith) hden
  · intro heq
    have heq' : (2 * num : ℚ) = (2 * c + 1) * (den * 2 ^ e) := by
      rw [hq]
      linear_combination den * heq
    exact hevenAbove (by exact_mod_cast heq')
  · intro heq
    have heq' : (2 * c * (den * 2 ^ e) : ℚ) = 2 * num + den * 2 ^ e := by
      rw [hq]
      linear_combination den * heq
    exact hevenBelow (by exact_mod_cast heq')

theorem infinityMagnitude_lt : infinityMagnitude < signWeight := by decide

/-- A number is a rational, counted in units, rounded to the nearest place, or to the infinite one
if that is beyond it. -/
def Rounds (q : ℚ) (y : Binary64) : Prop :=
  ∃ place, Nearest q place ∧ y = ofMagnitude false (min infinityMagnitude place)

/-- **A ratio is rounded to the nearest place.** -/
theorem rounds_ofRatio (num : ℕ) {den : ℕ} (h : 0 < den) :
    Rounds ((num * unit : ℕ) / den) (ofRatio num den) :=
  ⟨placeOf (num * unit) den, nearest_placeOf (num * unit) h, ofRatio_eq num den⟩

namespace Rounds

variable {y : Binary64} {place : ℕ}

theorem isNegative (h : Rounds q y) : y.isNegative = false := by
  obtain ⟨place, -, rfl⟩ := h
  exact isNegative_ofMagnitude ((min_le_left _ _).trans_lt infinityMagnitude_lt) false

theorem magnitude_eq (h : Rounds q y) (hplace : Nearest q place) :
    y.magnitude = min infinityMagnitude place := by
  obtain ⟨place', hplace', rfl⟩ := h
  rw [magnitude_ofMagnitude ((min_le_left _ _).trans_lt infinityMagnitude_lt),
    hplace'.unique hplace]

/-- A rational that is rounded to a finite number is rounded to the nearest place. -/
theorem nearest (h : Rounds q y) (hfinite : y.isFinite = true) : Nearest q y.magnitude := by
  obtain ⟨place, hplace, -⟩ := id h
  have hlt : y.magnitude < infinityMagnitude := of_decide_eq_true hfinite
  rw [h.magnitude_eq hplace] at hlt ⊢
  rw [min_eq_right (by omega)]
  exact hplace

/-- A rational whose nearest place is that of a finite number is rounded to it. -/
theorem magnitude_eq_of_lt (h : Rounds q y) (hplace : Nearest q place)
    (hlt : place < infinityMagnitude) : y.magnitude = place := by
  rw [h.magnitude_eq hplace, min_eq_right hlt.le]

end Rounds

end Binary64

end ScriptBridge
