import ScriptBridge.Binary64.Shortest
import ScriptBridge.Proofs.Closeness

/-!
# The shortest decimal

The digits that are chosen for a number are read back as it: a grid of decimals that is finer than
the places around the number has a point close to it, and so the search finds one. With seventeen
digits the grid is fine enough, and so it is with steps of `10 ^ -324`, which are smaller than any
two numbers are apart.

* `Binary64.decimalUnits` — the value of a decimal, in units.
* `Binary64.decimalPoint_bounds` — the number lies between two powers of ten.
* `Binary64.exists_onGrid` — a fine grid has a decimal that is read back.
* `Binary64.WrittenAs`, `Binary64.exists_shortest` — the number is nearest to the chosen decimal,
  and the size of that.
-/

namespace ScriptBridge

namespace Binary64

/-! ## Decimals -/

/-- The value of a decimal, in units. -/
def decimalUnits (mantissa : ℕ) (exponent : ℤ) : ℚ := mantissa * 10 ^ exponent * unit

theorem ten_zpow_eq (exponent : ℤ) :
    (10 : ℚ) ^ exponent = 10 ^ exponent.toNat / 10 ^ (-exponent).toNat := by
  have hsplit := Int.toNat_sub_toNat_neg exponent
  conv_lhs => rw [← hsplit]
  rw [zpow_sub₀ (by norm_num), zpow_natCast, zpow_natCast]

theorem ten_zpow_pos (exponent : ℤ) : (0 : ℚ) < 10 ^ exponent := zpow_pos (by norm_num) _

theorem ratio_den_pos (mantissa : ℕ) (exponent : ℤ) : 0 < (Decimal.ratio mantissa exponent).2 :=
  Nat.pow_pos (by decide)

theorem ratio_eq (mantissa : ℕ) (exponent : ℤ) :
    (((Decimal.ratio mantissa exponent).1 * unit : ℕ) : ℚ) / (Decimal.ratio mantissa exponent).2 =
      decimalUnits mantissa exponent := by
  rw [decimalUnits, ten_zpow_eq]
  simp only [Decimal.ratio, Nat.pow_eq, Nat.cast_mul, Nat.cast_pow, Nat.cast_ofNat]
  generalize (unit : ℚ) = u
  ring

variable {x : Binary64} {last : ℕ} {mantissa : ℕ} {exponent : ℤ}

/-- Whether a decimal is read back as a number: its place is the nearest one. -/
theorem readsBack_iff (hfinite : x.isFinite = true) :
    x.readsBack mantissa exponent = true ↔
      Nearest (decimalUnits mantissa exponent) x.magnitude := by
  have hlt : x.magnitude < infinityMagnitude := of_decide_eq_true hfinite
  have hden := ratio_den_pos mantissa exponent
  have hrounds := rounds_ofRatio (Decimal.ratio mantissa exponent).1 hden
  rw [readsBack, beq_iff_eq, ← ratio_eq]
  constructor
  · intro h
    rw [← h]
    refine hrounds.nearest ?_
    rw [isFinite, h]
    exact decide_eq_true hlt
  · intro h
    exact hrounds.magnitude_eq_of_lt h hlt

/-! ## The size of a number -/

theorem units_pos (hlast : x.magnitude = last + 1) : 0 < x.units := by
  rw [units_eq_unitsAt, hlast, unitsAt_succ]
  exact Nat.add_pos_right _ (gap_pos last)

theorem pow_decimalLength_bounds {n : ℕ} (h : n ≠ 0) :
    10 ^ (decimalLength n - 1) ≤ n ∧ n < 10 ^ decimalLength n := by
  have hpos : 0 < decimalLength n := Nat.length_toDigits_pos
  constructor
  · by_contra hlt
    rcases Nat.eq_zero_or_pos (decimalLength n - 1) with hzero | hpred
    · rw [hzero, Nat.pow_zero] at hlt
      omega
    · have hle : decimalLength n ≤ decimalLength n - 1 :=
        (Nat.length_toDigits_le_iff (by decide) hpred).mpr (not_le.mp hlt)
      omega
  · exact (Nat.length_toDigits_le_iff (by decide) hpos).mp le_rfl

/-- **A number lies between two powers of ten**, of which the larger one is its decimal point. -/
theorem decimalPoint_bounds (hpos : 0 < x.units) :
    decimalUnits 1 (x.decimalPoint - 1) ≤ x.units ∧ x.units < decimalUnits 1 x.decimalPoint := by
  have hunit := cast_unit_pos
  simp only [decimalUnits, Nat.cast_one, one_mul, decimalPoint]
  split
  · next hlarge =>
    have hwhole : x.whole ≠ 0 := (Nat.div_pos hlarge unit_pos).ne'
    obtain ⟨hlow, hhigh⟩ := pow_decimalLength_bounds hwhole
    obtain ⟨length, hlength⟩ : ∃ length, decimalLength x.whole = length + 1 :=
      Nat.exists_eq_succ_of_ne_zero (Nat.pos_iff_ne_zero.mp Nat.length_toDigits_pos)
    rw [hlength] at hlow hhigh ⊢
    have hpred : ((length + 1 : ℕ) : ℤ) - 1 = (length : ℕ) := by omega
    rw [hpred, zpow_natCast, zpow_natCast]
    constructor
    · have hle : 10 ^ length * unit ≤ x.units :=
        (Nat.mul_le_mul_right _ hlow).trans (Nat.div_mul_le_self _ _)
      exact_mod_cast hle
    · have hlt : x.units < 10 ^ (length + 1) * unit := (Nat.div_lt_iff_lt_mul unit_pos).mp hhigh
      exact_mod_cast hlt
  · next hsmall =>
    -- Below one, the powers are those next to the reciprocal.
    have hratio : (unit - 1) / x.units ≠ 0 := (Nat.div_pos (by omega) hpos).ne'
    obtain ⟨hlow, hhigh⟩ := pow_decimalLength_bounds hratio
    obtain ⟨length, hlength⟩ : ∃ length, decimalLength ((unit - 1) / x.units) = length + 1 :=
      Nat.exists_eq_succ_of_ne_zero (Nat.pos_iff_ne_zero.mp Nat.length_toDigits_pos)
    rw [hlength] at hlow hhigh ⊢
    have hfirst : (1 : ℤ) - (length + 1 : ℕ) - 1 = -(length + 1 : ℕ) := by omega
    have hsecond : (1 : ℤ) - (length + 1 : ℕ) = -(length : ℕ) := by omega
    rw [hfirst, hsecond, zpow_neg, zpow_neg, zpow_natCast, zpow_natCast, inv_mul_eq_div,
      inv_mul_eq_div, div_le_iff₀ (by positivity), lt_div_iff₀ (by positivity)]
    constructor
    · have hlt : unit - 1 < 10 ^ (length + 1) * x.units := (Nat.div_lt_iff_lt_mul hpos).mp hhigh
      have hle : unit ≤ x.units * 10 ^ (length + 1) := by
        rw [Nat.mul_comm]
        omega
      exact_mod_cast hle
    · have hle : 10 ^ length * x.units ≤ unit - 1 :=
        (Nat.mul_le_mul_right _ hlow).trans (Nat.div_mul_le_self _ _)
      have hlt : x.units * 10 ^ length < unit := by
        have hone := unit_pos
        rw [Nat.mul_comm]
        omega
      exact_mod_cast hlt

/-- A step of `10 ^ -324` is smaller than any two numbers are apart. -/
theorem decimalUnits_lt_one : decimalUnits 1 (-324) < 1 := by
  obtain ⟨k, hk, hlt⟩ : ∃ k, k = 324 ∧ unit < Nat.pow 10 k := ⟨324, rfl, by decide +kernel⟩
  have hexponent : (-324 : ℤ) = -(k : ℤ) := by omega
  rw [decimalUnits, hexponent, zpow_neg, zpow_natCast, Nat.cast_one, one_mul, inv_mul_eq_div,
    div_lt_one (by positivity)]
  exact_mod_cast hlt

theorem decimalUnits_natCast (mantissa k : ℕ) :
    decimalUnits mantissa k = mantissa * unit * 10 ^ k := by
  rw [decimalUnits, zpow_natCast]
  ring

theorem decimalUnits_neg (mantissa k : ℕ) :
    decimalUnits mantissa (-k) = mantissa * unit / 10 ^ k := by
  rw [decimalUnits, zpow_neg, zpow_natCast]
  generalize (unit : ℚ) = u
  ring

theorem decimalUnits_mul (mantissa : ℕ) (exponent : ℤ) :
    decimalUnits mantissa exponent = mantissa * decimalUnits 1 exponent := by
  rw [decimalUnits, decimalUnits, Nat.cast_one, one_mul, mul_assoc]

theorem decimalUnits_add (shift : ℕ) (exponent : ℤ) :
    decimalUnits 1 (exponent + shift) = 10 ^ shift * decimalUnits 1 exponent := by
  rw [decimalUnits, decimalUnits, zpow_add₀ (by norm_num), zpow_natCast]
  ring

/-- Zeros behind the mantissa are a larger exponent. -/
theorem decimalUnits_mul_pow (mantissa zeros : ℕ) (exponent : ℤ) :
    decimalUnits (mantissa * 10 ^ zeros) exponent = decimalUnits mantissa (exponent + zeros) := by
  rw [decimalUnits_mul, decimalUnits_mul mantissa, decimalUnits_add, Nat.cast_mul, Nat.cast_pow,
    Nat.cast_ofNat, mul_assoc]

theorem decimalUnits_pos (exponent : ℤ) : 0 < decimalUnits 1 exponent :=
  mul_pos (mul_pos (by norm_num) (ten_zpow_pos exponent)) cast_unit_pos

theorem decimalUnits_mono {first second : ℤ} (h : first ≤ second) :
    decimalUnits 1 first ≤ decimalUnits 1 second := by
  obtain ⟨shift, rfl⟩ := Int.le.dest h
  rw [decimalUnits_add]
  exact le_mul_of_one_le_left (decimalUnits_pos first).le (one_le_pow₀ (by norm_num))

theorem le_decimalPoint (hpos : 0 < x.units) : -323 ≤ x.decimalPoint := by
  by_contra hlt
  have hunits : (1 : ℚ) ≤ x.units := Nat.one_le_cast.mpr hpos
  have hmono : decimalUnits 1 x.decimalPoint ≤ decimalUnits 1 (-324) :=
    decimalUnits_mono (by omega)
  linarith [(decimalPoint_bounds hpos).2, decimalUnits_lt_one]

theorem exponent_lt_of_le (hpos : 0 < mantissa)
    (hle : decimalUnits mantissa exponent ≤ unitsAt (infinityMagnitude - 1)) : exponent < 309 := by
  obtain ⟨k, hk, hlt⟩ : ∃ k, k = 309 ∧ unitsAt (infinityMagnitude - 1) < unit * Nat.pow 10 k :=
    ⟨309, rfl, by decide +kernel⟩
  have hlt' : (unitsAt (infinityMagnitude - 1) : ℚ) < unit * 10 ^ k := by exact_mod_cast hlt
  by_contra hge
  have hmono : decimalUnits 1 k ≤ decimalUnits 1 exponent := decimalUnits_mono (by omega)
  have hmantissa : decimalUnits 1 exponent ≤ decimalUnits mantissa exponent := by
    rw [decimalUnits_mul mantissa]
    exact le_mul_of_one_le_left (decimalUnits_pos exponent).le (Nat.one_le_cast.mpr hpos)
  rw [decimalUnits_natCast, Nat.cast_one, one_mul] at hmono
  linarith

/-! ## Grids -/

/-- The last point of a grid that is not above the number. -/
def gridBelow (x : Binary64) (exponent : ℤ) : ℕ :=
  x.units * (Decimal.ratio 1 exponent).2 / ((Decimal.ratio 1 exponent).1 * unit)

/-- The number lies between two neighbours on the grid. -/
theorem gridBelow_bounds (x : Binary64) (exponent : ℤ) :
    x.gridBelow exponent * decimalUnits 1 exponent ≤ x.units ∧
      x.units < (x.gridBelow exponent + 1) * decimalUnits 1 exponent := by
  have hden : (0 : ℚ) < (Decimal.ratio 1 exponent).2 := Nat.cast_pos.mpr (ratio_den_pos 1 exponent)
  have hnum : 0 < (Decimal.ratio 1 exponent).1 * unit :=
    Nat.mul_pos (Nat.mul_pos Nat.one_pos (Nat.pow_pos (by decide))) unit_pos
  have hdiv := Nat.div_add_mod (x.units * (Decimal.ratio 1 exponent).2)
    ((Decimal.ratio 1 exponent).1 * unit)
  have hmod := Nat.mod_lt (x.units * (Decimal.ratio 1 exponent).2) hnum
  rw [← ratio_eq, mul_div_assoc', mul_div_assoc', div_le_iff₀ hden, lt_div_iff₀ hden]
  rw [gridBelow]
  generalize (Decimal.ratio 1 exponent).1 * unit = num at *
  generalize (Decimal.ratio 1 exponent).2 = den at *
  constructor
  · exact_mod_cast Nat.div_mul_le_self (x.units * den) num
  · exact_mod_cast Nat.lt_mul_of_div_lt (Nat.lt_succ_self _) hnum

theorem nearerNeighbour_mem (x : Binary64) (below : ℕ) (exponent : ℤ) :
    x.nearerNeighbour below exponent = below ∨ x.nearerNeighbour below exponent = below + 1 := by
  simp only [nearerNeighbour]
  split
  · exact Or.inl rfl
  · split
    · exact Or.inr rfl
    · omega

theorem onGrid?_eq (x : Binary64) (exponent : ℤ) :
    x.onGrid? exponent =
      if x.readsBack (x.gridBelow exponent) exponent then
        some (if x.readsBack (x.gridBelow exponent + 1) exponent then
          x.nearerNeighbour (x.gridBelow exponent) exponent else x.gridBelow exponent)
      else if x.readsBack (x.gridBelow exponent + 1) exponent then some (x.gridBelow exponent + 1)
      else none := rfl

/-- What is found on a grid is read back, and is one of the two neighbours. -/
theorem of_onGrid?_eq_some (h : x.onGrid? exponent = some mantissa) :
    x.readsBack mantissa exponent = true ∧ mantissa ≤ x.gridBelow exponent + 1 := by
  rw [onGrid?_eq] at h
  split at h
  · next hbelow =>
    have hmantissa := Option.some.inj h
    split at hmantissa
    · next habove =>
      rcases x.nearerNeighbour_mem (x.gridBelow exponent) exponent with heq | heq
      · rw [← hmantissa, heq]
        exact ⟨hbelow, Nat.le_succ _⟩
      · rw [← hmantissa, heq]
        exact ⟨habove, le_rfl⟩
    · rw [← hmantissa]
      exact ⟨hbelow, Nat.le_succ _⟩
  · split at h
    · next habove =>
      rw [← Option.some.inj h]
      exact ⟨habove, le_rfl⟩
    · cases h

/-- What is less than half a step away from a number, with the shorter of the two steps around it,
is rounded to it. -/
theorem nearest_of_close {q : ℚ} (habove : 2 * q < 2 * unitsAt (last + 1) + gap last)
    (hbelow : 2 * (unitsAt (last + 1) : ℚ) < 2 * q + gap last) : Nearest q (last + 1) := by
  have hgap : (gap last : ℚ) ≤ gap (last + 1) := Nat.cast_le.mpr (gap_mono (Nat.le_succ last))
  have hlast : (unitsAt (last + 1) : ℚ) = unitsAt last + gap last := by
    rw [unitsAt_succ, Nat.cast_add]
  have hnext : (unitsAt (last + 1 + 1) : ℚ) = unitsAt (last + 1) + gap (last + 1) := by
    rw [unitsAt_succ, Nat.cast_add]
  constructor
  · linarith
  · rintro _ ⟨⟩
    linarith
  · intro heq
    linarith
  · rintro _ ⟨⟩ heq
    linarith

/-- **A fine grid has a decimal that is read back**: the nearer one of the two neighbours. -/
theorem exists_onGrid (hfinite : x.isFinite = true) (hlast : x.magnitude = last + 1)
    (hfine : decimalUnits 1 exponent < gap last) :
    ∃ mantissa, x.onGrid? exponent = some mantissa := by
  obtain ⟨hlow, hhigh⟩ := x.gridBelow_bounds exponent
  rw [units_eq_unitsAt, hlast] at hlow hhigh
  have hreads : x.readsBack (x.gridBelow exponent) exponent = true ∨
      x.readsBack (x.gridBelow exponent + 1) exponent = true := by
    rw [readsBack_iff hfinite, readsBack_iff hfinite, decimalUnits_mul,
      decimalUnits_mul (x.gridBelow exponent + 1), Nat.cast_add, Nat.cast_one, hlast]
    rcases le_total (2 * (unitsAt (last + 1) : ℚ))
      (2 * (x.gridBelow exponent * decimalUnits 1 exponent) + decimalUnits 1 exponent)
      with hle | hge
    · exact Or.inl (nearest_of_close (by linarith) (by linarith))
    · exact Or.inr (nearest_of_close (by linarith) (by linarith))
  rw [onGrid?_eq]
  split
  · exact ⟨_, rfl⟩
  · next hbelow =>
    rw [if_pos (hreads.resolve_left hbelow)]
    exact ⟨_, rfl⟩

/-! ## The largest number -/

/-- The grids of the largest finite number. -/
theorem onGrid?_largest : ∀ negative : Bool,
    let largest := ofMagnitude negative (infinityMagnitude - 1)
    largest.decimalPoint = 309 ∧ ∀ k < 17, largest.onGrid? (309 - (17 - k : ℕ)) =
      if k = 0 then some 17976931348623157 else none := by
  decide +kernel

/-- No decimal that is found is beyond the largest finite number. -/
theorem decimalUnits_le_largest (hfinite : x.isFinite = true) {k : ℕ} (hk : k < 17)
    (h : x.onGrid? (x.decimalPoint - (17 - k : ℕ)) = some mantissa) :
    decimalUnits mantissa (x.decimalPoint - (17 - k : ℕ)) ≤ unitsAt (infinityMagnitude - 1) := by
  have hlt : x.magnitude < infinityMagnitude := of_decide_eq_true hfinite
  rcases Nat.lt_or_ge x.magnitude (infinityMagnitude - 1) with hbelow | hlargest
  · have hmiddle := ((readsBack_iff hfinite).mp (of_onGrid?_eq_some h).1).below_next
    have hplace : (unitsAt x.magnitude : ℚ) ≤ unitsAt (infinityMagnitude - 1) :=
      Nat.cast_le.mpr (strictMono_unitsAt.monotone hbelow.le)
    have hnext : (unitsAt (x.magnitude + 1) : ℚ) ≤ unitsAt (infinityMagnitude - 1) :=
      Nat.cast_le.mpr (strictMono_unitsAt.monotone hbelow)
    linarith
  · obtain ⟨hpoint, hgrid⟩ := onGrid?_largest x.isNegative
    have hx := x.ofMagnitude_isNegative_magnitude
    rw [show x.magnitude = infinityMagnitude - 1 by omega] at hx
    rw [hx] at hpoint hgrid
    rw [hpoint] at h ⊢
    rw [hgrid k hk] at h
    split at h
    · next hzero =>
      obtain rfl := Option.some.inj h
      obtain ⟨j, hj, hle⟩ : ∃ j, j = 292 ∧
          17976931348623157 * unit * Nat.pow 10 j ≤ unitsAt (infinityMagnitude - 1) :=
        ⟨292, rfl, by decide +kernel⟩
      have hexponent : (309 - (17 - k : ℕ) : ℤ) = j := by omega
      rw [hexponent, decimalUnits_natCast]
      exact_mod_cast hle
    · cases h

/-! ## The search -/

/-- The search ends on the first grid that has a decimal, so not behind this one. -/
theorem exists_searchGrids {point : ℤ} {more k : ℕ} (hk : k < more)
    (hgrid : ∃ mantissa, x.onGrid? (point - (17 - k : ℕ)) = some mantissa) :
    ∃ k' mantissa, k ≤ k' ∧ k' < more ∧ x.onGrid? (point - (17 - k' : ℕ)) = some mantissa ∧
      x.searchGrids point more = some (Decimal.ofMantissa mantissa (point - (17 - k' : ℕ))) := by
  induction more with
  | zero => exact absurd hk (Nat.not_lt_zero k)
  | succ more ih =>
    cases hfound : x.onGrid? (point - (17 - more : ℕ)) with
    | some mantissa =>
      refine ⟨more, mantissa, Nat.lt_succ_iff.mp hk, Nat.lt_succ_self more, hfound, ?_⟩
      rw [searchGrids, hfound]
      rfl
    | none =>
      have hlt : k < more := by
        refine lt_of_le_of_ne (Nat.lt_succ_iff.mp hk) ?_
        rintro rfl
        obtain ⟨mantissa, hmantissa⟩ := hgrid
        rw [hfound] at hmantissa
        cases hmantissa
      obtain ⟨k', mantissa, hle, hlt', honGrid, hsearch⟩ := ih hlt
      refine ⟨k', mantissa, hle, Nat.lt_succ_of_lt hlt', honGrid, ?_⟩
      rw [searchGrids, hfound, ← hsearch]
      rfl

/-- The grid of seventeen digits is finer than the places around the number. -/
theorem decimalUnits_lt_gap (hlast : x.magnitude = last + 1) :
    decimalUnits 1 (x.decimalPoint - 17) < gap last := by
  have hpos : 0 < x.units := units_pos hlast
  have hlow := (decimalPoint_bounds hpos).1
  have hshift : x.decimalPoint - 1 = x.decimalPoint - 17 + (16 : ℕ) := by omega
  have hgap : (0 : ℚ) < gap last := Nat.cast_pos.mpr (gap_pos last)
  have hunits : (unitsAt (last + 1) : ℚ) ≤ 2 * exponentWeight * gap last := by
    exact_mod_cast unitsAt_succ_le last
  rw [hshift, decimalUnits_add, units_eq_unitsAt, hlast] at hlow
  rw [cast_exponentWeight] at hunits
  linarith

/-- One of the grids that are searched has a decimal, and its steps are not smaller than
`10 ^ -324`. -/
theorem exists_searched_grid (hfinite : x.isFinite = true) (hlast : x.magnitude = last + 1) :
    ∃ k < 17, -324 ≤ x.decimalPoint - (17 - k : ℕ) ∧
      ∃ mantissa, x.onGrid? (x.decimalPoint - (17 - k : ℕ)) = some mantissa := by
  have hpoint := le_decimalPoint (units_pos hlast)
  rcases le_or_gt (-324) (x.decimalPoint - 17) with hle | hgt
  · exact ⟨0, by decide, hle, exists_onGrid hfinite hlast (decimalUnits_lt_gap hlast)⟩
  · obtain ⟨k, hk⟩ : ∃ k, k = (-324 - (x.decimalPoint - 17)).toNat := ⟨_, rfl⟩
    have hexponent : x.decimalPoint - (17 - k : ℕ) = -324 := by omega
    have hgap : (1 : ℚ) ≤ gap last := Nat.one_le_cast.mpr (gap_pos last)
    refine ⟨k, by omega, hexponent.ge, ?_⟩
    rw [hexponent]
    exact exists_onGrid hfinite hlast (decimalUnits_lt_one.trans_le hgap)

/-- The point of a grid below a number has the digits of that grid. -/
theorem gridBelow_lt (hpos : 0 < x.units) (digits : ℕ) :
    x.gridBelow (x.decimalPoint - digits) < 10 ^ digits := by
  have hbelow := (x.gridBelow_bounds (x.decimalPoint - digits)).1
  have hhigh := (decimalPoint_bounds hpos).2
  have hpower := decimalUnits_add digits (x.decimalPoint - digits)
  rw [Int.sub_add_cancel] at hpower
  rw [hpower] at hhigh
  have hlt := lt_of_mul_lt_mul_right (hbelow.trans_lt hhigh)
    (decimalUnits_pos (x.decimalPoint - digits)).le
  exact_mod_cast hlt

/-- Zero is not nearest to another number. -/
theorem mantissa_pos (hlast : x.magnitude = last + 1)
    (h : Nearest (decimalUnits mantissa exponent) x.magnitude) : 0 < mantissa := by
  have hunits : (0 : ℚ) < x.units := Nat.cast_pos.mpr (units_pos hlast)
  have hnonneg : (0 : ℚ) ≤ unitsAt last := Nat.cast_nonneg _
  refine Nat.pos_of_ne_zero ?_
  rintro rfl
  have hmiddle := h.above_last last hlast
  rw [← units_eq_unitsAt, decimalUnits_mul, Nat.cast_zero, zero_mul] at hmiddle
  linarith

/-- A decimal that a number may be written as: the number is the nearest one to it. It has at most
seventeen digits, or is the power of ten behind them, and its exponent is from `-324` to `308`. It
is not beyond the largest finite number. -/
structure WrittenAs (x : Binary64) (mantissa : ℕ) (exponent : ℤ) : Prop where
  mantissa_le : mantissa ≤ 10 ^ 17
  le_exponent : -324 ≤ exponent
  exponent_lt : exponent < 309
  nearest : Nearest (decimalUnits mantissa exponent) x.magnitude
  le_largest : decimalUnits mantissa exponent ≤ unitsAt (infinityMagnitude - 1)

theorem WrittenAs.magnitude_lt (h : x.WrittenAs mantissa exponent) :
    x.magnitude < infinityMagnitude := by
  have hplace := h.nearest.le_of_le (nearest_unitsAt (infinityMagnitude - 1)) h.le_largest
  have hone : 1 < infinityMagnitude := by decide
  omega

/-- A number with a negative exponent is below the places at the end of the range. -/
theorem WrittenAs.magnitude_add_two_lt {k : ℕ} (h : x.WrittenAs mantissa (-k)) :
    x.magnitude + 2 < infinityMagnitude := by
  have hlarge : 10 ^ 17 * unit ≤ unitsAt (infinityMagnitude - 3) := by decide +kernel
  have hunits : mantissa * unit ≤ unitsAt (infinityMagnitude - 3) :=
    (Nat.mul_le_mul_right _ h.mantissa_le).trans hlarge
  have hquotient : (mantissa * unit / 10 ^ k : ℚ) ≤ mantissa * unit :=
    div_le_self (mul_nonneg (Nat.cast_nonneg _) cast_unit_pos.le) (one_le_pow₀ (by norm_num))
  have hle : decimalUnits mantissa (-k) ≤ unitsAt (infinityMagnitude - 3) := by
    rw [decimalUnits_neg]
    exact hquotient.trans (by exact_mod_cast hunits)
  have hplace := h.nearest.le_of_le (nearest_unitsAt (infinityMagnitude - 3)) hle
  have hthree : 3 < infinityMagnitude := by decide
  omega

/-- **A number may be written as its shortest decimal.** -/
theorem exists_shortest (hfinite : x.isFinite = true) (hzero : x.isZero = false) :
    ∃ mantissa exponent, x.shortest = Decimal.ofMantissa mantissa exponent ∧ 0 < mantissa ∧
      x.WrittenAs mantissa exponent := by
  obtain ⟨last, hlast⟩ : ∃ last, x.magnitude = last + 1 :=
    Nat.exists_eq_succ_of_ne_zero (of_decide_eq_false hzero)
  obtain ⟨k, hk, hexponent, hgrid⟩ := exists_searched_grid hfinite hlast
  obtain ⟨k', mantissa, hle, hlt, honGrid, hsearch⟩ := exists_searchGrids hk hgrid
  obtain ⟨hreads, hmantissa⟩ := of_onGrid?_eq_some honGrid
  have hnearest := (readsBack_iff hfinite).mp hreads
  have hdigits := gridBelow_lt (units_pos hlast) (17 - k')
  have hpow : 10 ^ (17 - k') ≤ 10 ^ 17 := Nat.pow_le_pow_right (by decide) (Nat.sub_le _ _)
  have hpos := mantissa_pos hlast hnearest
  have hlargest := decimalUnits_le_largest hfinite hlt honGrid
  refine ⟨mantissa, _, ?_, hpos,
    ⟨by omega, by omega, exponent_lt_of_le hpos hlargest, hnearest, hlargest⟩⟩
  rw [shortest, hsearch, Option.getD_some]

end Binary64

end ScriptBridge
