import ScriptBridge.Binary64.Text
import ScriptBridge.Json
import ScriptBridge.Proofs.JsonWriting
import ScriptBridge.Proofs.Numerals
import ScriptBridge.Proofs.ShortestDecimal

/-!
# Written numbers

The text of a finite number is a number of the grammar, in each of its layouts: with the point
between the digits, with zeros in front of them or behind them, or with an exponent. What it stands
for is the shortest decimal, and so the number is the nearest one to it. It has few digits, and its
power of ten is not too small.

* `Json.exists_digits_ofMantissa` — the digits of a decimal, without trailing zeros.
* `Json.textShows_text` — the layouts.
* `Json.exists_numeralText_finiteText` — the text of a finite number.
-/

namespace ScriptBridge

namespace Json

open Numeral Binary64

/-! ## Digits -/

theorem DigitsText.length_eq {digits : List ℕ} {cs : List Char} (h : DigitsText digits cs) :
    cs.length = digits.length := by
  rw [h.text_eq, List.length_map]

theorem DigitsText.append {digits later : List ℕ} {cs laterCs : List Char}
    (h : DigitsText digits cs) (hlt : ∀ d ∈ later, d < 10)
    (htext : laterCs = later.map Nat.digitChar) : DigitsText (digits ++ later) (cs ++ laterCs) where
  ne_nil := List.append_ne_nil_of_left_ne_nil h.ne_nil later
  lt_ten := List.forall_mem_append.mpr ⟨h.lt_ten, hlt⟩
  text_eq := by rw [h.text_eq, htext, List.map_append]

theorem zeros_text (count : ℕ) :
    List.replicate count '0' = (List.replicate count 0).map Nat.digitChar := by
  rw [List.map_replicate]
  rfl

theorem zeros_lt_ten (count : ℕ) : ∀ d ∈ List.replicate count 0, d < 10 := by
  intro d hd
  rw [List.eq_of_mem_replicate hd]
  decide

/-- Zeros at the end are cut off. -/
theorem exists_append_zeros (cs : List Char) :
    ∃ zeros, cs = (cs.reverse.dropWhile (· == '0')).reverse ++ List.replicate zeros '0' := by
  have hzeros : cs.reverse.takeWhile (· == '0') =
      List.replicate (cs.reverse.takeWhile (· == '0')).length '0' := by
    refine List.eq_replicate_of_mem fun c hc => ?_
    exact eq_of_beq (List.all_eq_true.mp List.all_takeWhile c hc)
  refine ⟨(cs.reverse.takeWhile (· == '0')).length, ?_⟩
  calc cs = (cs.reverse.takeWhile (· == '0') ++ cs.reverse.dropWhile (· == '0')).reverse := by
        rw [List.takeWhile_append_dropWhile, List.reverse_reverse]
    _ = (cs.reverse.dropWhile (· == '0')).reverse ++ (cs.reverse.takeWhile (· == '0')).reverse :=
        List.reverse_append
    _ = _ := by
        rw [hzeros, List.reverse_replicate, List.length_replicate]

theorem eq_zero_of_digitChar_eq_zero : ∀ d < 10, Nat.digitChar d = '0' → d = 0 := by decide

/-- Zeros at the end of a written number are the power of ten behind the other digits. -/
theorem exists_digits_append_zeros {digits : List ℕ} {cs : List Char} {zeros : ℕ}
    (hlt : ∀ d ∈ digits, d < 10)
    (htext : cs ++ List.replicate zeros '0' = digits.map Nat.digitChar) :
    ∃ kept, cs = kept.map Nat.digitChar ∧ digits = kept ++ List.replicate zeros 0 := by
  obtain ⟨kept, later, rfl, hkept, hlater⟩ := List.append_eq_map_iff.mp htext
  refine ⟨kept, hkept.symm, ?_⟩
  congr 1
  have hlength := congrArg List.length hlater
  rw [List.length_map, List.length_replicate] at hlength
  rw [← hlength]
  refine List.eq_replicate_of_mem fun d hd => ?_
  refine eq_zero_of_digitChar_eq_zero d (hlt d (List.mem_append_right kept hd)) ?_
  have hmem : Nat.digitChar d ∈ later.map Nat.digitChar := List.mem_map_of_mem hd
  rw [hlater] at hmem
  exact List.eq_of_mem_replicate hmem

/-- **The digits of a decimal**: those of its mantissa, without zeros at the end, and no zero in
front. -/
theorem exists_digits_ofMantissa {mantissa : ℕ} (hpos : 0 < mantissa) (exponent : ℤ) :
    ∃ digits zeros, DigitsText digits (Decimal.ofMantissa mantissa exponent).digits ∧
      digits.head? ≠ some 0 ∧ mantissa = ofDigits digits * 10 ^ zeros ∧
      decimalLength mantissa = digits.length + zeros ∧
      (Decimal.ofMantissa mantissa exponent).point = decimalLength mantissa + exponent := by
  obtain ⟨digits, hdigits, hvalue⟩ := exists_wholeText_toDigits mantissa
  obtain ⟨zeros, hzeros⟩ := exists_append_zeros (Nat.toDigits 10 mantissa)
  have htext := hdigits.text_eq
  rw [hzeros] at htext
  obtain ⟨kept, hkept, rfl⟩ := exists_digits_append_zeros hdigits.lt_ten htext
  rw [ofDigits_append, ofDigits_replicate_zero, List.length_replicate, Nat.add_zero] at hvalue
  have hne : kept ≠ [] := by
    rintro rfl
    rw [ofDigits, List.foldl_nil, Nat.zero_mul] at hvalue
    omega
  refine ⟨kept, zeros, ⟨hne, fun d hd => hdigits.lt_ten d (List.mem_append_left _ hd), hkept⟩, ?_,
    hvalue.symm, ?_, rfl⟩
  · intro hhead
    -- A number that starts with zero is zero.
    have hzero : kept ++ List.replicate zeros 0 = [0] := by
      refine hdigits.leading ?_
      rw [List.head?_append_of_ne_nil _ hne, hhead]
    obtain ⟨hkept', -⟩ := (List.append_eq_singleton_iff.mp hzero).resolve_left fun h => hne h.1
    rw [hkept', ofDigits_singleton, Nat.zero_mul] at hvalue
    omega
  · have hlength := hdigits.toDigitsText.length_eq
    rw [List.length_append, List.length_replicate] at hlength
    exact hlength

/-! ## Layouts -/

/-- A numeral shows digits with the point at some place: it has those digits only, or also zeros up
to the point and one behind it. -/
inductive Shows (digits : List ℕ) (point : ℤ) (n : Numeral) : Prop
  | plain (hmantissa : n.mantissa = ofDigits digits) (hpower : n.power = point - digits.length)
  | padded {zeros : ℕ} (hpoint : point = digits.length + zeros) (hle : point ≤ 16)
      (hmantissa : n.mantissa = ofDigits digits * 10 ^ (zeros + 1)) (hpower : n.power = -1)

variable {d : Decimal} {digits : List ℕ}

/-- The text of a number between its sign and its exponent, with the point between the digits. -/
theorem wholeText_take (h : DigitsText digits d.digits) (hhead : digits.head? ≠ some 0) (count : ℕ)
    (hcount : 0 < count) : WholeText (digits.take count) (d.digits.take count) where
  ne_nil := by
    have hne := h.ne_nil
    simp [hne]
    omega
  lt_ten := fun d hd => h.lt_ten d (List.mem_of_mem_take hd)
  text_eq := by rw [h.text_eq, List.map_take]
  leading := by
    intro hzero
    rw [List.head?_take, if_neg (by omega)] at hzero
    exact absurd hzero hhead

theorem digitsText_drop (h : DigitsText digits d.digits) (count : ℕ)
    (hcount : count < digits.length) : DigitsText (digits.drop count) (d.digits.drop count) where
  ne_nil := by
    rw [ne_eq, List.drop_eq_nil_iff]
    omega
  lt_ten := fun d hd => h.lt_ten d (List.mem_of_mem_drop hd)
  text_eq := by rw [h.text_eq, List.map_drop]

/-- Behind its sign, a text is that of a numeral that shows digits with the point at some place. -/
def TextShows (digits : List ℕ) (point : ℤ) (negative : Bool) (cs : List Char) : Prop :=
  ∃ n, NumeralText n ((if negative then ['-'] else []) ++ cs) ∧ n.negative = negative ∧
    n.ShortExponent ∧ Shows digits point n

theorem textShows_zerosBefore (h : DigitsText digits d.digits) (hpoint : d.point ≤ 0)
    (negative : Bool) : TextShows digits d.point negative
      ('0' :: '.' :: (List.replicate (-d.point).toNat '0' ++ d.digits)) := by
  have hwhole : WholeText [0] ['0'] := ⟨⟨by simp, by simp, rfl⟩, fun _ => rfl⟩
  have hfraction : DigitsText (List.replicate (-d.point).toNat 0 ++ digits)
      (List.replicate (-d.point).toNat '0' ++ d.digits) := by
    constructor
    · exact List.append_ne_nil_of_right_ne_nil _ h.ne_nil
    · exact List.forall_mem_append.mpr ⟨zeros_lt_ten _, h.lt_ten⟩
    · rw [zeros_text, h.text_eq, List.map_append]
  have htext : NumeralText ⟨negative, _, _, _⟩ _ := .mk hwhole (.some hfraction) .none
  refine ⟨_, by rwa [List.append_nil] at htext, rfl, shortExponent_none, .plain ?_ ?_⟩
  · rw [mantissa_mk, Option.getD_some, ofDigits_append, ofDigits_append, ofDigits_singleton,
      ofDigits_replicate_zero]
    omega
  · rw [power_mk, Option.getD_some, List.length_append, List.length_replicate, shift]
    omega

theorem textShows_pointBetween (h : DigitsText digits d.digits) (hhead : digits.head? ≠ some 0)
    (hpos : 0 < d.point) (hlt : d.point < digits.length) (negative : Bool) :
    TextShows digits d.point negative
      (d.digits.take d.point.toNat ++ '.' :: d.digits.drop d.point.toNat) := by
  have hwhole := wholeText_take h hhead d.point.toNat (by omega)
  have hfraction := digitsText_drop h d.point.toNat (by omega)
  have htext : NumeralText ⟨negative, _, _, _⟩ _ := .mk hwhole (.some hfraction) .none
  refine ⟨_, by rwa [List.append_nil] at htext, rfl, shortExponent_none, .plain ?_ ?_⟩
  · rw [mantissa_mk, Option.getD_some, List.take_append_drop]
  · rw [power_mk, Option.getD_some, List.length_drop, shift]
    omega

theorem textShows_zerosBehind (h : DigitsText digits d.digits) (hhead : digits.head? ≠ some 0)
    {zeros : ℕ} (hpoint : d.point = digits.length + zeros) (hle : d.point ≤ 16) (negative : Bool) :
    TextShows digits d.point negative
      (d.digits ++ List.replicate zeros '0' ++ numberLayout.wholeEnding) := by
  have hdigits := h.append (zeros_lt_ten zeros) (zeros_text zeros)
  have hwhole : WholeText (digits ++ List.replicate zeros 0)
      (d.digits ++ List.replicate zeros '0') := by
    refine ⟨hdigits, fun hfirst => ?_⟩
    rw [List.head?_append_of_ne_nil _ h.ne_nil] at hfirst
    exact absurd hfirst hhead
  have hfraction : DigitsText [0] ['0'] := ⟨by simp, by simp, rfl⟩
  have htext : NumeralText ⟨negative, _, _, _⟩ _ := .mk hwhole (.some hfraction) .none
  refine ⟨_, by rwa [List.append_nil] at htext, rfl, shortExponent_none,
    .padded hpoint hle ?_ ?_⟩
  · rw [mantissa_mk, Option.getD_some, ofDigits_append, ofDigits_append, ofDigits_singleton,
      ofDigits_replicate_zero, List.length_replicate, Nat.pow_succ, List.length_singleton]
    ring
  · rw [power_mk, Option.getD_some, shift]
    rfl

/-- A number that is written with the point between its digits, or with zeros around them. -/
theorem textShows_positional (h : DigitsText digits d.digits) (hhead : digits.head? ≠ some 0)
    (hle : d.point ≤ 16) (negative : Bool) :
    TextShows digits d.point negative (d.positional numberLayout) := by
  have hlength := h.length_eq
  unfold Decimal.positional
  rcases le_or_gt d.point 0 with hzero | hpos
  · rw [if_pos hzero]
    exact textShows_zerosBefore h hzero negative
  rw [if_neg (not_le.mpr hpos)]
  rcases lt_or_ge d.point d.digits.length with hlt | hge
  · rw [if_pos hlt]
    exact textShows_pointBetween h hhead hpos (by omega) negative
  · rw [if_neg (not_lt.mpr hge)]
    exact textShows_zerosBehind h hhead (by omega) hle negative

/-- The digits of an exponent. -/
theorem exists_exponentText_toDigits (exponent : ℤ) :
    ∃ written, ExponentText (some written)
        ('e' :: (if exponent < 0 then '-' else '+') :: Nat.toDigits 10 exponent.natAbs) ∧
      shift (some written) = exponent ∧ ofDigits written.2 = exponent.natAbs := by
  obtain ⟨digits, hdigits, hvalue⟩ := exists_wholeText_toDigits exponent.natAbs
  rcases lt_or_ge exponent 0 with hneg | hnonneg
  · rw [if_pos hneg]
    refine ⟨(true, digits), .some (.inl rfl) .minus hdigits.toDigitsText, ?_, hvalue⟩
    rw [shift, hvalue]
    omega
  · rw [if_neg (not_lt.mpr hnonneg)]
    refine ⟨(false, digits), .some (.inl rfl) .plus hdigits.toDigitsText, ?_, hvalue⟩
    rw [shift, hvalue]
    omega

/-- A number that is written with an exponent. -/
theorem textShows_scientific (h : DigitsText digits d.digits) (hhead : digits.head? ≠ some 0)
    (hshort : (d.point - 1).natAbs < exponentLimit) (negative : Bool) :
    TextShows digits d.point negative d.scientific := by
  obtain ⟨written, hwritten, hshift, hvalue⟩ := exists_exponentText_toDigits (d.point - 1)
  have hexponent : ∀ fraction, ShortExponent ⟨negative, digits.take 1, fraction, some written⟩ := by
    rintro fraction isNegative exponentDigits ⟨⟩
    rw [hvalue]
    exact hshort
  have hwhole := wholeText_take h hhead 1 Nat.one_pos
  obtain ⟨first, later, rfl⟩ := List.exists_cons_of_ne_nil h.ne_nil
  have htext := h.text_eq
  rw [List.map_cons] at htext
  rw [htext] at hwhole
  rw [Decimal.scientific, htext]
  cases later with
  | nil =>
    -- One digit has no point behind it.
    have hnumeral : NumeralText ⟨negative, _, _, _⟩ _ := .mk hwhole .none hwritten
    refine ⟨_, by simpa using hnumeral, rfl, hexponent none, .plain ?_ ?_⟩
    · rw [mantissa_mk, Option.getD_none, List.append_nil, List.take_succ_cons, List.take_zero]
    · rw [power_mk, hshift]
      simp
  | cons second later =>
    have hfraction : DigitsText (second :: later) ((second :: later).map Nat.digitChar) :=
      ⟨by simp, fun d hd => h.lt_ten d (List.mem_cons_of_mem _ hd), rfl⟩
    have hnumeral : NumeralText ⟨negative, _, _, _⟩ _ := .mk hwhole (.some hfraction) hwritten
    refine ⟨_, by simpa using hnumeral, rfl, hexponent (some (second :: later)), .plain ?_ ?_⟩
    · rw [mantissa_mk, Option.getD_some, List.take_succ_cons, List.take_zero,
        List.singleton_append]
    · rw [power_mk, hshift, Option.getD_some]
      simp only [List.length_cons]
      omega

theorem isPositional_iff {exponent : ℤ} :
    numberLayout.isPositional exponent = true ↔ -5 ≤ exponent ∧ exponent < 16 := by
  simp [NumberLayout.isPositional, numberLayout]

/-- **The text of a decimal** is a numeral that shows its digits. -/
theorem textShows_text (h : DigitsText digits d.digits) (hhead : digits.head? ≠ some 0)
    (hshort : (d.point - 1).natAbs < exponentLimit) (negative : Bool) :
    TextShows digits d.point negative (d.text numberLayout) := by
  unfold Decimal.text
  by_cases hpositional : numberLayout.isPositional (d.point - 1) = true
  · have hbounds := isPositional_iff.mp hpositional
    rw [if_pos hpositional]
    exact textShows_positional h hhead (by omega) negative
  · rw [if_neg hpositional]
    exact textShows_scientific h hhead hshort negative

/-! ## Numbers -/

theorem decimalLength_le {n : ℕ} (hpos : 0 < n) (hle : n ≤ 10 ^ 17) : decimalLength n ≤ 18 := by
  have hlow := (pow_decimalLength_bounds hpos.ne').1
  have hlength := (Nat.pow_le_pow_iff_right (a := 10) (by decide)).mp (hlow.trans hle)
  omega

/-- The digits of the shortest decimal, and where the point is. -/
theorem exists_digits_shortest {x : Binary64} (hfinite : x.isFinite = true)
    (hzero : x.isZero = false) :
    ∃ digits, DigitsText digits x.shortest.digits ∧ digits.head? ≠ some 0 ∧
      (x.shortest.point - 1).natAbs < exponentLimit ∧
      x.WrittenAs (ofDigits digits) (x.shortest.point - digits.length) := by
  obtain ⟨mantissa, exponent, heq, hpos, hwritten⟩ := exists_shortest hfinite hzero
  obtain ⟨digits, zeros, hdigits, hhead, hmantissa, hlength, hpoint⟩ :=
    exists_digits_ofMantissa hpos exponent
  have hlt := hwritten.exponent_lt
  have hshort := decimalLength_le hpos hwritten.mantissa_le
  have hexponent := hwritten.le_exponent
  have hshift : (Decimal.ofMantissa mantissa exponent).point - digits.length =
      exponent + zeros := by omega
  have hvalue : decimalUnits (ofDigits digits) (exponent + zeros) =
      decimalUnits mantissa exponent := by
    rw [hmantissa, decimalUnits_mul_pow]
  have hle : ofDigits digits ≤ mantissa := by
    rw [hmantissa]
    exact Nat.le_mul_of_pos_right _ (Nat.pow_pos (by decide))
  have hlargest : decimalUnits (ofDigits digits) (exponent + zeros) ≤
      unitsAt (infinityMagnitude - 1) := by
    rw [hvalue]
    exact hwritten.le_largest
  have hdigitsPos : 0 < ofDigits digits := Nat.pos_of_mul_pos_right (hmantissa ▸ hpos)
  rw [heq]
  refine ⟨digits, hdigits, hhead, ?_, ?_⟩
  · unfold exponentLimit
    omega
  · rw [hshift]
    refine ⟨hle.trans hwritten.mantissa_le, by omega, exponent_lt_of_le hdigitsPos hlargest, ?_,
      hlargest⟩
    · rw [hvalue]
      exact hwritten.nearest

/-- The layout changes nothing in what a number is written as. -/
theorem Shows.writtenAs {x : Binary64} {point : ℤ} {n : Numeral} (h : Shows digits point n)
    (hlt : ∀ d ∈ digits, d < 10)
    (hwritten : x.WrittenAs (ofDigits digits) (point - digits.length)) :
    x.WrittenAs n.mantissa n.power := by
  cases h with
  | plain hmantissa hpower => rwa [hmantissa, hpower]
  | @padded zeros hpoint hsixteen hmantissa hpower =>
    have hexponent : point - digits.length = -1 + (zeros + 1 : ℕ) := by omega
    have hvalue : decimalUnits n.mantissa n.power =
        decimalUnits (ofDigits digits) (point - digits.length) := by
      rw [hmantissa, hpower, hexponent, decimalUnits_mul_pow]
    constructor
    · rw [hmantissa]
      calc ofDigits digits * 10 ^ (zeros + 1) ≤ 10 ^ digits.length * 10 ^ (zeros + 1) :=
            Nat.mul_le_mul_right _ (ofDigits_lt hlt).le
        _ = 10 ^ (digits.length + (zeros + 1)) := (Nat.pow_add _ _ _).symm
        _ ≤ 10 ^ 17 := Nat.pow_le_pow_right (by decide) (by omega)
    · rw [hpower]
      decide
    · rw [hpower]
      decide
    · rw [hvalue]
      exact hwritten.nearest
    · rw [hvalue]
      exact hwritten.le_largest

theorem writtenAs_zero {x : Binary64} (h : x.isZero = true) : x.WrittenAs 0 (-1) := by
  have hmagnitude : x.magnitude = 0 := of_decide_eq_true h
  have hvalue : decimalUnits 0 (-1) = 0 := by rw [decimalUnits_mul, Nat.cast_zero, zero_mul]
  have hnearest := nearest_unitsAt 0
  rw [unitsAt_zero, Nat.cast_zero] at hnearest
  constructor
  · exact Nat.zero_le _
  · decide
  · decide
  · rwa [hvalue, hmagnitude]
  · rw [hvalue]
    exact Nat.cast_nonneg _

theorem finiteText_eq (x : Binary64) :
    x.finiteText numberLayout = (if x.isNegative then ['-'] else []) ++
      if x.isZero then '0' :: numberLayout.wholeEnding else x.shortest.text numberLayout := by
  unfold finiteText
  cases x.isNegative <;> rfl

/-- A zero keeps its sign. -/
theorem numeralText_of_isZero {x : Binary64} (h : x.isZero = true) :
    NumeralText ⟨x.isNegative, [0], some [0], none⟩ (x.finiteText numberLayout) := by
  have hdigits : DigitsText [0] ['0'] := ⟨by simp, by simp, rfl⟩
  rw [finiteText_eq, if_pos h]
  exact .mk ⟨hdigits, fun _ => rfl⟩ (.some hdigits) .none

/-- **The text of a finite number is a numeral** with the sign of the number, which may be written
as it. -/
theorem exists_numeralText_finiteText {x : Binary64} (hfinite : x.isFinite = true) :
    ∃ n, NumeralText n (x.finiteText numberLayout) ∧ n.negative = x.isNegative ∧
      n.ShortExponent ∧ x.WrittenAs n.mantissa n.power := by
  by_cases hzero : x.isZero = true
  · exact ⟨_, numeralText_of_isZero hzero, rfl, shortExponent_none, writtenAs_zero hzero⟩
  · obtain ⟨digits, hdigits, hhead, hshort, hwritten⟩ :=
      exists_digits_shortest hfinite (eq_false_of_ne_true hzero)
    obtain ⟨n, htext, hnegative, hn, hshows⟩ :=
      textShows_text hdigits hhead hshort x.isNegative
    rw [finiteText_eq, if_neg hzero]
    exact ⟨n, htext, hnegative, hn, hshows.writtenAs hdigits.lt_ten hwritten⟩

end Json

end ScriptBridge
