import Mathlib.Data.Nat.Digits.Lemmas
import ScriptBridge.Json.Numeral

/-!
# What numerals stand for

A numeral is a whole number, that of all its digits, times a power of ten. The digits after the
point lower the power, the exponent shifts it. As long as the whole number fits into the significand
no digit is dropped, and it is scaled by that power.

* `Numeral.mantissa`, `Numeral.power` — the whole number and the power of ten.
* `Numeral.ofDigits_append`, `Numeral.ofDigits_lt` — the number of several digits.
* `Numeral.absolute?_eq` — a numeral with few digits is read by scaling its whole number.
-/

namespace ScriptBridge

namespace Numeral

/-! ## Digits -/

/-- The digits are written with the highest one in front. -/
theorem ofDigits_eq (digits : List ℕ) : ofDigits digits = Nat.ofDigits 10 digits.reverse := by
  rw [ofDigits, Nat.ofDigits_eq_foldr, List.foldr_reverse]
  simp [Nat.add_comm]

theorem ofDigits_append (first second : List ℕ) :
    ofDigits (first ++ second) = ofDigits first * 10 ^ second.length + ofDigits second := by
  rw [ofDigits_eq, ofDigits_eq, ofDigits_eq, List.reverse_append, Nat.ofDigits_append,
    List.length_reverse]
  ring

theorem ofDigits_singleton (d : ℕ) : ofDigits [d] = d := by
  rw [ofDigits_eq, List.reverse_singleton, Nat.ofDigits_singleton]

theorem ofDigits_replicate_zero (count : ℕ) : ofDigits (List.replicate count 0) = 0 := by
  rw [ofDigits_eq, List.reverse_replicate, Nat.ofDigits_replicate_zero]

theorem ofDigits_lt {digits : List ℕ} (h : ∀ d ∈ digits, d < 10) :
    ofDigits digits < 10 ^ digits.length := by
  rw [ofDigits_eq, ← List.length_reverse]
  exact Nat.ofDigits_lt_base_pow_length (by decide) fun d hd => h d (List.mem_reverse.mp hd)

/-! ## The number that is scaled -/

/-- The number of all digits, without the point. -/
def mantissa (numeral : Numeral) : ℕ := ofDigits (numeral.whole ++ numeral.fraction.getD [])

/-- What an exponent stands for. -/
def shift : Option (Bool × List ℕ) → ℤ
  | none => 0
  | some (true, digits) => -(ofDigits digits : ℤ)
  | some (false, digits) => ofDigits digits

/-- The power of ten that the number of all digits is multiplied by. -/
def power (numeral : Numeral) : ℤ := shift numeral.exponent - (numeral.fraction.getD []).length

theorem mantissa_mk (negative : Bool) (whole : List ℕ) (fraction : Option (List ℕ))
    (exponent : Option (Bool × List ℕ)) :
    mantissa ⟨negative, whole, fraction, exponent⟩ = ofDigits (whole ++ fraction.getD []) := rfl

theorem power_mk (negative : Bool) (whole : List ℕ) (fraction : Option (List ℕ))
    (exponent : Option (Bool × List ℕ)) :
    power ⟨negative, whole, fraction, exponent⟩ = shift exponent - (fraction.getD []).length := rfl

/-- No digit is dropped from a number that stays below the limit. -/
theorem collect_eq {limit n : ℕ} {digits : List ℕ}
    (h : n * 10 ^ digits.length + ofDigits digits < limit) :
    collect limit n digits = (n * 10 ^ digits.length + ofDigits digits, []) := by
  induction digits generalizing n with
  | nil => simp [collect, ofDigits]
  | cons d later ih =>
    have hvalue : n * 10 ^ (d :: later).length + ofDigits (d :: later) =
        (10 * n + d) * 10 ^ later.length + ofDigits later := by
      have happend := ofDigits_append [d] later
      rw [List.singleton_append, ofDigits_singleton] at happend
      rw [happend, List.length_cons, Nat.pow_succ]
      ring
    rw [hvalue] at h ⊢
    have hle : 10 * n + d ≤ (10 * n + d) * 10 ^ later.length :=
      Nat.le_mul_of_pos_right _ (Nat.pow_pos (by decide))
    rw [collect, if_pos (by omega), ih h]

theorem significand_eq {numeral : Numeral} (h : numeral.mantissa < significandLimit) :
    numeral.significand = (numeral.mantissa, -((numeral.fraction.getD []).length : ℤ)) := by
  have happend := ofDigits_append numeral.whole (numeral.fraction.getD [])
  rw [← mantissa] at happend
  have hle : ofDigits numeral.whole ≤
      ofDigits numeral.whole * 10 ^ (numeral.fraction.getD []).length :=
    Nat.le_mul_of_pos_right _ (Nat.pow_pos (by decide))
  have hwhole : collect significandLimit 0 numeral.whole = (ofDigits numeral.whole, []) := by
    rw [collect_eq (by omega), Nat.zero_mul, Nat.zero_add]
  have hfraction : collect significandLimit (ofDigits numeral.whole) (numeral.fraction.getD []) =
      (numeral.mantissa, []) := by
    rw [collect_eq (by omega), happend]
  simp [Numeral.significand, hwhole, hfraction]

/-- The exponent is one that the reader keeps. -/
def ShortExponent (numeral : Numeral) : Prop :=
  ∀ isNegative digits, numeral.exponent = some (isNegative, digits) →
    ofDigits digits < exponentLimit

theorem shortExponent_none {negative : Bool} {whole : List ℕ} {fraction : Option (List ℕ)} :
    ShortExponent ⟨negative, whole, fraction, none⟩ := fun _ _ h => nomatch h

/-- **A numeral with few digits is read by scaling its whole number.** -/
theorem absolute?_eq {numeral : Numeral} (h : numeral.mantissa < significandLimit)
    (hexponent : numeral.ShortExponent) :
    numeral.absolute? = scale numeral.mantissa numeral.power := by
  simp only [absolute?, significand_eq h]
  cases hcases : numeral.exponent with
  | none =>
    rw [power, hcases, shift, zero_sub]
  | some written =>
    obtain ⟨isNegative, digits⟩ := written
    have hlt := hexponent isNegative digits hcases
    have hdigits : collect exponentLimit 0 digits = (ofDigits digits, []) := by
      rw [collect_eq (by omega), Nat.zero_mul, Nat.zero_add]
    rw [power, hcases]
    cases isNegative with
    | true => simp [hdigits, shift, sub_eq_add_neg, add_comm]
    | false => simp [hdigits, shift, sub_eq_add_neg, add_comm]

end Numeral

end ScriptBridge
