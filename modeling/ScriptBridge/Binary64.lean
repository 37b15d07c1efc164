/-!
# Binary floating point numbers, bit for bit

Script numbers are the 64-bit binary format: a sign bit, eleven exponent bits and fifty-two
fraction bits. A number is kept as its bit pattern, so that payloads of not-a-numbers and the sign
of zero survive every copy.

## The exact value

Every finite number is a whole multiple of `2 ^ -1074`. `units` is that multiple for the absolute
value, so all arithmetic on exact values is arithmetic on natural numbers.

* `trunc` drops the fractional part on the bit pattern.
* `toInt` is the integral part towards zero.
* `less` and `same` are the numeric comparisons: not-a-numbers are not less than anything and differ
  from everything, the two zeros agree.
-/

namespace ScriptBridge

/-- A 64-bit binary floating point number, given by its bit pattern. -/
structure Binary64 where
  bits : UInt64
deriving DecidableEq, Repr

namespace Binary64

/-! ## Fields of the bit pattern -/

/-- The weight of the sign bit, the highest of sixty-four. -/
def signWeight : Nat := 0x8000000000000000

/-- The weight of the lowest exponent bit. The fraction bits are below it. -/
def exponentWeight : Nat := 0x10000000000000

/-- The sign bit is set. -/
def isNegative (x : Binary64) : Bool := decide (signWeight ≤ x.bits.toNat)

/-- The bit pattern without its sign. -/
def magnitude (x : Binary64) : Nat := x.bits.toNat % signWeight

/-- The biased exponent. -/
def exponentField (x : Binary64) : Nat := x.magnitude / exponentWeight

/-- The stored fraction bits. -/
def fraction (x : Binary64) : Nat := x.magnitude % exponentWeight

/-- The magnitude of the infinities. Larger magnitudes are not numbers. -/
def infinityMagnitude : Nat := 2047 * exponentWeight

/-- The number with this sign and this magnitude. -/
def ofMagnitude (negative : Bool) (magnitude : Nat) : Binary64 :=
  ⟨UInt64.ofNat (magnitude + if negative then signWeight else 0)⟩

/-- Positive zero. -/
def zero : Binary64 := ⟨0⟩

instance : Inhabited Binary64 := ⟨zero⟩

theorem magnitude_lt (x : Binary64) : x.magnitude < signWeight := Nat.mod_lt _ (by decide)

theorem toNat_bits_ofMagnitude {m : Nat} (h : m < signWeight) (negative : Bool) :
    (ofMagnitude negative m).bits.toNat = m + if negative then signWeight else 0 := by
  rw [ofMagnitude, UInt64.toNat_ofNat']
  refine Nat.mod_eq_of_lt ?_
  unfold signWeight at *
  split <;> omega

theorem magnitude_ofMagnitude {m : Nat} (h : m < signWeight) (negative : Bool) :
    (ofMagnitude negative m).magnitude = m := by
  rw [magnitude, toNat_bits_ofMagnitude h]
  cases negative with
  | false => exact Nat.mod_eq_of_lt h
  | true => exact (Nat.add_mod_right m signWeight).trans (Nat.mod_eq_of_lt h)

theorem isNegative_ofMagnitude {m : Nat} (h : m < signWeight) (negative : Bool) :
    (ofMagnitude negative m).isNegative = negative := by
  rw [isNegative, toNat_bits_ofMagnitude h]
  cases negative with
  | false => exact decide_eq_false (Nat.not_le.2 h)
  | true => exact decide_eq_true (Nat.le_add_left signWeight m)

/-- Sign and magnitude make up the whole number. -/
theorem ofMagnitude_isNegative_magnitude (x : Binary64) :
    ofMagnitude x.isNegative x.magnitude = x := by
  have hlt := x.bits.toNat_lt
  refine congrArg Binary64.mk (UInt64.toNat_inj.1 ?_)
  rw [UInt64.toNat_ofNat', isNegative, magnitude]
  by_cases h : signWeight ≤ x.bits.toNat
  · rw [decide_eq_true h, if_pos rfl]
    unfold signWeight at *
    omega
  · rw [decide_eq_false h, if_neg Bool.false_ne_true]
    unfold signWeight at *
    omega

/-- The same number with the sign bit flipped. -/
def neg (x : Binary64) : Binary64 := ofMagnitude (!x.isNegative) x.magnitude

/-! ## Classes -/

/-- Not a number. -/
def isNaN (x : Binary64) : Bool := decide (infinityMagnitude < x.magnitude)

/-- Neither infinite nor not-a-number. -/
def isFinite (x : Binary64) : Bool := decide (x.magnitude < infinityMagnitude)

/-- Positive or negative infinity. -/
def isInfinite (x : Binary64) : Bool := decide (x.magnitude = infinityMagnitude)

/-- Positive or negative zero. -/
def isZero (x : Binary64) : Bool := decide (x.magnitude = 0)

/-! ## Exact value of a finite number -/

/-- The fraction with its leading bit, which subnormal numbers lack. -/
def significand (x : Binary64) : Nat :=
  if x.exponentField = 0 then x.fraction else x.fraction + exponentWeight

/-- The denominator of `units`: the absolute value is `units / unit`. -/
def unit : Nat := Nat.pow 2 1074

/-- The absolute value as a multiple of `2 ^ -1074`. -/
def units (x : Binary64) : Nat := x.significand * Nat.pow 2 (x.exponentField - 1)

/-- The absolute value without its fractional part. -/
def whole (x : Binary64) : Nat := x.units / unit

/-- The value of a finite number rounded towards zero. -/
def toInt (x : Binary64) : Int := if x.isNegative then -(x.whole : Int) else x.whole

/-- The number without its fractional part. The exponent says how many of the fraction bits stand
for parts smaller than one; those are cleared. -/
def trunc (x : Binary64) : Binary64 :=
  ofMagnitude x.isNegative <|
    if x.exponentField < 1023 then 0
    else x.magnitude - x.magnitude % Nat.pow 2 (1075 - x.exponentField)

/-- A finite number without a fractional part. -/
def isIntegral (x : Binary64) : Bool := x.isFinite && decide (x.units % unit = 0)

/-! ## Comparison -/

/-- The place of a bit pattern among all others. The two zeros share one. -/
def rank (x : Binary64) : Int := if x.isNegative then -(x.magnitude : Int) else x.magnitude

/-- The order of numbers. A not-a-number is not less than anything, and nothing is less than it. -/
def less (x y : Binary64) : Bool := !x.isNaN && !y.isNaN && decide (x.rank < y.rank)

/-- Numeric equality: a not-a-number differs from itself, and the two zeros are equal. -/
def same (x y : Binary64) : Bool :=
  !x.isNaN && !y.isNaN && (x == y || x.isZero && y.isZero)

theorem same_comm (x y : Binary64) : x.same y = y.same x := by
  rw [Bool.eq_iff_iff]
  simp only [same, Bool.and_eq_true, Bool.or_eq_true, beq_iff_eq, Bool.not_eq_true']
  constructor <;> rintro ⟨⟨hx, hy⟩, rfl | ⟨zx, zy⟩⟩ <;> simp_all

theorem same_trans {x y z : Binary64} (hxy : x.same y = true) (hyz : y.same z = true) :
    x.same z = true := by
  simp only [same, Bool.and_eq_true, Bool.or_eq_true, beq_iff_eq, Bool.not_eq_true'] at *
  obtain ⟨⟨hx, _⟩, hxy⟩ := hxy
  obtain ⟨⟨_, hz⟩, hyz⟩ := hyz
  refine ⟨⟨hx, hz⟩, ?_⟩
  rcases hxy with rfl | ⟨zx, zy⟩
  · exact hyz
  · rcases hyz with rfl | ⟨_, zz⟩
    · exact Or.inr ⟨zx, zy⟩
    · exact Or.inr ⟨zx, zz⟩

theorem same_self (x : Binary64) : x.same x = !x.isNaN := by
  cases h : x.isNaN <;> simp [same, h]

end Binary64

end ScriptBridge
