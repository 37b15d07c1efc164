import ScriptBridge.Argument
import ScriptBridge.Proofs.ExactValue
import ScriptBridge.Value.Equality

/-!
# What decoding accepts

Every native type is decoded from the values that it is encoded as, and from no others; numbers are
decoded as integers, with the fractional part dropped, if the integer has thirty-two bits.

* `Codec` — decoding takes back what encoding made, and rejects everything else.
* `Codec.of_view` — so it does if decoding views one kind of value and encoding makes it.
* `Value.decode_number_of_fits`, `Value.decode_number_of_not_fits` — numbers as integers.
* `Value.decode_ofInt32` — decoding takes back what encoding made of an integer.
* `Value.eq_of_same_ofInt32` — integers are told apart as script numbers.
* `Value.decoding_law` — all of it.
-/

namespace ScriptBridge

/-! ## One kind of value -/

/-- The values of a type are decoded from what they are encoded as. Everything else is rejected,
with the name of the expected kind of value and of the kind that was found. -/
structure Codec (α : Type) [FromScript α] [ToScript α] (expected : String) : Prop where
  decode_encode (a : α) : FromScript.decode (ToScript.encode a) = .ok a
  decode_of_ne (v : Value) (h : ∀ a : α, v ≠ ToScript.encode a) :
    (FromScript.decode v : Except Mismatch α) = .error { expected, found := v.typeName }

/-- A view of one kind of value, and an encoding that makes just these values. -/
theorem Codec.of_view {α : Type} [FromScript α] [ToScript α] {expected : String}
    {view : Value → Option α} (hdecode : FromScript.decode = Value.expect expected view)
    (hview : ∀ (v : Value) (a : α), view v = some a ↔ v = ToScript.encode a) :
    Codec α expected where
  decode_encode a := by
    rw [hdecode, Value.expect, (hview _ a).mpr rfl]
  decode_of_ne v h := by
    have hnone : view v = none := by
      cases hv : view v with
      | none => rfl
      | some a => exact absurd ((hview v a).mp hv) (h a)
    rw [hdecode, Value.expect, hnone]

theorem codec_binary64 : Codec Binary64 "number" :=
  .of_view rfl fun v x => by cases v <;> simp [Value.number?, ToScript.encode]

theorem codec_bool : Codec Bool "boolean" :=
  .of_view rfl fun v b => by cases v <;> simp [Value.bool?, ToScript.encode]

theorem codec_string : Codec String "string" :=
  .of_view rfl fun v s => by cases v <;> simp [Value.string?, ToScript.encode]

theorem codec_object : Codec Object "object" :=
  .of_view rfl fun v o => by cases v <;> simp [Value.object?, ToScript.encode]

theorem codec_nodeHandle : Codec NodeHandle "node handle" :=
  .of_view rfl fun v handle => by cases v <;> simp [Value.node?, ToScript.encode]

theorem codec_function : Codec Function "function" :=
  .of_view rfl fun v f => by cases v <;> simp [Value.function?, ToScript.encode]

/-! ## Integers -/

namespace Value

variable {x : Binary64}

theorem decode_number (x : Binary64) :
    (FromScript.decode (number x) : Except Mismatch Int32) =
      match x.toInt32? with
      | some n => .ok n
      | none => .error { expected := "32-bit integer", found := x.trunc.messageText } :=
  rfl

/-- **Decoding takes back what encoding made of an integer.** -/
theorem decode_ofInt32 (n : Int32) : FromScript.decode (ofInt32 n) = .ok n := by
  show (FromScript.decode (number (Binary64.ofInt n.toInt)) : Except Mismatch Int32) = _
  rw [decode_number, Binary64.toInt32?_ofInt]

/-- **A number that fits is decoded**, rounded towards zero. -/
theorem decode_number_of_fits (h : x.FitsInt32) :
    ∃ n : Int32, FromScript.decode (number x) = .ok n ∧
      n.toInt = Binary64.towardZero x.exactValue := by
  cases hint : x.toInt32? with
  | none => exact absurd h (Binary64.toInt32?_eq_none_iff.mp hint)
  | some n =>
    refine ⟨n, ?_, (Binary64.toInt32?_eq_some_iff.mp hint).2⟩
    rw [decode_number, hint]

/-- **No other number is decoded.** -/
theorem decode_number_of_not_fits (h : ¬ x.FitsInt32) :
    (FromScript.decode (number x) : Except Mismatch Int32) =
      .error { expected := "32-bit integer", found := x.trunc.messageText } := by
  rw [decode_number, Binary64.toInt32?_eq_none_iff.mpr h]

/-- Nothing but a number is decoded as an integer. -/
theorem decode_int32_of_ne {v : Value} (h : ∀ x, v ≠ number x) :
    (FromScript.decode v : Except Mismatch Int32) =
      .error { expected := "number", found := v.typeName } := by
  have hnumber : v.expect "number" number? = .error { expected := "number", found := v.typeName } :=
    codec_binary64.decode_of_ne v h
  show v.decodeInt32 = _
  rw [decodeInt32, hnumber]

/-- **Integers are told apart as script numbers.** -/
theorem eq_of_same_ofInt32 {m n : Int32} (h : (ofInt32 m).same (ofInt32 n) = true) : m = n := by
  have hm := Binary64.natAbs_toInt_lt m
  have hn := Binary64.natAbs_toInt_lt n
  have hsame : (Binary64.ofInt m.toInt).same (Binary64.ofInt n.toInt) = true := h
  rw [Binary64.same_iff (Binary64.ofInt_exact hm).2.2 (Binary64.ofInt_exact hn).2.2,
    Binary64.exactValue_ofInt hm, Binary64.exactValue_ofInt hn, Int.cast_inj] at hsame
  exact Int32.toInt_inj.mp hsame

end Value

/-! ## The law -/

/--
**The law of decoding.**
* A number is decoded as an integer exactly if it is finite and the integer that is left when its
  fractional part is dropped has thirty-two bits; that integer is the result. All other numbers and
  all other values are rejected.
* Integers come back from script numbers, and no two of them are one script number.
* Numbers, booleans, texts, objects, handles and functions come back as they were, bit for bit, and
  are not decoded from anything else. Every script value is decoded as itself.
* A rejected argument is a type error.
-/
theorem Value.decoding_law :
    (∀ x : Binary64,
      (x.FitsInt32 → ∃ n : Int32, FromScript.decode (number x) = .ok n ∧
        n.toInt = Binary64.towardZero x.exactValue) ∧
      (¬ x.FitsInt32 → (FromScript.decode (number x) : Except Mismatch Int32) =
        .error { expected := "32-bit integer", found := x.trunc.messageText })) ∧
    (∀ v : Value, (∀ x, v ≠ number x) → (FromScript.decode v : Except Mismatch Int32) =
      .error { expected := "number", found := v.typeName }) ∧
    (∀ n : Int32, FromScript.decode (ToScript.encode n) = .ok n) ∧
    (∀ m n : Int32, (ToScript.encode m).same (ToScript.encode n) = true → m = n) ∧
    Codec Binary64 "number" ∧ Codec Bool "boolean" ∧ Codec String "string" ∧
    Codec Object "object" ∧ Codec NodeHandle "node handle" ∧ Codec Function "function" ∧
    (∀ v : Value, FromScript.decode v = .ok v ∧ ToScript.encode v = v) ∧
    ∀ (α : Type) [FromScript α] (args : List Value) (index : Nat) (m : Mismatch),
      (FromScript.decode (args.getD index .undefined) : Except Mismatch α) = .error m →
        argument α args index =
          .error (.type ("argument " ++ toString index ++ ": " ++ m.text)) :=
  ⟨fun _ => ⟨decode_number_of_fits, decode_number_of_not_fits⟩, fun _ => decode_int32_of_ne,
    decode_ofInt32, fun _ _ => eq_of_same_ofInt32, codec_binary64, codec_bool, codec_string,
    codec_object, codec_nodeHandle, codec_function, fun _ => ⟨rfl, rfl⟩,
    fun _ _ _ _ _ => argument_of_mismatch⟩

/-- A fraction beyond the smallest integer is decoded as that, and infinity is not decoded. -/
theorem Value.decoding_at_the_bounds :
    let low : Binary64 := ⟨0xC1E00000001CCCCD⟩
    let infinity : Binary64 := ⟨0x7FF0000000000000⟩
    low.FitsInt32 ∧ (FromScript.decode (number low) : Except Mismatch Int32) = .ok Int32.minValue ∧
      ¬ infinity.FitsInt32 ∧ (FromScript.decode (number infinity) : Except Mismatch Int32) =
        .error { expected := "32-bit integer", found := "inf" } := by
  intro low infinity
  have hlow : low.FitsInt32 := (Binary64.fitsInt32_iff low).mpr (by decide +kernel)
  have hinfinity : ¬ infinity.FitsInt32 := fun h => absurd h.1 (by decide +kernel)
  obtain ⟨n, hdecode, hvalue⟩ := (decoding_law.1 low).1 hlow
  have htrunc : low.toInt = Int32.minValue.toInt := by decide +kernel
  have hn : n = Int32.minValue := Int32.toInt_inj.mp (by rw [hvalue, ← Binary64.toInt_eq, htrunc])
  have hfound : infinity.trunc.messageText = "inf" := by decide +kernel
  have herror := (decoding_law.1 infinity).2 hinfinity
  rw [hn] at hdecode
  rw [hfound] at herror
  exact ⟨hlow, hdecode, hinfinity, herror⟩

end ScriptBridge
