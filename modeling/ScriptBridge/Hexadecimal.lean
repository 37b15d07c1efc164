/-!
# Hexadecimal digits

Writing uses lower-case digits, reading takes both cases.

* `Hexadecimal.ofDigits?_digits` — digits that are not cut stand for the number they were made of.
-/

namespace ScriptBridge

namespace Hexadecimal

/-- The lower-case digit of a number below sixteen. -/
def digit (n : Nat) : Char := Char.ofNat (if n < 10 then 48 + n else 87 + n)

/-- The value of a digit of either case. -/
def value? (c : Char) : Option Nat :=
  if '0' ≤ c ∧ c ≤ '9' then some (c.toNat - 48)
  else if 'a' ≤ c ∧ c ≤ 'f' then some (c.toNat - 87)
  else if 'A' ≤ c ∧ c ≤ 'F' then some (c.toNat - 55)
  else none

/-- The digits of `n`, padded with zeros or cut to the given number of places. -/
def digits (places : Nat) (n : Nat) : List Char :=
  (List.range places).map fun i => digit (n / Nat.pow 16 (places - 1 - i) % 16)

/-- The number that a list of digits stands for; nothing if one of them is no digit. -/
def ofDigits? (cs : List Char) : Option Nat :=
  cs.foldlM (fun n c => (value? c).map (16 * n + ·)) 0

theorem value?_digit : ∀ n < 16, value? (digit n) = some n := by decide

/-- The last digit is the remainder, and those before it are the digits of the quotient. -/
theorem digits_succ (places n : Nat) :
    digits (places + 1) n = digits places (n / 16) ++ [digit (n % 16)] := by
  have hinit : ∀ i ∈ List.range places,
      digit (n / Nat.pow 16 (places + 1 - 1 - i) % 16) =
        digit (n / 16 / Nat.pow 16 (places - 1 - i) % 16) := by
    intro i hi
    have hlt : i < places := List.mem_range.mp hi
    have hplace : places + 1 - 1 - i = places - 1 - i + 1 := by omega
    rw [hplace, Nat.div_div_eq_div_mul, Nat.pow_eq, Nat.pow_eq, Nat.pow_succ']
  have hlast : digit (n / Nat.pow 16 (places + 1 - 1 - places) % 16) = digit (n % 16) := by
    rw [Nat.add_sub_cancel, Nat.sub_self, Nat.pow_eq, Nat.pow_zero, Nat.div_one]
  rw [digits, digits, List.range_succ, List.map_append, List.map_congr_left hinit,
    List.map_singleton, hlast]

theorem ofDigits?_concat (cs : List Char) (c : Char) :
    ofDigits? (cs ++ [c]) = ofDigits? cs >>= fun n => (value? c).map (16 * n + ·) := by
  rw [ofDigits?, List.foldlM_append]
  congr 1
  funext n
  rw [List.foldlM_cons]
  exact bind_pure _

/-- **Reading takes back what writing made of a number**, if there are places for all of it. -/
theorem ofDigits?_digits {places n : Nat} (h : n < Nat.pow 16 places) :
    ofDigits? (digits places n) = some n := by
  induction places generalizing n with
  | zero =>
    obtain rfl : n = 0 := Nat.lt_one_iff.mp h
    rfl
  | succ places ih =>
    have hquotient : n / 16 < Nat.pow 16 places := by
      rw [Nat.pow_eq, Nat.pow_succ'] at h
      exact Nat.div_lt_of_lt_mul h
    rw [digits_succ, ofDigits?_concat, ih hquotient, Option.bind_eq_bind, Option.bind_some,
      value?_digit _ (Nat.mod_lt n (by decide)), Option.map_some, Nat.div_add_mod]

end Hexadecimal

end ScriptBridge
