/-!
# Texts and their bytes are ordered alike

The order of texts goes by their characters, the order that others see goes by the bytes of UTF-8.
It is the same order: the bytes of a character are its number in groups of six bits, highest first,
and the first byte of a longer character is larger than that of a shorter one.

* `Utf8.groups` — a number in groups of six bits, the first one marked with how many follow.
* `Utf8.groups_lt` — groups of one number are ordered as the numbers are.
* `Utf8.utf8EncodeChar_eq` — the bytes of a character are such groups.
* `Utf8.bytes_lt_bytes_iff` — texts are ordered as their bytes are.
-/

namespace ScriptBridge

namespace Utf8

/-! ## Groups of six bits -/

/-- A number as `more + 1` bytes: every byte but the first one holds six bits, and the first one the
rest, on top of a mark that tells how many follow. -/
def groups (mark : Nat) : (more : Nat) → Nat → List UInt8
  | 0, n => [UInt8.ofNat (mark + n)]
  | more + 1, n => groups mark more (n / 64) ++ [UInt8.ofNat (n % 64 + 128)]

/-- What the first byte holds. -/
def lead : (more : Nat) → Nat → Nat
  | 0, n => n
  | more + 1, n => lead more (n / 64)

theorem cons_lt_cons_of_toNat_lt {a b : UInt8} (h : a.toNat < b.toNat) (x y : List UInt8) :
    a :: x < b :: y :=
  List.cons_lt_cons_iff.mpr (Or.inl h)

theorem groups_lt {mark more m n : Nat} (hlt : m < n) (hfits : mark + lead more n < 256)
    (x y : List UInt8) : groups mark more m ++ x < groups mark more n ++ y := by
  induction more generalizing m n x y with
  | zero =>
    refine cons_lt_cons_of_toNat_lt ?_ x y
    change mark + n < 256 at hfits
    rw [UInt8.toNat_ofNat', UInt8.toNat_ofNat']
    omega
  | succ more ih =>
    rw [groups, groups, List.append_assoc, List.append_assoc]
    by_cases hhigh : m / 64 = n / 64
    · -- The six bits in the last byte decide.
      rw [hhigh]
      refine List.append_left_lt (cons_lt_cons_of_toNat_lt ?_ x y)
      rw [UInt8.toNat_ofNat', UInt8.toNat_ofNat']
      omega
    · exact ih (by omega) hfits _ _

theorem exists_groups_eq_cons (mark more n : Nat) :
    ∃ rest, groups mark more n = UInt8.ofNat (mark + lead more n) :: rest := by
  induction more generalizing n with
  | zero => exact ⟨[], rfl⟩
  | succ more ih =>
    obtain ⟨rest, hrest⟩ := ih (n / 64)
    exact ⟨rest ++ [UInt8.ofNat (n % 64 + 128)], by rw [groups, hrest]; rfl⟩

/-! ## Characters -/

/-- How many bytes follow the first one of the character with this number. -/
def following (n : Nat) : Nat :=
  if n ≤ 0x7f then 0 else if n ≤ 0x7ff then 1 else if n ≤ 0xffff then 2 else 3

/-- The mark in the first byte. -/
def mark : (more : Nat) → Nat
  | 0 => 0
  | 1 => 0xc0
  | 2 => 0xe0
  | _ => 0xf0

/-- The first byte of the character with this number. -/
def firstByte (n : Nat) : Nat := mark (following n) + lead (following n) n

theorem toNat_lt (c : Char) : c.toNat < 0x110000 := by
  have hvalid : c.toNat < 0xd800 ∨ 0xdfff < c.toNat ∧ c.toNat < 0x110000 := c.valid
  omega

theorem following_cases (n : Nat) :
    (n ≤ 0x7f ∧ following n = 0) ∨ (0x7f < n ∧ n ≤ 0x7ff ∧ following n = 1) ∨
      (0x7ff < n ∧ n ≤ 0xffff ∧ following n = 2) ∨ (0xffff < n ∧ following n = 3) := by
  unfold following
  split
  · omega
  · split
    · omega
    · split <;> omega

theorem utf8EncodeChar_eq (c : Char) :
    String.utf8EncodeChar c = groups (mark (following c.toNat)) (following c.toNat) c.toNat := by
  have hlt := toNat_lt c
  have hval : c.val.toNat = c.toNat := rfl
  unfold String.utf8EncodeChar
  rw [hval]
  generalize c.toNat = n at hlt
  rcases following_cases n with ⟨hn, hk⟩ | ⟨hlow, hn, hk⟩ | ⟨hlow, hn, hk⟩ | ⟨hlow, hk⟩
  · simp [hk, hn, groups, mark]
  · have h₁ : ¬ n ≤ 0x7f := by omega
    have hlead : n / 64 % 32 + 192 = 192 + n / 64 := by omega
    simp [hk, h₁, hn, groups, mark, hlead]
  · have h₁ : ¬ n ≤ 0x7f := by omega
    have h₂ : ¬ n ≤ 0x7ff := by omega
    have hlead : n / 4096 % 16 + 224 = 224 + n / 4096 := by omega
    simp [hk, h₁, h₂, hn, groups, mark, hlead, Nat.div_div_eq_div_mul]
  · have h₁ : ¬ n ≤ 0x7f := by omega
    have h₂ : ¬ n ≤ 0x7ff := by omega
    have h₃ : ¬ n ≤ 0xffff := by omega
    have hlead : n / 262144 % 8 + 240 = 240 + n / 262144 := by omega
    simp [hk, h₁, h₂, h₃, groups, mark, hlead, Nat.div_div_eq_div_mul]

/-- The first byte tells how many others follow. -/
theorem firstByte_cases {n : Nat} (hlt : n < 0x110000) :
    (following n = 0 ∧ firstByte n < 0xc0) ∨
      (following n = 1 ∧ 0xc0 ≤ firstByte n ∧ firstByte n < 0xe0) ∨
      (following n = 2 ∧ 0xe0 ≤ firstByte n ∧ firstByte n < 0xf0) ∨
      (following n = 3 ∧ 0xf0 ≤ firstByte n ∧ firstByte n < 0x100) := by
  rcases following_cases n with ⟨hn, hk⟩ | ⟨hlow, hn, hk⟩ | ⟨hlow, hn, hk⟩ | ⟨hlow, hk⟩
  · have hfirst : firstByte n = 0 + n := by rw [firstByte, hk]; rfl
    omega
  · have hfirst : firstByte n = 0xc0 + n / 64 := by rw [firstByte, hk]; rfl
    omega
  · have hfirst : firstByte n = 0xe0 + n / 64 / 64 := by rw [firstByte, hk]; rfl
    omega
  · have hfirst : firstByte n = 0xf0 + n / 64 / 64 / 64 := by rw [firstByte, hk]; rfl
    omega

theorem following_le {m n : Nat} (h : m < n) : following m ≤ following n := by
  have hm := following_cases m
  have hn := following_cases n
  omega

/-- The bytes of the smaller character come first, whatever follows. -/
theorem utf8EncodeChar_append_lt {c d : Char} (h : c < d) (x y : List UInt8) :
    String.utf8EncodeChar c ++ x < String.utf8EncodeChar d ++ y := by
  have hlt : c.toNat < d.toNat := h
  have hfirst := firstByte_cases (toNat_lt c)
  have hfirst' := firstByte_cases (toNat_lt d)
  rw [utf8EncodeChar_eq, utf8EncodeChar_eq]
  by_cases hk : following c.toNat = following d.toNat
  · have hfits : firstByte d.toNat < 256 := by omega
    rw [hk]
    exact groups_lt hlt hfits x y
  · -- The longer character has the larger first byte.
    have hlonger := following_le hlt
    have hbyte : firstByte c.toNat < firstByte d.toNat ∧ firstByte d.toNat < 256 := by omega
    obtain ⟨rest, hrest⟩ :=
      exists_groups_eq_cons (mark (following c.toNat)) (following c.toNat) c.toNat
    obtain ⟨rest', hrest'⟩ :=
      exists_groups_eq_cons (mark (following d.toNat)) (following d.toNat) d.toNat
    rw [hrest, hrest']
    refine cons_lt_cons_of_toNat_lt ?_ _ _
    show (UInt8.ofNat (firstByte c.toNat)).toNat < (UInt8.ofNat (firstByte d.toNat)).toNat
    rw [UInt8.toNat_ofNat', UInt8.toNat_ofNat']
    omega

/-! ## Texts -/

theorem flatMap_utf8EncodeChar_lt {s t : List Char} (h : s < t) :
    s.flatMap String.utf8EncodeChar < t.flatMap String.utf8EncodeChar := by
  induction t generalizing s with
  | nil => exact absurd h (List.not_lt_nil s)
  | cons d t ih =>
    cases s with
    | nil =>
      obtain ⟨rest, hrest⟩ :=
        exists_groups_eq_cons (mark (following d.toNat)) (following d.toNat) d.toNat
      rw [List.flatMap_cons, utf8EncodeChar_eq, hrest]
      exact List.nil_lt_cons _ _
    | cons c s =>
      rw [List.flatMap_cons, List.flatMap_cons]
      rcases List.cons_lt_cons_iff.mp h with hlt | ⟨rfl, hlt⟩
      · exact utf8EncodeChar_append_lt hlt _ _
      · exact List.append_left_lt (ih hlt)

/-- The bytes of a text. -/
def bytes (s : String) : List UInt8 := s.toUTF8.data.toList

theorem bytes_eq (s : String) : bytes s = s.toList.flatMap String.utf8EncodeChar := by
  rw [bytes, String.toUTF8_eq_toByteArray, ← String.utf8Encode_toList, List.utf8Encode,
    List.toList_data_toByteArray]

/-- **Texts are ordered as their bytes are.** -/
theorem bytes_lt_bytes_iff {s t : String} : bytes s < bytes t ↔ s < t := by
  rw [bytes_eq, bytes_eq]
  refine ⟨fun h => ?_, flatMap_utf8EncodeChar_lt⟩
  by_cases hgt : t < s
  · exact absurd h (List.lt_asymm (flatMap_utf8EncodeChar_lt hgt))
  · refine Decidable.byContradiction fun hlt => ?_
    have heq : s = t := String.le_antisymm (String.not_lt.mp hgt) (String.not_lt.mp hlt)
    rw [heq] at h
    exact List.lt_irrefl _ h

end Utf8

end ScriptBridge
