import ScriptBridge.Hexadecimal

/-!
# Identities of runtimes

A script runtime is identified by a universally unique 128-bit number. It is written as thirty-two
lower-case hexadecimal digits in hyphenated groups.
-/

namespace ScriptBridge

/-- The identity of a script runtime: a universally unique 128-bit number. -/
structure RuntimeId where
  value : BitVec 128
deriving DecidableEq, Repr

namespace RuntimeId

/-! ## The grouped form -/

/-- Thirty-two digits, a hyphen after the eighth, twelfth, sixteenth and twentieth. -/
def group (digits : List Char) : List Char :=
  digits.take 8 ++ '-' :: ((digits.drop 8).take 4 ++ '-' :: ((digits.drop 12).take 4 ++
    '-' :: ((digits.drop 16).take 4 ++ '-' :: digits.drop 20)))

/-- Where the hyphens stand among the thirty-six characters of the grouped form. -/
def hyphens : List Nat := [8, 13, 18, 23]

/-- The digits of the grouped form; nothing unless the hyphens stand where they belong. -/
def ungroup? (cs : List Char) : Option (List Char) :=
  if cs.length = 36 ∧ hyphens.all (cs[·]? == some '-') then
    some (cs.take 8 ++ ((cs.drop 9).take 4 ++ ((cs.drop 14).take 4 ++
      ((cs.drop 19).take 4 ++ cs.drop 24))))
  else none

/-- The text of an identity. -/
def text (id : RuntimeId) : String :=
  String.ofList (group (Hexadecimal.digits 32 id.value.toNat))

end RuntimeId

end ScriptBridge
