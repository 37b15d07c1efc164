import ScriptBridge.Value

/-!
# Equality of script values

Values are compared by structure. Objects are compared without regard to the order of their
properties: both have the same number of properties, and each property of the one is found in the
other with an equal value. Numbers follow `Binary64.same`, so a value that holds a not-a-number
differs from itself. Functions are equal when they are copies of one function.
-/

namespace ScriptBridge

namespace Value

mutual

/-- Equality of script values. -/
def same : Value → Value → Bool
  | undefined, undefined => true
  | null, null => true
  | bool a, bool b => a == b
  | number x, number y => x.same y
  | string s, string t => s == t
  | object ⟨entries⟩, object o => entries.length == o.size && foundIn entries o
  | array items, array items' => sameItems items items'
  | function f, function g => f.identity == g.identity
  | node a, node b => a == b
  | _, _ => false

/-- Equality of lists of values, item by item. -/
def sameItems : List Value → List Value → Bool
  | [], [] => true
  | item :: items, item' :: items' => same item item' && sameItems items items'
  | _, _ => false

/-- Every entry is found in the object, with an equal value. -/
def foundIn : List (String × Value) → Object → Bool
  | [], _ => true
  | (key, value) :: rest, o =>
    (match o.get? key with
      | some other => same value other
      | none => false) && foundIn rest o

end

/-! ## What the loops decide -/

theorem sameItems_iff {items items' : List Value} :
    sameItems items items' = true ↔
      items.length = items'.length ∧ ∀ pair ∈ items.zip items', pair.1.same pair.2 = true := by
  induction items generalizing items' with
  | nil => cases items' <;> simp [sameItems]
  | cons item items ih =>
    cases items' with
    | nil => simp [sameItems]
    | cons item' items' =>
      simp only [sameItems, Bool.and_eq_true, ih, List.length_cons, List.zip_cons_cons,
        List.forall_mem_cons, Nat.add_right_cancel_iff]
      exact and_left_comm

theorem foundIn_iff {entries : List (String × Value)} {o : Object} :
    foundIn entries o = true ↔
      ∀ entry ∈ entries, ∃ other, o.get? entry.1 = some other ∧ entry.2.same other = true := by
  induction entries with
  | nil => simp [foundIn]
  | cons entry entries ih =>
    obtain ⟨key, value⟩ := entry
    simp only [foundIn, Bool.and_eq_true, ih, List.mem_cons, forall_eq_or_imp]
    cases h : o.get? key <;> simp

end Value

end ScriptBridge
