import ScriptBridge.Json

/-!
# Equality of JSON documents

Documents are compared by structure: arrays item by item, objects member by member in the order in
which they are listed. Numbers are compared as numbers, so the two zeros agree. A count is no
floating point number, whatever its value.
-/

namespace ScriptBridge

namespace Json

mutual

/-- Equality of documents. -/
def same : Json → Json → Bool
  | null, null => true
  | bool a, bool b => a == b
  | natural m, natural n => m == n
  | number x, number y => x.same y
  | string s, string t => s == t
  | array items, array items' => sameItems items items'
  | object members, object members' => sameMembers members members'
  | _, _ => false

/-- Equality of lists of documents, item by item. -/
def sameItems : List Json → List Json → Bool
  | [], [] => true
  | item :: items, item' :: items' => same item item' && sameItems items items'
  | _, _ => false

/-- Equality of lists of members: the same keys with equal values. -/
def sameMembers : List (String × Json) → List (String × Json) → Bool
  | [], [] => true
  | (key, value) :: members, (key', value') :: members' =>
    key == key' && same value value' && sameMembers members members'
  | _, _ => false

end

end Json

end ScriptBridge
