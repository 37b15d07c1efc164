import ScriptBridge.Value
import ScriptBridge.Json

/-!
# The JSON view of script values

A diagnostic view. `undefined` and `null` are both `null`, numbers that are not finite are `null`,
functions and node handles are described by a string. The members of an object are listed in
increasing order of their keys, by code point, so that the order of insertion does not show.
-/

namespace ScriptBridge

namespace Json

/-- Put a member in front of the first one that has a larger key. -/
def insertMember (member : String × Json) : List (String × Json) → List (String × Json)
  | [] => [member]
  | other :: rest =>
    if member.1 < other.1 then member :: other :: rest else other :: insertMember member rest

/-- Sort members by their keys. -/
def sortMembers (members : List (String × Json)) : List (String × Json) :=
  members.foldr insertMember []

end Json

namespace Value

mutual

/-- The JSON view of a value. -/
def toJson : Value → Json
  | undefined => .null
  | null => .null
  | bool b => .bool b
  | number x => .ofNumber x
  | string s => .string s
  | object ⟨entries⟩ => .object (Json.sortMembers (membersToJson entries))
  | array items => .array (itemsToJson items)
  | function f => .string f.label
  | node handle => .string handle.label

/-- The views of the items of an array. -/
def itemsToJson : List Value → List Json
  | [] => []
  | item :: rest => item.toJson :: itemsToJson rest

/-- The views of the properties of an object, in insertion order. -/
def membersToJson : List (String × Value) → List (String × Json)
  | [] => []
  | (key, value) :: rest => (key, value.toJson) :: membersToJson rest

end

theorem itemsToJson_eq_map (items : List Value) : itemsToJson items = items.map toJson := by
  induction items with
  | nil => rfl
  | cons item rest ih => simp [itemsToJson, ih]

theorem membersToJson_eq_map (entries : List (String × Value)) :
    membersToJson entries = entries.map fun entry => (entry.1, entry.2.toJson) := by
  induction entries with
  | nil => rfl
  | cons entry rest ih => simp [membersToJson, ih]

end Value

namespace OrderedMap

/-- The JSON view of an object. -/
def toJson (o : Object) : Json := (Value.object o).toJson

end OrderedMap

end ScriptBridge
