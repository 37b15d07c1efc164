import ScriptBridge.Json
import ScriptBridge.Json.Reader
import ScriptBridge.RuntimeId

/-!
# The stored form of a runtime's identity

An identity is stored as a JSON string that holds one of its spellings. Four of them are read, in
either case: the bare digits, the hyphenated groups, the groups in braces, and the groups behind
`urn:uuid:`.
-/

namespace ScriptBridge

namespace RuntimeId

/-! ## Spellings -/

/-- The identity with these thirty-two digits. -/
def ofDigits? (digits : List Char) : Option RuntimeId :=
  (Hexadecimal.ofDigits? digits).map fun n => ⟨BitVec.ofNat 128 n⟩

/-- The identity in grouped form. -/
def ofGrouped? (cs : List Char) : Option RuntimeId := ungroup? cs >>= ofDigits?

/-- The grouped form inside braces. -/
def unbrace? (cs : List Char) : Option (List Char) :=
  if cs.head? = some '\x7b' ∧ cs.getLast? = some '\x7d' then some (cs.drop 1).dropLast else none

/-- The grouped form behind the prefix of a resource name. -/
def resourceName? (cs : List Char) : Option (List Char) :=
  "urn:uuid:".toList.isPrefixOf? cs

/-- Read an identity in one of its four spellings, told apart by their length. -/
def parse? (s : String) : Option RuntimeId :=
  let cs := s.toList
  match cs.length with
  | 32 => ofDigits? cs
  | 36 => ofGrouped? cs
  | 38 => unbrace? cs >>= ofGrouped?
  | 45 => resourceName? cs >>= ofGrouped?
  | _ => none

/-! ## Documents -/

/-- The stored form of an identity. -/
def toJson (id : RuntimeId) : Json := .string id.text

/-- Read a stored identity. -/
def parseJson? (text : String) : Option RuntimeId :=
  Json.Raw.parse? text >>= Json.Raw.string? >>= parse?

end RuntimeId

end ScriptBridge
