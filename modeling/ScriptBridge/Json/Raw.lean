import ScriptBridge.Hexadecimal
import ScriptBridge.Json.Numeral

/-!
# JSON documents as read

Reading keeps numbers and strings as they are written. What nobody asks for is checked for its form
only: a number may be too large, a string may hold half of a surrogate pair.

Records are read from objects, in any order and with unknown members skipped, or from arrays, by
position. Choices are read from the name of the choice, or from an object with the name as its only
member and `null` as its value.
-/

namespace ScriptBridge

namespace Json

/-- A piece of a quoted string. -/
inductive Piece where
  /-- A character that stands for itself, or a short escape. -/
  | char (c : Char)
  /-- A 16-bit unit that is given by its number. -/
  | unit (n : Nat)
deriving DecidableEq, Repr

/-- The first unit of a surrogate pair. -/
def isLeading (n : Nat) : Bool := 0xd800 ≤ n && n < 0xdc00

/-- The second unit of a surrogate pair. -/
def isTrailing (n : Nat) : Bool := 0xdc00 ≤ n && n < 0xe000

/-- The characters of a string. Units in the surrogate range have to come in pairs. -/
def assemble : List Piece → Option (List Char)
  | [] => some []
  | .char c :: rest => (assemble rest).map (c :: ·)
  | [.unit n] => if isLeading n || isTrailing n then none else some [Char.ofNat n]
  | .unit n :: .unit m :: rest =>
    if isLeading n then
      if isTrailing m then
        (assemble rest).map (Char.ofNat (0x10000 + (n - 0xd800) * 0x400 + (m - 0xdc00)) :: ·)
      else none
    else if isTrailing n then none
    else (assemble (.unit m :: rest)).map (Char.ofNat n :: ·)
  | .unit n :: .char c :: rest =>
    if isLeading n || isTrailing n then none
    else (assemble (.char c :: rest)).map (Char.ofNat n :: ·)

/-- A document as read. -/
inductive Raw where
  | null
  | bool (b : Bool)
  | number (n : Numeral)
  | string (pieces : List Piece)
  | array (items : List Raw)
  | object (members : List (List Piece × Raw))

namespace Raw

/-- The text of a string. -/
def string? : Raw → Option String
  | string pieces => (assemble pieces).map String.ofList
  | _ => none

/-- A count of sixty-four bits. -/
def uint64? : Raw → Option UInt64
  | number n => n.toUInt64?
  | _ => none

/-- A floating point number. -/
def binary64? : Raw → Option Binary64
  | number n => n.toBinary64?
  | _ => none

/-- The name of a choice. -/
def choice? : Raw → Option String
  | string pieces => (assemble pieces).map String.ofList
  | object [(key, null)] => (assemble key).map String.ofList
  | _ => none

/-- The values of the members with a name. -/
def valuesOf (name : String) (members : List (String × Raw)) : List Raw :=
  (members.filter (·.1 == name)).map (·.2)

/-- The value of the member with a name, if there is one. Two are refused. -/
def field? (name : String) (members : List (String × Raw)) : Option (Option Raw) :=
  match valuesOf name members with
  | [] => some none
  | [value] => some (some value)
  | _ => none

/-- The members of an object with their keys as text. -/
def decodeKeys (members : List (List Piece × Raw)) : Option (List (String × Raw)) :=
  members.mapM fun member => (assemble member.1).map fun key => (String.ofList key, member.2)

/-- The fields of a record, each present or absent, in the order of their names. -/
def record? (names : List String) : Raw → Option (List (Option Raw))
  | object members => do
    let members ← decodeKeys members
    names.mapM (field? · members)
  | array items =>
    if items.length ≤ names.length then
      some (items.map some ++ List.replicate (names.length - items.length) none)
    else none
  | _ => none

end Raw

end Json

end ScriptBridge
