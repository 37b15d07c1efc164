import ScriptBridge.Geometry
import ScriptBridge.Json.Reader

/-!
# Reading a stored frame

A frame is stored as a JSON record in which every field is present.
-/

namespace ScriptBridge

namespace Geometry

/-- The names of the stored fields, in order. -/
def fieldNames : List String := ["x", "y", "width", "height"]

/-- The frame that a document holds. -/
def ofRaw? (raw : Json.Raw) : Option Geometry := do
  match ← raw.record? fieldNames with
  | [some x, some y, some width, some height] =>
    return { x := ← x.binary64?, y := ← y.binary64?, width := ← width.binary64?,
             height := ← height.binary64? }
  | _ => none

/-- Read a frame. -/
def parse? (text : String) : Option Geometry := Json.Raw.parse? text >>= ofRaw?

end Geometry

end ScriptBridge
