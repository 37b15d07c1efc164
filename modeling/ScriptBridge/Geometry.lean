import ScriptBridge.Binary64
import ScriptBridge.Json

/-!
# Frames of views

A frame is a position and a size. Frames are compared number by number, so one that holds a
not-a-number differs from itself.
-/

namespace ScriptBridge

/-- The frame of a view at a point in time. -/
structure Geometry where
  x : Binary64
  y : Binary64
  width : Binary64
  height : Binary64
deriving DecidableEq, Repr, Inhabited

namespace Geometry

/-- Numeric equality of frames. -/
def same (a b : Geometry) : Bool :=
  a.x.same b.x && a.y.same b.y && a.width.same b.width && a.height.same b.height

/-- The stored form of a frame. -/
def toJson (g : Geometry) : Json :=
  .object [("x", .ofNumber g.x), ("y", .ofNumber g.y), ("width", .ofNumber g.width),
    ("height", .ofNumber g.height)]

end Geometry

end ScriptBridge
