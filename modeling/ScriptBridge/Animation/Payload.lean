import ScriptBridge.Animation.Kind
import ScriptBridge.Geometry

/-!
# Requests to start an animation

A request names the view and the kind, and carries one frame, or the current and the target frame
of a transition. Script code gets the frames as a value bag: an object with one number per field,
under names that tell the frames apart. Numbers go into the bag as they are.
-/

namespace ScriptBridge

/-- The frames that a start request carries. -/
inductive AnimationPayload where
  /-- One frame: a view that enters, leaves, … -/
  | single (frame : Geometry)
  /-- The two ends of a layout transition. -/
  | transition (current target : Geometry)
deriving DecidableEq, Repr

/-- A request to start an animation of a view. -/
structure AnimationRequest where
  tag : ViewTag
  kind : AnimationKind
  payload : AnimationPayload
deriving DecidableEq, Repr

/-- The names of the four fields of a frame in a value bag. -/
structure BagKeys where
  x : String
  y : String
  width : String
  height : String

namespace BagKeys

/-- The names used when there is one frame. -/
def single : BagKeys :=
  { x := "originX", y := "originY", width := "width", height := "height" }

/-- The names of the frame a transition starts from. -/
def current : BagKeys :=
  { x := "currentOriginX", y := "currentOriginY", width := "currentWidth",
    height := "currentHeight" }

/-- The names of the frame a transition leads to. -/
def target : BagKeys :=
  { x := "targetOriginX", y := "targetOriginY", width := "targetWidth", height := "targetHeight" }

/-- The properties of a frame under these names. -/
def properties (keys : BagKeys) (g : Geometry) : List (String × Value) :=
  [(keys.x, .number g.x), (keys.y, .number g.y), (keys.width, .number g.width),
    (keys.height, .number g.height)]

end BagKeys

namespace AnimationPayload

/-- The value bag of a payload. -/
def valueBag : AnimationPayload → Object
  | single frame => .ofList (BagKeys.single.properties frame)
  | transition current target =>
    .ofList (BagKeys.current.properties current ++ BagKeys.target.properties target)

/-- Numeric equality of payloads. -/
def same : AnimationPayload → AnimationPayload → Bool
  | single a, single b => a.same b
  | transition a a', transition b b' => a.same b && a'.same b'
  | _, _ => false

end AnimationPayload

end ScriptBridge
