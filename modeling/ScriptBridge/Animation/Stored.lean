import ScriptBridge.Animation.Kind
import ScriptBridge.Json
import ScriptBridge.Json.Reader

/-!
# The stored form of a kind of animation

Each kind has a name, by which it is stored and shown. It is stored as the choice of that name.
-/

namespace ScriptBridge

namespace AnimationKind

/-- The name of a kind. -/
def name : AnimationKind → String
  | entering => "ENTERING"
  | exiting => "EXITING"
  | layout => "LAYOUT"
  | sharedElementTransition => "SHARED_ELEMENT_TRANSITION"
  | sharedElementTransitionProgress => "SHARED_ELEMENT_TRANSITION_PROGRESS"

/-- The kind with a name. -/
def ofName? (name : String) : Option AnimationKind := all.find? (·.name == name)

theorem ofName?_name (kind : AnimationKind) : ofName? kind.name = some kind := by
  cases kind <;> decide

/-- The stored form of a kind. -/
def toJson (kind : AnimationKind) : Json := .string kind.name

/-- Read a kind. -/
def parse? (text : String) : Option AnimationKind :=
  Json.Raw.parse? text >>= Json.Raw.choice? >>= ofName?

end AnimationKind

end ScriptBridge
