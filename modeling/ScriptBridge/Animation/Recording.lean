import ScriptBridge.Animation.Registry

/-!
# A manager that records

A manager without animations. It keeps every start together with the thread it came in on and what
the marker of the UI runtime read as, except for chosen views, whose starts throw.
-/

namespace ScriptBridge

/-- The start of an animation as a manager received it. -/
structure RecordedStart where
  thread : String
  isUi : Bool
  tag : ViewTag
  kind : AnimationKind
  values : Object

/-- The state of a recording manager. -/
structure RecordingManager where
  /-- The name of the thread that the manager is used on. -/
  thread : String
  /-- The views whose starts throw. -/
  failing : List ViewTag := []
  starts : List RecordedStart := []

namespace RecordingManager

/-- Record a start or throw. -/
def manager : AnimationManager RecordingManager where
  start r tag kind values := do
    if tag ∈ r.failing then
      return (.error (.type ("no animation for " ++ toString tag.toInt)), r)
    else
      let isUi ← Script.isUiRuntime
      let start := { thread := r.thread, isUi, tag, kind, values }
      return (.ok (), { r with starts := r.starts ++ [start] })

end RecordingManager

end ScriptBridge
