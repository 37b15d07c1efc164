import ScriptBridge.Geometry
import ScriptBridge.Host.Call

/-!
# A host that records

A host without a renderer. It keeps every operation it receives, in order. Properties that were set
can be read back, and every view measures as the same frame. An operation on a detached view is
recorded and then fails.

`RecordingHost.perform` is the whole behaviour, one operation at a time:

* the log grows by exactly the operation (`calls_perform`);
* it fails exactly when its target is detached (`perform_eq_error_iff`).
-/

namespace ScriptBridge

/-- The state of a recording host. -/
structure RecordingHost where
  /-- The frame as which every view measures. -/
  measurement : Geometry
  /-- Every operation received so far, in order. -/
  calls : List HostCall := []
  /-- The properties set on each view and not removed since. -/
  props : OrderedMap ViewAddress Object := .empty
  /-- The views that are detached. -/
  detached : List ViewAddress := []

namespace RecordingHost

/-- A host whose views all measure as the given frame. -/
def new (measurement : Geometry) : RecordingHost := { measurement }

/-- Detach a view. -/
def detach (host : RecordingHost) (view : ViewAddress) : RecordingHost :=
  if view ∈ host.detached then host else { host with detached := host.detached ++ [view] }

/-- The properties of a view. -/
def propsOf (host : RecordingHost) (view : ViewAddress) : Object :=
  (host.props.get? view).getD .empty

/-- Merge properties into those of a view. -/
def mergeProps (host : RecordingHost) (view : ViewAddress) (props : Object) : RecordingHost :=
  { host with props := host.props.insert view ((host.propsOf view).insertAll props.entries) }

/-- Forget the properties of a view. -/
def removeProps (host : RecordingHost) (view : ViewAddress) : RecordingHost :=
  { host with props := host.props.erase view }

/-- The value of a property of a view, `undefined` if it was never set. -/
def prop (host : RecordingHost) (view : ViewAddress) (name : String) : Value :=
  ((host.propsOf view).get? name).getD .undefined

/-- The named numbers of a measurement. The page position is the position of the frame. -/
def measuredNumbers (host : RecordingHost) : List (String × Binary64) :=
  let m := host.measurement
  [("x", m.x), ("y", m.y), ("width", m.width), ("height", m.height), ("pageX", m.x),
    ("pageY", m.y)]

/-- The answer and the effect of an operation whose view is attached. -/
def carryOut (host : RecordingHost) : (call : HostCall) → call.Reply × RecordingHost
  | .updateNodeProps node props => ((), host.mergeProps (.node node) props)
  | .removeFromPropsRegistry node => ((), host.removeProps (.node node))
  | .dispatchToNode _ _ _ => ((), host)
  | .measureNode _ => (host.measuredNumbers, host)
  | .obtainNodeProp node name => (host.prop (.node node) name, host)
  | .updateViewProps tag _ props => ((), host.mergeProps (.tag tag) props)
  | .dispatchToView _ _ _ => ((), host)
  | .scrollTo _ _ _ _ => ((), host)
  | .measureView _ => (host.measuredNumbers, host)
  | .obtainViewProp tag name => (host.prop (.tag tag) name, host)
  | .notifyProgress _ _ _ => ((), host)
  | .notifyEnd _ _ _ => ((), host)
  | .setGestureState _ _ => ((), host)
  | .flushUiUpdates => ((), host)

/-- The detached view that an operation is aimed at, if there is one. -/
def obstacle (host : RecordingHost) (call : HostCall) : Option Detached :=
  match call.target with
  | none => none
  | some view => if view ∈ host.detached then some ⟨view⟩ else none

/-- Record the operation, then carry it out unless its view is detached. -/
def perform (host : RecordingHost) (call : HostCall) :
    Except Detached call.Reply × RecordingHost :=
  let recorded := { host with calls := host.calls ++ [call] }
  match host.obstacle call with
  | some detached => (.error detached, recorded)
  | none => ((.ok (recorded.carryOut call).1), (recorded.carryOut call).2)

/-! ## The log and the failures -/

theorem calls_carryOut (host : RecordingHost) (call : HostCall) :
    (host.carryOut call).2.calls = host.calls := by
  cases call <;> rfl

theorem calls_perform (host : RecordingHost) (call : HostCall) :
    (host.perform call).2.calls = host.calls ++ [call] := by
  unfold perform
  split
  · rfl
  · rw [calls_carryOut]

theorem perform_eq_error_iff (host : RecordingHost) (call : HostCall) (d : Detached) :
    (host.perform call).1 = .error d ↔ call.target = some d.view ∧ d.view ∈ host.detached := by
  unfold perform obstacle
  cases call.target with
  | none => simp
  | some view =>
    by_cases h : view ∈ host.detached
    · simp only [h, if_true, Except.error.injEq, Option.some.injEq]
      constructor
      · rintro rfl
        exact ⟨rfl, h⟩
      · rintro ⟨rfl, _⟩
        rfl
    · simp only [h, if_false, reduceCtorEq, Option.some.injEq, false_iff, not_and]
      rintro rfl
      exact h

end RecordingHost

end ScriptBridge
