import ScriptBridge.Host.Operations

/-!
# Substituted host operations

To see how scripts fare with another host, single operations of the recording host can be
substituted: by one that fails, by a fixed measurement or timestamp, or by one that asks script code
for a property. A substituted operation does not reach the recording host.
-/

namespace ScriptBridge

/-- The host operations that can be substituted. -/
inductive HostOperation where
  | updateProps
  | removeFromPropsRegistry
  | dispatchCommand
  | scrollTo
  | measure
  | obtainProp
  | requestAnimationFrame
  | getAnimationTimestamp
  | progressLayoutAnimation
  | endLayoutAnimation
  | setGestureState
  | maybeFlushUiUpdatesQueue
deriving DecidableEq, Repr

/-- Which operations are substituted, and by what. -/
structure Substitution where
  /-- Operations that fail, each with its failure. -/
  failures : List (HostOperation × FailureChain) := []
  /-- The named numbers that every measurement gives. -/
  measurement : Option (List (String × Binary64)) := none
  /-- The timestamp of the last frame. -/
  timestamp : Option Binary64 := none
  /-- A property is obtained by calling the global of its name. -/
  obtainsByCall : Bool := false

namespace Substitution

/-- The operation itself, or its failure if it is to fail. -/
def orFail {α : Type} (s : Substitution) (op : HostOperation) (native : Native α) : Native α :=
  match s.failures.lookup op with
  | some failure => .error failure
  | none => native

/-- How a property is obtained, given the operation of the host. -/
def obtain (s : Substitution) (name : String) (native : Native Value) : Native Value :=
  if s.obtainsByCall then Native.ofScript (Script.callGlobal name [])
  else s.orFail .obtainProp native

/-- The common operations after substitution. -/
def common (s : Substitution) : CommonOperations :=
  let ops := RecordingHost.commonOperations
  { requestAnimationFrame := fun v =>
      s.orFail .requestAnimationFrame (ops.requestAnimationFrame v)
    getAnimationTimestamp :=
      match s.timestamp with
      | some timestamp => return timestamp
      | none => s.orFail .getAnimationTimestamp ops.getAnimationTimestamp
    progressLayoutAnimation := fun tag values isShared =>
      s.orFail .progressLayoutAnimation (ops.progressLayoutAnimation tag values isShared)
    endLayoutAnimation := fun tag isCancelled removeView =>
      s.orFail .endLayoutAnimation (ops.endLayoutAnimation tag isCancelled removeView)
    setGestureState := fun handler state =>
      s.orFail .setGestureState (ops.setGestureState handler state)
    maybeFlushUiUpdatesQueue :=
      s.orFail .maybeFlushUiUpdatesQueue ops.maybeFlushUiUpdatesQueue }

/-- The operations addressed by node handles after substitution. -/
def node (s : Substitution) : NodeOperations :=
  let ops := RecordingHost.nodeOperations
  { updateProps := fun node props => s.orFail .updateProps (ops.updateProps node props)
    removeFromPropsRegistry := fun node =>
      s.orFail .removeFromPropsRegistry (ops.removeFromPropsRegistry node)
    dispatchCommand := fun node command args =>
      s.orFail .dispatchCommand (ops.dispatchCommand node command args)
    measure := fun node =>
      match s.measurement with
      | some pairs => return measurementObject pairs
      | none => s.orFail .measure (ops.measure node)
    obtainProp := fun node name => s.obtain name (ops.obtainProp node name) }

/-- The operations addressed by tags after substitution. -/
def tag (s : Substitution) : TagOperations :=
  let ops := RecordingHost.tagOperations
  { updateProps := fun tag viewName props =>
      s.orFail .updateProps (ops.updateProps tag viewName props)
    dispatchCommand := fun tag command args =>
      s.orFail .dispatchCommand (ops.dispatchCommand tag command args)
    scrollTo := fun tag x y animated => s.orFail .scrollTo (ops.scrollTo tag x y animated)
    measure := fun tag =>
      match s.measurement with
      | some pairs => return pairs
      | none => s.orFail .measure (ops.measure tag)
    obtainProp := fun tag name => s.obtain name (ops.obtainProp tag name) }

end Substitution

end ScriptBridge
