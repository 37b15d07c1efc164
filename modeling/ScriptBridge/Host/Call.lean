import ScriptBridge.Argument

/-!
# Operations of a native host

What a host is asked to do, as data. A view is addressed by a node handle or by a tag; the two
address spaces are apart. `HostCall.target` is the view that an operation needs to be attached, and
`HostCall.Reply` is what the operation answers when it succeeds.
-/

namespace ScriptBridge

/-- The address of a view. -/
inductive ViewAddress where
  | node (handle : NodeHandle)
  | tag (tag : ViewTag)
deriving DecidableEq, Repr

/-- How messages name a view. -/
def ViewAddress.text : ViewAddress → String
  | .node handle => "node " ++ toString handle.raw.toNat
  | .tag t => "view " ++ toString t.toInt

/-- An operation as a host receives it. -/
inductive HostCall where
  /-- Set properties of a node. -/
  | updateNodeProps (node : NodeHandle) (props : Object)
  /-- Forget the properties of a node. -/
  | removeFromPropsRegistry (node : NodeHandle)
  /-- Send a command to a node. -/
  | dispatchToNode (node : NodeHandle) (command : String) (args : Value)
  /-- Measure a node. -/
  | measureNode (node : NodeHandle)
  /-- Read a property of a node. -/
  | obtainNodeProp (node : NodeHandle) (name : String)
  /-- Set properties of a tagged view. -/
  | updateViewProps (tag : ViewTag) (viewName : String) (props : Object)
  /-- Send a command to a tagged view. -/
  | dispatchToView (tag : ViewTag) (command : String) (args : Value)
  /-- Scroll a tagged view. -/
  | scrollTo (tag : ViewTag) (x y : Binary64) (animated : Bool)
  /-- Measure a tagged view. -/
  | measureView (tag : ViewTag)
  /-- Read a property of a tagged view. -/
  | obtainViewProp (tag : ViewTag) (name : String)
  /-- An animation of a view made progress. -/
  | notifyProgress (tag : ViewTag) (values : Object) (isSharedTransition : Bool)
  /-- An animation of a view ended. -/
  | notifyEnd (tag : ViewTag) (isCancelled removeView : Bool)
  /-- Move a gesture handler to another state. -/
  | setGestureState (handler state : Int32)
  /-- Carry out queued updates. -/
  | flushUiUpdates

namespace HostCall

/-- What an operation answers when it succeeds. -/
abbrev Reply : HostCall → Type
  | measureNode _ => List (String × Binary64)
  | measureView _ => List (String × Binary64)
  | obtainNodeProp _ _ => Value
  | obtainViewProp _ _ => Value
  | _ => Unit

/-- The view that has to be attached for the operation to succeed. -/
def target : HostCall → Option ViewAddress
  | updateNodeProps node _ => some (.node node)
  | removeFromPropsRegistry _ => none
  | dispatchToNode node _ _ => some (.node node)
  | measureNode node => some (.node node)
  | obtainNodeProp node _ => some (.node node)
  | updateViewProps tag _ _ => some (.tag tag)
  | dispatchToView tag _ _ => some (.tag tag)
  | scrollTo tag _ _ _ => some (.tag tag)
  | measureView tag => some (.tag tag)
  | obtainViewProp tag _ => some (.tag tag)
  | notifyProgress tag _ _ => some (.tag tag)
  | notifyEnd _ _ _ => none
  | setGestureState _ _ => none
  | flushUiUpdates => none

end HostCall

/-- An operation failed because its view is detached. -/
structure Detached where
  view : ViewAddress
deriving DecidableEq, Repr

/-- The native failure of an operation on a detached view. -/
def Detached.failure (d : Detached) : FailureChain := .ofRoot (d.view.text ++ " is detached")

end ScriptBridge
