import ScriptBridge.Bridge.Function

/-!
# Catalogues of bridge functions

Three catalogues: the operations that every renderer offers, those of the renderer that addresses
views by node handles, and those of the renderer that addresses them by tags. A catalogue lists
bridge functions over a record of native operations, which the host supplies.

A `Renderer` is the part of the bridge that differs between renderers. Hosts may bring renderers of
their own.
-/

namespace ScriptBridge

/-- How the bridge functions of a renderer address views. -/
inductive Addressing where
  | nodeHandle
  | viewTag
deriving DecidableEq, Repr

/-- A renderer, as far as the bridge is concerned. -/
structure Renderer where
  name : String
  addressing : Addressing
  /-- The bridge functions of the renderer; nothing if the host panics when asked for them. -/
  functions : Option (List BridgeFunction)

/-! ## Renderers made of script functions -/

/-- A bridge function that hands its arguments to another function. -/
def BridgeFunction.forwardTo (name : String) (function : Function) : BridgeFunction :=
  { name, code := Script.call function }

/-- A renderer whose bridge functions hand their arguments to other functions, in this order. -/
def Renderer.forwarding (name : String) (addressing : Addressing)
    (functions : List (String × Function)) : Renderer :=
  { name, addressing
    functions := some (functions.map fun entry => .forwardTo entry.1 entry.2) }

/-! ## Operations of every renderer -/

/-- The native operations that every renderer offers. -/
structure CommonOperations where
  requestAnimationFrame : Value → Native Unit
  getAnimationTimestamp : Native Binary64
  /-- View, progress values, whether it is a shared transition. -/
  progressLayoutAnimation : ViewTag → Object → Bool → Native Unit
  /-- View, whether it was cancelled, whether the view is to be removed. -/
  endLayoutAnimation : ViewTag → Bool → Bool → Native Unit
  /-- Gesture handler and its new state. -/
  setGestureState : Int32 → Int32 → Native Unit
  maybeFlushUiUpdatesQueue : Native Unit

/-- The bridge functions of every renderer. -/
def CommonOperations.functions (ops : CommonOperations) : List BridgeFunction :=
  [.unary "requestAnimationFrame" ops.requestAnimationFrame,
    .nullary "_getAnimationTimestamp" ops.getAnimationTimestamp,
    .ternary "_notifyAboutProgress" ops.progressLayoutAnimation,
    .ternary "_notifyAboutEnd" ops.endLayoutAnimation,
    .binary "_setGestureState" ops.setGestureState,
    .nullary "_maybeFlushUIUpdatesQueue" ops.maybeFlushUiUpdatesQueue]

/-- The bridge function with a name, among those of the renderer and then the common ones. -/
def Renderer.find? (renderer : Renderer) (common : CommonOperations) (name : String) :
    Option BridgeFunction :=
  (renderer.functions.getD [] ++ common.functions).find? (·.name == name)

/-! ## Views addressed by node handles -/

/-- The native operations of a renderer that addresses views by node handles. -/
structure NodeOperations where
  updateProps : NodeHandle → Object → Native Unit
  removeFromPropsRegistry : NodeHandle → Native Unit
  dispatchCommand : NodeHandle → String → Value → Native Unit
  measure : NodeHandle → Native Object
  obtainProp : NodeHandle → String → Native Value

/-- The bridge functions of a renderer that addresses views by node handles. -/
def NodeOperations.functions (ops : NodeOperations) : List BridgeFunction :=
  [.binary "_updatePropsFabric" ops.updateProps,
    .unary "_removeFromPropsRegistry" ops.removeFromPropsRegistry,
    .ternary "_dispatchCommandFabric" ops.dispatchCommand,
    .unary "_measureFabric" ops.measure,
    .binary "_obtainProp" ops.obtainProp]

/-- The renderer over these operations. -/
def NodeOperations.renderer (ops : NodeOperations) : Renderer :=
  { name := "fabric", addressing := .nodeHandle, functions := some ops.functions }

/-! ## Views addressed by tags -/

/-- The native operations of a renderer that addresses views by tags. -/
structure TagOperations where
  /-- View, name of the view's class, properties. -/
  updateProps : ViewTag → String → Object → Native Unit
  dispatchCommand : ViewTag → String → Value → Native Unit
  /-- View, position, whether the way there is animated. -/
  scrollTo : ViewTag → Binary64 → Binary64 → Bool → Native Unit
  /-- Named numbers, in order. -/
  measure : ViewTag → Native (List (String × Binary64))
  obtainProp : ViewTag → String → Native Value

/-- A measurement as script sees it: one object with the named numbers. -/
def measurementObject (pairs : List (String × Binary64)) : Object :=
  .ofList (pairs.map fun pair => (pair.1, .number pair.2))

/-- The bridge functions of a renderer that addresses views by tags. -/
def TagOperations.functions (ops : TagOperations) : List BridgeFunction :=
  [.ternary "_updatePropsPaper" ops.updateProps,
    .ternary "_dispatchCommandPaper" ops.dispatchCommand,
    .quaternary "_scrollToPaper" ops.scrollTo,
    .unary "_measurePaper" fun tag => measurementObject <$> ops.measure tag,
    .binary "_obtainProp" ops.obtainProp]

/-- The renderer over these operations. -/
def TagOperations.renderer (ops : TagOperations) : Renderer :=
  { name := "paper", addressing := .viewTag, functions := some ops.functions }

end ScriptBridge
