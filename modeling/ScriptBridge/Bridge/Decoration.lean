import ScriptBridge.Bridge.Catalogue

/-!
# Decorating a runtime

Decoration installs the bridge into a UI runtime, once. It binds the marker of the UI runtime, then
the functions of the renderer, then the common ones, and notes the renderer's name in the context.

A runtime of the main thread, and one that is decorated already, are refused and left as they are.
Both are told by the context, not by what script code can overwrite.
-/

namespace ScriptBridge

namespace Machine

/-- Bind bridge functions to their names, in order. -/
def installAll (functions : List BridgeFunction) (m : Machine) : Machine :=
  functions.foldl (fun m f => f.install m) m

/-- Note in the context which renderer decorated the runtime. -/
def noteDecoration (renderer : String) (m : Machine) : Machine :=
  let context := { m.runtime.context with decoratedBy := some renderer }
  { m with runtime := { m.runtime with context } }

/-- Install the bridge into the runtime of the machine. -/
def decorate (renderer : Renderer) (common : CommonOperations) (m : Machine) :
    Outcome BridgeError Unit × Machine :=
  if !m.runtime.isUi then (.error (.notUiRuntime m.runtime.context.id), m)
  else if m.runtime.isDecorated then (.error (.alreadyDecorated m.runtime.context.id), m)
  else
    let marked := m.setGlobal Runtime.uiMarker (.bool true)
    match renderer.functions with
    | none => (.halted .panic, marked)
    | some functions =>
      (.value (), (marked.installAll (functions ++ common.functions)).noteDecoration renderer.name)

end Machine

end ScriptBridge
