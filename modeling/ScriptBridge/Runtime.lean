import ScriptBridge.Error
import ScriptBridge.Value

/-!
# Script runtimes

A runtime is a global scope and the context it was created with. The context says whether the
runtime belongs to the UI thread and which catalogue it was decorated with; script code can read
it but only decoration changes it. The scope is an ordered object: a global keeps its place when it
is rebound, and none is ever removed.

`Runtime.isUiRuntime` looks at the marker in the scope, which script code may overwrite. What
decoration relies on is the context.
-/

namespace ScriptBridge

/-- Which side of the bridge a runtime lives on. -/
inductive RuntimeKind where
  /-- The runtime of the application. It is never decorated. -/
  | main
  /-- The runtime of the UI thread. -/
  | ui
deriving DecidableEq, Repr

/-- What is known of a runtime apart from its scope. -/
structure Context where
  id : RuntimeId
  kind : RuntimeKind
  /-- The name of the catalogue that decorated the runtime, if one did. -/
  decoratedBy : Option String := none
deriving DecidableEq, Repr

/-- A script runtime. -/
structure Runtime where
  context : Context
  global : Object

namespace Runtime

/-- The global that tells script code that it runs in the UI runtime. -/
def uiMarker : String := "_UI"

/-- A fresh runtime: nothing is bound, and it is not decorated. -/
def new (id : RuntimeId) (kind : RuntimeKind) : Runtime :=
  { context := { id, kind }, global := .empty }

/-- The value of a global. -/
def getGlobal (rt : Runtime) (name : String) : Option Value := rt.global.get? name

/-- Bind a global. -/
def setGlobal (rt : Runtime) (name : String) (value : Value) : Runtime :=
  { rt with global := rt.global.insert name value }

/-- The marker in a scope reads as `true`. -/
def marks (scope : Object) : Bool :=
  match scope.get? uiMarker with
  | some (.bool b) => b
  | _ => false

/-- The marker reads as `true`. -/
def isUiRuntime (rt : Runtime) : Bool := marks rt.global

/-- The runtime belongs to the UI thread. -/
def isUi (rt : Runtime) : Bool := rt.context.kind == .ui

/-- The runtime was decorated. -/
def isDecorated (rt : Runtime) : Bool := rt.context.decoratedBy.isSome

end Runtime

end ScriptBridge
