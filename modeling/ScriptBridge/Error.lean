import ScriptBridge.RuntimeId

/-!
# Errors of the bridge

Three layers of failure.

* `Exception` is what script code sees: a name that is not bound, a value of the wrong type, or a
  failure of the native side.
* `FailureChain` is a native failure: a root cause and the contexts that were wrapped around it. It
  reaches script as the exception `Exception.native`.
* `BridgeError` is what application code sees when it sets up or talks to a script thread.

Each error keeps its cause; the wording is in `text`.
-/

namespace ScriptBridge

/-- An exception raised inside a script runtime. -/
inductive Exception where
  /-- A global that does not exist. -/
  | reference (name : String)
  /-- A value of a wrong type. -/
  | type (message : String)
  /-- A native operation failed. -/
  | native (message : String)
deriving DecidableEq, Repr

/-- The text of an exception. -/
def Exception.text : Exception → String
  | .reference name => "ReferenceError: " ++ name ++ " is not defined"
  | .type message => "TypeError: " ++ message
  | .native message => "Error: " ++ message

/-- A native failure: its root cause, and what was being done when it happened, innermost first. -/
structure FailureChain where
  root : String
  contexts : List String
deriving DecidableEq, Repr

namespace FailureChain

/-- A failure without contexts. -/
def ofRoot (root : String) : FailureChain := { root, contexts := [] }

/-- The whole chain on one line, the outermost context first. -/
def text (chain : FailureChain) : String :=
  chain.contexts.foldl (fun inner context => context ++ ": " ++ inner) chain.root

/-- What script sees of a native failure. -/
def toException (chain : FailureChain) : Exception := .native chain.text

/-- What a native operation sees of an exception that script code raised. -/
def ofException (e : Exception) : FailureChain := ofRoot e.text

end FailureChain

/-- What application code sees when something goes wrong. -/
inductive BridgeError where
  | alreadyDecorated (runtime : RuntimeId)
  | notUiRuntime (runtime : RuntimeId)
  | channelClosed
  | threadPanicked
  | spawnFailed (cause : String)
  | runtime (e : Exception)
  | invalidConfig (fault : String)
  | internal
deriving DecidableEq, Repr

/-- The text of an error. -/
def BridgeError.text : BridgeError → String
  | .alreadyDecorated id => "UI runtime " ++ id.text ++ " is already decorated"
  | .notUiRuntime id => "Runtime " ++ id.text ++ " is not a UI runtime"
  | .channelClosed => "UI thread channel closed"
  | .threadPanicked => "UI thread panicked"
  | .spawnFailed cause => "Failed to spawn UI thread: " ++ cause
  | .runtime e => "Runtime exception: " ++ e.text
  | .invalidConfig fault => "Invalid configuration: " ++ fault
  | .internal => "Internal bridge error"

end ScriptBridge
