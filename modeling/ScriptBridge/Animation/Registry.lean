import ScriptBridge.Animation.Payload
import ScriptBridge.Machine

/-!
# Starting layout animations

A manager receives the starts of layout animations on the UI thread. It decides what to do with
them; the bridge only delivers.

The registry manager keeps a configuration per view and kind. A start without configuration does
nothing. Otherwise the script side is called: the function `start` of the global object
`LayoutAnimationsManager`, with the view's tag, the kind's code, the value bag and the
configuration.
-/

namespace ScriptBridge

/-- A receiver of animation starts with state of type `σ`. A start reports success or an exception,
and the next state. -/
structure AnimationManager (σ : Type) where
  start : σ → ViewTag → AnimationKind → Object → Script Empty (Except Exception Unit × σ)

/-- The configurations of animations, per view and kind. -/
structure AnimationRegistry where
  configs : OrderedMap (ViewTag × AnimationKind) Value := .empty

namespace AnimationRegistry

/-- The global object through which script offers its entry point. -/
def managerGlobal : String := "LayoutAnimationsManager"

/-- The property of that object which is called. -/
def startProperty : String := "start"

/-- Register the configuration of a view and kind, replacing an earlier one. -/
def configure (r : AnimationRegistry) (tag : ViewTag) (kind : AnimationKind) (config : Value) :
    AnimationRegistry :=
  { configs := r.configs.insert (tag, kind) config }

/-- Forget all configurations of a view. -/
def clear (r : AnimationRegistry) (tag : ViewTag) : AnimationRegistry :=
  { configs := r.configs.filterKeys fun key => decide (key.1 ≠ tag) }

/-- The configuration of a view and kind. -/
def config? (r : AnimationRegistry) (tag : ViewTag) (kind : AnimationKind) : Option Value :=
  r.configs.get? (tag, kind)

/-- Whether a view has a configuration for a kind. -/
def has (r : AnimationRegistry) (tag : ViewTag) (kind : AnimationKind) : Bool :=
  r.configs.contains (tag, kind)

/-- The function that script offers as entry point, as far as the scope tells. -/
def entryPoint (scope : Object) : Except Exception Value :=
  match scope.get? managerGlobal with
  | none => .error (.reference managerGlobal)
  | some manager =>
    match manager.object?.bind (·.get? startProperty) with
    | none => .error (.type (managerGlobal ++ "." ++ startProperty ++ " is not a function"))
    | some start => .ok start

/-- Start an animation of a view. -/
def start (r : AnimationRegistry) (tag : ViewTag) (kind : AnimationKind) (values : Object) :
    Script Exception Unit := do
  match r.config? tag kind with
  | none => return
  | some config =>
    let scope ← Script.ask .scope
    let entry ← Script.ofExcept (entryPoint scope)
    let _ ← Script.callFunction entry
      [.ofInt32 tag, ToScript.encode kind, .object values, config]
    return

/-- The registry as a manager. Starts do not change it. -/
def manager : AnimationManager AnimationRegistry where
  start r tag kind values := do
    let outcome ← (r.start tag kind values).attempt
    return (outcome, r)

end AnimationRegistry

end ScriptBridge
