import ScriptBridge.Bridge.Decoration
import ScriptBridge.Config
import ScriptBridge.Thread.UiThread

/-!
# Spawning a UI thread

A UI thread is spawned from a configuration and the parts that it will own. On the new thread a
fresh UI runtime is decorated, then the initial script runs, and only then are commands handled.
The caller waits for that and is told of any failure.

Two things about a configuration are not checked beforehand and make the caller panic: an event
capacity that no channel can have, and a thread name that holds the null character.
-/

namespace ScriptBridge

/-- The parts that a UI thread is made of, with a manager whose state is of type `σ`. -/
structure SpawnParts (σ : Type) where
  renderer : Renderer
  common : CommonOperations
  manager : AnimationManager σ
  managerState : σ
  /-- Whether frames run the waiting functions. -/
  servesFrames : Bool
  /-- What is run once, right after decoration. -/
  initScript : Option (Script Exception Unit) := none

/-- How spawning ends for the caller. -/
inductive Spawned (σ : Type) where
  /-- The thread runs. -/
  | running (thread : UiThread σ)
  /-- The thread was not started, or it ended while it was set up. What was done to the
  surroundings until then stays. -/
  | failed (e : BridgeError) (env : Environment)
  /-- The caller itself panicked; no thread was started. -/
  | callerPanicked

namespace Config

/-- The largest number of events that a channel can be asked to keep. -/
def maxEventCapacity : Nat := 0x7fffffffffffffff

/-- The configuration gives a channel and a thread name that can be created. -/
def isSpawnable (config : Config) : Bool :=
  decide (config.eventCapacity.toNat ≤ maxEventCapacity) &&
    !config.threadName.toList.contains '\x00'

end Config

namespace Machine

/-- Decorate the runtime and run the initial script. -/
def setUp {σ : Type} (parts : SpawnParts σ) (m : Machine) : Outcome BridgeError Unit × Machine :=
  match m.decorate parts.renderer parts.common with
  | (.value (), decorated) =>
    match parts.initScript with
    | none => (.value (), decorated)
    | some script =>
      let ran := script.run decorated
      (ran.1.mapError .runtime, ran.2)
  | failed => failed

end Machine

/-- Spawn a UI thread in these surroundings. The identity is that of the new runtime. -/
def spawn {σ : Type} (config : Config) (parts : SpawnParts σ) (id : RuntimeId)
    (env : Environment) : Spawned σ :=
  match config.validate with
  | .error fault => .failed fault.toError env
  | .ok () =>
    if config.isSpawnable then
      match Machine.setUp parts { runtime := .new id .ui, env } with
      | (.value (), machine) =>
        .running
          { runtimeId := machine.runtime.context.id
            worker :=
              { machine, manager := parts.manager, managerState := parts.managerState,
                servesFrames := parts.servesFrames }
            eventCapacity := config.eventCapacity.toNat }
      | (.error e, machine) => .failed e machine.env
      | (.halted _, machine) => .failed .threadPanicked machine.env
    else .callerPanicked

end ScriptBridge
