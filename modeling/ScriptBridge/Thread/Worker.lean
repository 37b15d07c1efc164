import ScriptBridge.Animation.Registry
import ScriptBridge.Thread.Message

/-!
# The worker of a UI thread

The worker owns the UI runtime and handles commands one at a time. An animation start is one call
of the manager and one event. A frame is one run of the waiting functions and one event, unless the
worker does not serve frames, which then are ignored.

An exception is reported as an event and the worker goes on. A panic ends it.
-/

namespace ScriptBridge

/-- A worker with a manager whose state is of type `σ`. -/
structure Worker (σ : Type) where
  machine : Machine
  manager : AnimationManager σ
  managerState : σ
  /-- Whether frames run the waiting functions. -/
  servesFrames : Bool
  /-- The events sent so far. -/
  events : List Event := []

namespace Worker

variable {σ : Type}

/-- Send an event to everybody who subscribed. -/
def emit (w : Worker σ) (event : Event) : Worker σ := { w with events := w.events ++ [event] }

/-- The event that reports how the start of an animation ended. -/
def startEvent (request : AnimationRequest) : Except Exception Unit → Event
  | .ok () => .animationStarted request.tag request.kind
  | .error e => .animationFailed request.tag request.kind e.text

/-- Start an animation through the manager. -/
def startAnimation (w : Worker σ) (request : AnimationRequest) : Option Halt × Worker σ :=
  let start := w.manager.start w.managerState request.tag request.kind request.payload.valueBag
  match start.run w.machine with
  | (.value (answer, managerState), machine) =>
    (none, { w with machine, managerState }.emit (startEvent request answer))
  | (.halted why, machine) => (some why, { w with machine })

/-- Run the functions that wait for a frame. -/
def animationFrame (w : Worker σ) (timestamp : Binary64) : Option Halt × Worker σ :=
  if w.servesFrames then
    match w.machine.flushFrame timestamp with
    | (.value callbacks, machine) =>
      (none, { w with machine }.emit (.frameFlushed timestamp callbacks))
    | (.error e, machine) => (none, { w with machine }.emit (.frameFailed timestamp e.text))
    | (.halted why, machine) => (some why, { w with machine })
  else (none, w)

/-- Handle a command. A request to shut down is not handled but ends the loop. -/
def handle (w : Worker σ) : Command → Option Halt × Worker σ
  | .startAnimation request => w.startAnimation request
  | .animationFrame timestamp => w.animationFrame timestamp
  | .shutdown _ => (none, w)

/-- The identity of the runtime that the worker owns. -/
def runtimeId (w : Worker σ) : RuntimeId := w.machine.runtime.context.id

end Worker

end ScriptBridge
