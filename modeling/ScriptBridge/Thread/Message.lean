import ScriptBridge.Animation.Payload
import ScriptBridge.Error

/-!
# Messages of a UI thread

Commands are the work posted to the thread, in the order of posting. Events are what the thread
reports to everybody who subscribed.

Subscribers may be slow. The thread keeps the newest events up to its capacity, rounded up to a
power of two; who was slower is told how many were lost.
-/

namespace ScriptBridge

/-- Identifies a request to shut down, so that its answer can be found. -/
abbrev Ticket := Nat

/-- Work posted to a UI thread. -/
inductive Command where
  /-- Start an animation through the manager. -/
  | startAnimation (request : AnimationRequest)
  /-- Run the functions that wait for a frame. -/
  | animationFrame (timestamp : Binary64)
  /-- Stop when everything before has been handled. -/
  | shutdown (ticket : Ticket)
deriving DecidableEq, Repr

/-- What a UI thread reports. -/
inductive Event where
  /-- The manager accepted a start. -/
  | animationStarted (tag : ViewTag) (kind : AnimationKind)
  /-- The manager, or the script it called, failed. -/
  | animationFailed (tag : ViewTag) (kind : AnimationKind) (message : String)
  /-- The functions that waited for a frame have run. -/
  | frameFlushed (timestamp : Binary64) (callbacks : Nat)
  /-- A function that waited for a frame threw. -/
  | frameFailed (timestamp : Binary64) (message : String)
  /-- The runtime is gone. -/
  | runtimeShutdown (runtime : RuntimeId)
deriving DecidableEq, Repr

/-- What a subscriber gets to see. -/
structure Received where
  /-- How many events were lost before the first one that was kept. -/
  lost : Nat
  events : List Event
deriving DecidableEq, Repr

namespace Received

/-- What is left of the events since the subscription when the thread keeps events up to a
capacity. -/
def ofEvents (capacity : Nat) (events : List Event) : Received :=
  let lost := events.length - capacity.nextPowerOfTwo
  { lost, events := events.drop lost }

theorem lost_add_length (capacity : Nat) (events : List Event) :
    (ofEvents capacity events).lost + (ofEvents capacity events).events.length = events.length := by
  simp only [ofEvents, List.length_drop]
  omega

end Received

end ScriptBridge
