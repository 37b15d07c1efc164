import ScriptBridge.Argument

/-!
# Frame callbacks

The functions that script wants to be called at the next frame, in the order of the requests, and
the timestamp of the last frame. Only functions can wait: a request with another value fails.

A frame takes all waiting functions at once. What is requested while they run waits for the next
frame.
-/

namespace ScriptBridge

/-- The functions waiting for the next frame. -/
structure FrameQueue where
  pending : List Function := []
  lastTimestamp : Binary64 := .zero
deriving Repr, DecidableEq

namespace FrameQueue

/-- The native failure of a request with a value that is no function. -/
def notCallable (v : Value) : FailureChain :=
  .ofRoot ("requestAnimationFrame expects a function, got " ++ v.typeName)

/-- Ask for a function to be called at the next frame. -/
def request (queue : FrameQueue) (callback : Value) : Except FailureChain Unit × FrameQueue :=
  match callback with
  | .function f => (.ok (), { queue with pending := queue.pending ++ [f] })
  | v => (.error (notCallable v), queue)

/-- Start a frame: note its timestamp and take the waiting functions. -/
def takeBatch (queue : FrameQueue) (timestamp : Binary64) : List Function × FrameQueue :=
  (queue.pending, { pending := [], lastTimestamp := timestamp })

/-! ## Who may wait -/

theorem request_eq_ok_iff (queue : FrameQueue) (v : Value) :
    (queue.request v).1 = .ok () ↔ ∃ f, v = .function f := by
  cases v <;> simp [request]

theorem request_of_error {queue : FrameQueue} {v : Value} {failure : FailureChain}
    (h : (queue.request v).1 = .error failure) : (queue.request v).2 = queue := by
  cases v <;> simp_all [request]

theorem pending_request_function (queue : FrameQueue) (f : Function) :
    (queue.request (.function f)).2.pending = queue.pending ++ [f] := rfl

end FrameQueue

end ScriptBridge
