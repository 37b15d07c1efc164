import ScriptBridge.Animation.Proxy

/-!
# A client of a UI thread

The only client of a thread, with one subscription to its events, acts in a fixed order: it posts,
stops the thread, subscribes anew, or leaves without a word. Whatever it posts is accepted as long
as the thread has not ended; the thread catches up when the client waits for it.
-/

namespace ScriptBridge

/-- A UI thread, and how many events were sent before its client subscribed. -/
structure Client (σ : Type) where
  thread : UiThread σ
  subscribedAt : Nat := 0

/-- What a client does. -/
inductive ClientStep where
  | post (command : Command)
  /-- Shut the thread down, then wait for its end. -/
  | stop
  /-- Replace the subscription by a new one. -/
  | resubscribe
  /-- Leave without a request to shut down. -/
  | leave
deriving DecidableEq, Repr

/-- What a client learns from a step. -/
inductive ClientReply where
  | posted (answer : Except BridgeError Unit)
  | stopped (shutdown join : Except BridgeError Unit)
  | resubscribed
  | left

namespace Client

variable {σ : Type}

/-- Shut the thread down, then wait for its end. -/
def stop (c : Client σ) : ClientReply × Client σ :=
  let ended := c.thread.shutdown
  match ended.2.join with
  | some (join, thread) => (.stopped ended.1 join, { c with thread })
  | none => (.stopped ended.1 (.error .internal), { c with thread := ended.2 })

/-- One step of a client. -/
def step (c : Client σ) : ClientStep → ClientReply × Client σ
  | .post command =>
    let posted := c.thread.post command
    (.posted posted.1, { c with thread := posted.2 })
  | .stop => c.stop
  | .resubscribe =>
    let thread := c.thread.settle
    (.resubscribed, { thread, subscribedAt := thread.worker.events.length })
  | .leave => (.left, { c with thread := c.thread.dropClients })

/-- What the subscription holds. -/
def received (c : Client σ) : Received := c.thread.received c.subscribedAt

end Client

end ScriptBridge
