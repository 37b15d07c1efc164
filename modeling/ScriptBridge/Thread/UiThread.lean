import ScriptBridge.Thread.Worker

/-!
# UI threads

A UI thread is a worker, the channel through which commands reach it, and where the worker stands.
Clients post commands at any time; the thread advances in steps of its own. The end of the thread
takes several steps, between which clients may act:

1. it leaves the loop, on a request to shut down or when no client is left;
2. it reports that the runtime is gone;
3. it answers the request;
4. it drops its end of the channel, and with it every command that nobody read.

A panic drops the channel at once. A post is accepted as long as the channel exists. A request to
shut down that is dropped unread is answered by the closed channel.

`settle` lets the thread advance until it waits or has ended.
-/

namespace ScriptBridge

/-- Where a worker stands. -/
inductive Phase where
  /-- Handling commands. -/
  | serving
  /-- The loop is left; a request to shut down may wait for its answer. -/
  | leaving (ticket : Option Ticket)
  /-- It is reported that the runtime is gone. -/
  | answering (ticket : Option Ticket)
  /-- Everything is answered; the channel still exists. -/
  | closing
  /-- The thread has ended and the channel is closed. -/
  | finished
  /-- The thread panicked and the channel is closed. -/
  | died (why : Halt)
deriving DecidableEq, Repr

/-- Steps that are left to the end once the commands are read. -/
def Phase.remaining : Phase → Nat
  | serving => 4
  | leaving _ => 3
  | answering _ => 2
  | closing => 1
  | finished => 0
  | died _ => 0

/-- A UI thread, as its clients and the worker see it. -/
structure UiThread (σ : Type) where
  /-- The identity of the runtime, as the clients were told. -/
  runtimeId : RuntimeId
  worker : Worker σ
  /-- How many events are kept for subscribers. -/
  eventCapacity : Nat
  /-- Commands that were posted and not read yet. -/
  queue : List Command := []
  phase : Phase := .serving
  /-- Whether a client is left that could post. -/
  hasClients : Bool := true
  /-- The requests to shut down that were answered. -/
  answered : List Ticket := []
  /-- The ticket of the next request to shut down. -/
  nextTicket : Ticket := 0
  /-- Whether somebody has waited for the end of the thread. -/
  joined : Bool := false

namespace UiThread

variable {σ : Type}

/-- The channel exists. -/
def isOpen (t : UiThread σ) : Bool :=
  match t.phase with
  | .finished => false
  | .died _ => false
  | _ => true

/-! ## What the thread does -/

/-- One step of the thread; nothing when it waits for a command or has ended. -/
def advance (t : UiThread σ) : Option (UiThread σ) :=
  match t.phase, t.queue with
  | .serving, [] => if t.hasClients then none else some { t with phase := .leaving none }
  | .serving, .shutdown ticket :: rest =>
    some { t with queue := rest, phase := .leaving (some ticket) }
  | .serving, command :: rest =>
    match t.worker.handle command with
    | (none, worker) => some { t with worker, queue := rest }
    | (some why, worker) => some { t with worker, queue := [], phase := .died why }
  | .leaving ticket, _ =>
    let worker := t.worker.emit (.runtimeShutdown t.worker.runtimeId)
    some { t with worker, phase := .answering ticket }
  | .answering ticket, _ =>
    some { t with answered := t.answered ++ ticket.toList, phase := .closing }
  | .closing, _ => some { t with queue := [], phase := .finished }
  | .finished, _ => none
  | .died _, _ => none

/-- Up to this many steps of the thread. -/
def advanceTimes : Nat → UiThread σ → UiThread σ
  | 0, t => t
  | n + 1, t =>
    match t.advance with
    | none => t
    | some t' => advanceTimes n t'

/-- Let the thread advance until it waits for a command or has ended. Every step reads a command or
comes closer to the end. -/
def settle (t : UiThread σ) : UiThread σ := advanceTimes (t.queue.length + t.phase.remaining) t

/-! ## What clients do -/

/-- Post a command. -/
def post (t : UiThread σ) (command : Command) : Except BridgeError Unit × UiThread σ :=
  if t.isOpen then (.ok (), { t with queue := t.queue ++ [command] })
  else (.error .channelClosed, t)

/-- Post a request to shut down. -/
def requestShutdown (t : UiThread σ) : Except BridgeError Ticket × UiThread σ :=
  match t.post (.shutdown t.nextTicket) with
  | (.ok (), t') => (.ok t.nextTicket, { t' with nextTicket := t.nextTicket + 1 })
  | (.error e, t') => (.error e, t')

/-- The answer to a request to shut down, once there is one. -/
def answerTo (t : UiThread σ) (ticket : Ticket) : Option (Except BridgeError Unit) :=
  if ticket ∈ t.answered then some (.ok ())
  else if t.isOpen then none
  else some (.error .channelClosed)

/-- Request to shut down and wait for the answer, while no other client acts. -/
def shutdown (t : UiThread σ) : Except BridgeError Unit × UiThread σ :=
  match t.requestShutdown with
  | (.error e, t') => (.error e, t')
  | (.ok ticket, t') =>
    let ended := t'.settle
    ((ended.answerTo ticket).getD (.error .channelClosed), ended)

/-- Wait for the end of the thread, while no other client acts; nothing when it never ends. Only
the first one to wait is told of a panic. -/
def join (t : UiThread σ) : Option (Except BridgeError Unit × UiThread σ) :=
  if t.joined then some (.ok (), t)
  else
    let ended := { t.settle with joined := true }
    match ended.phase with
    | .finished => some (.ok (), ended)
    | .died _ => some (.error .threadPanicked, ended)
    | _ => none

/-- All clients leave. The thread handles what was posted and ends. -/
def dropClients (t : UiThread σ) : UiThread σ := { t with hasClients := false }.settle

/-- What a subscriber gets to see that subscribed after the first `since` events. -/
def received (t : UiThread σ) (since : Nat) : Received :=
  .ofEvents t.eventCapacity (t.worker.events.drop since)

/-! ## After the end -/

theorem post_of_closed {t : UiThread σ} (h : t.isOpen = false) (command : Command) :
    t.post command = (.error .channelClosed, t) := by
  simp [post, h]

theorem advance_of_closed {t : UiThread σ} (h : t.isOpen = false) : t.advance = none := by
  unfold advance
  cases hp : t.phase <;> simp_all [isOpen]

theorem answerTo_of_closed {t : UiThread σ} (h : t.isOpen = false) (ticket : Ticket) :
    t.answerTo ticket = some (if ticket ∈ t.answered then .ok () else .error .channelClosed) := by
  simp only [answerTo, h]
  split <;> rfl

end UiThread

end ScriptBridge
