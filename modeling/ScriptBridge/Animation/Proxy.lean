import ScriptBridge.Thread.UiThread

/-!
# Starting animations from application code

Application code starts layout animations by posting requests to whatever runs commands on the UI
thread. A request carries its own copy of the frames. An error only means that nothing will be run:
the animation itself starts later.
-/

namespace ScriptBridge

/-- Something that accepts commands to be run on a UI thread, in the order of posting. -/
class CommandSink (τ : Type) where
  post : τ → Command → Except BridgeError Unit × τ

instance {σ : Type} : CommandSink (UiThread σ) := ⟨UiThread.post⟩

/-- A sink that keeps what is posted until it is closed. -/
structure Mailbox where
  posted : List Command := []
  isClosed : Bool := false
deriving DecidableEq, Repr

/-- Keep a command, unless the mailbox is closed. -/
def Mailbox.post (box : Mailbox) (command : Command) : Except BridgeError Unit × Mailbox :=
  if box.isClosed then (.error .channelClosed, box)
  else (.ok (), { box with posted := box.posted ++ [command] })

instance : CommandSink Mailbox := ⟨Mailbox.post⟩

namespace AnimationRequest

/-- A start with one frame. -/
def single (tag : ViewTag) (kind : AnimationKind) (frame : Geometry) : AnimationRequest :=
  { tag, kind, payload := .single frame }

/-- A transition of a view's layout. -/
def layoutTransition (tag : ViewTag) (current target : Geometry) : AnimationRequest :=
  { tag, kind := .layout, payload := .transition current target }

/-- Post a request. -/
def post {τ : Type} [CommandSink τ] (request : AnimationRequest) (sink : τ) :
    Except BridgeError Unit × τ :=
  CommandSink.post sink (.startAnimation request)

end AnimationRequest

end ScriptBridge
