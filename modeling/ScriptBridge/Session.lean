import ScriptBridge.Animation.Proxy
import ScriptBridge.Animation.Registry
import ScriptBridge.Bridge.Decoration
import ScriptBridge.Host.Operations

/-!
# Sessions

Several named runtimes that share their surroundings: the recording host, the frame queue, the
journal and the functions. A session also has an animation registry, and a mailbox for what
application code posts.

What is done in a session is done to one of its runtimes, and leaves the others alone.
-/

namespace ScriptBridge

/-- Named runtimes in common surroundings. -/
structure Session where
  env : Environment
  runtimes : OrderedMap String Runtime := .empty
  registry : AnimationRegistry := {}
  mailbox : Mailbox := {}
  /-- How many runtimes were created so far. -/
  created : Nat := 0

namespace Session

/-- A session on a fresh host. -/
def new (measurement : Geometry) (functions : FunctionTable) : Session :=
  { env := { host := .new measurement, functions } }

/-- The runtime with a name. A runtime that nobody created is a fresh one of the main thread. -/
def runtime (s : Session) (name : String) : Runtime :=
  (s.runtimes.get? name).getD (.new ⟨0⟩ .main)

/-- Create a runtime, replacing one of the same name. -/
def create (s : Session) (name : String) (kind : RuntimeKind) : Session :=
  let id : RuntimeId := ⟨BitVec.ofNat 128 (s.created + 1)⟩
  { s with runtimes := s.runtimes.insert name (.new id kind), created := s.created + 1 }

/-- The machine that a runtime runs on. -/
def machine (s : Session) (name : String) : Machine := { runtime := s.runtime name, env := s.env }

/-- Put a machine back under the name of its runtime. -/
def update (s : Session) (name : String) (m : Machine) : Session :=
  { s with env := m.env, runtimes := s.runtimes.insert name m.runtime }

/-- Run something on a runtime. -/
def run {ε α : Type} (s : Session) (name : String) (action : Machine.Run ε α) :
    Outcome ε α × Session :=
  let ran := action (s.machine name)
  (ran.1, s.update name ran.2)

/-- Bind a global of a runtime. -/
def setGlobal (s : Session) (name global : String) (value : Value) : Session :=
  s.update name ((s.machine name).setGlobal global value)

/-- Detach a view from the host. -/
def detach (s : Session) (view : ViewAddress) : Session :=
  { s with env := { s.env with host := s.env.host.detach view } }

/-- Ask for a callback at the next frame, as the host does. -/
def requestFrame (s : Session) (callback : Value) : Except FailureChain Unit × Session :=
  let requested := s.env.frames.request callback
  (requested.1, { s with env := { s.env with frames := requested.2 } })

/-- Start an animation of a view through the registry. -/
def startAnimation (s : Session) (name : String) (tag : ViewTag) (kind : AnimationKind)
    (values : Object) : Outcome Exception Unit × Session :=
  s.run name (s.registry.start tag kind values).run

/-- Post a request to the mailbox. -/
def post (s : Session) (request : AnimationRequest) : Except BridgeError Unit × Session :=
  let posted := request.post s.mailbox
  (posted.1, { s with mailbox := posted.2 })

/-- Empty the mailbox. -/
def takePosted (s : Session) : List Command × Session :=
  (s.mailbox.posted, { s with mailbox := { s.mailbox with posted := [] } })

/-- Close the mailbox. -/
def closeMailbox (s : Session) : Session :=
  { s with mailbox := { s.mailbox with isClosed := true } }

end Session

end ScriptBridge
