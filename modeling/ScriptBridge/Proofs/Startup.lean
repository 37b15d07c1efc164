import ScriptBridge.Thread.Spawn

/-!
# The two threads of a start

Spawning takes two threads. The new thread sets its runtime up, tells through a channel how that
ended, and then either serves commands or ends. A panic ends it without a word, and the channel is
hung up. The caller waits for what the channel says; if that is a failure, it waits for the end of
the new thread as well before it reports it.

The two may be scheduled in any order, and what the caller gets is the same in all of them.

* `Startup.after` — a run of both threads under a schedule.
* `Startup.Reached` — the invariant of all schedules: where both threads stand, and what lies in the
  channel between them.
* `Startup.Reached.result_eq` — what the caller returns is what `spawn` says.
-/

namespace ScriptBridge

/-! ## Steps of both threads -/

/-- The channel that tells how the set-up ended. -/
inductive ReadyChannel where
  | empty
  | holds (message : Except BridgeError RuntimeId)
  /-- The sender is gone and has said nothing. -/
  | hungUp

/-- Where the new thread stands. -/
inductive NewThread where
  | settingUp
  /-- The set-up is over, and nobody was told yet. -/
  | reporting (message : Except BridgeError RuntimeId)
  /-- In the loop that handles commands. -/
  | serving
  /-- On its way out. -/
  | leaving
  | ended

/-- Where the caller stands. -/
inductive Caller (σ : Type) where
  /-- Waits for what the channel says. -/
  | waiting
  /-- Was told of a failure and waits for the end of the new thread. -/
  | joining (e : BridgeError)
  | returned (result : Spawned σ)

/-- The caller and the new thread, from the moment that the thread exists. -/
structure Startup (σ : Type) where
  /-- The machine of the new thread. -/
  machine : Machine
  thread : NewThread := .settingUp
  ready : ReadyChannel := .empty
  caller : Caller σ := .waiting

/-- The thread that is scheduled next. -/
inductive Side where
  | newThread
  | caller

/-- A machine with a fresh UI runtime in these surroundings. -/
def Machine.freshUi (id : RuntimeId) (env : Environment) : Machine :=
  { runtime := .new id .ui, env }

variable {σ : Type}

/-- The thread that clients get to know by this identity, on this machine. -/
def SpawnParts.thread (parts : SpawnParts σ) (config : Config) (id : RuntimeId)
    (machine : Machine) : UiThread σ where
  runtimeId := id
  worker :=
    { machine, manager := parts.manager, managerState := parts.managerState,
      servesFrames := parts.servesFrames }
  eventCapacity := config.eventCapacity.toNat

namespace Startup

/-- A step of the new thread. In the loop it has nothing to do: until the caller returns, nobody can
post. -/
def advanceThread (parts : SpawnParts σ) (s : Startup σ) : Startup σ :=
  match s.thread with
  | .settingUp =>
    match s.machine.setUp parts with
    | (.value (), machine) =>
      { s with machine, thread := .reporting (.ok machine.runtime.context.id) }
    | (.error e, machine) => { s with machine, thread := .reporting (.error e) }
    | (.halted _, machine) => { s with machine, thread := .leaving, ready := .hungUp }
  | .reporting (.ok id) => { s with thread := .serving, ready := .holds (.ok id) }
  | .reporting (.error e) => { s with thread := .leaving, ready := .holds (.error e) }
  | .leaving => { s with thread := .ended }
  | .serving | .ended => s

/-- A step of the caller, if it need not wait. -/
def advanceCaller (config : Config) (parts : SpawnParts σ) (s : Startup σ) : Startup σ :=
  match s.caller with
  | .waiting =>
    match s.ready with
    | .empty => s
    | .holds (.ok id) =>
      { s with ready := .empty, caller := .returned (.running (parts.thread config id s.machine)) }
    | .holds (.error e) => { s with caller := .joining e }
    | .hungUp => { s with caller := .joining .threadPanicked }
  | .joining e =>
    match s.thread with
    | .ended => { s with caller := .returned (.failed e s.machine.env) }
    | _ => s
  | .returned _ => s

/-- A step of one side. -/
def next (config : Config) (parts : SpawnParts σ) (s : Startup σ) : Side → Startup σ
  | .newThread => s.advanceThread parts
  | .caller => s.advanceCaller config parts

/-- Both threads after a schedule. -/
def after (config : Config) (parts : SpawnParts σ) (s : Startup σ) (schedule : List Side) :
    Startup σ :=
  schedule.foldl (next config parts) s

/-! ## What a schedule can reach -/

/-- How a failed set-up is told: by a message, or by the channel alone. -/
inductive Tells : Outcome BridgeError Unit → BridgeError → ReadyChannel → Prop where
  | message (e : BridgeError) : Tells (.error e) e (.holds (.error e))
  | hangUp (why : Halt) : Tells (.halted why) .threadPanicked .hungUp

variable {config : Config} {parts : SpawnParts σ} {m₀ : Machine} {s : Startup σ}

/-- Where both threads can stand that started with the machine `m₀`. -/
inductive Reached (config : Config) (parts : SpawnParts σ) (m₀ : Machine) : Startup σ → Prop where
  | settingUp : Reached config parts m₀ { machine := m₀ }
  | reporting {m : Machine} (hsetUp : m₀.setUp parts = (.value (), m)) :
      Reached config parts m₀ { machine := m, thread := .reporting (.ok m.runtime.context.id) }
  | serving {m : Machine} (hsetUp : m₀.setUp parts = (.value (), m)) :
      Reached config parts m₀
        { machine := m, thread := .serving, ready := .holds (.ok m.runtime.context.id) }
  | running {m : Machine} (hsetUp : m₀.setUp parts = (.value (), m)) :
      Reached config parts m₀
        { machine := m, thread := .serving
          caller := .returned (.running (parts.thread config m.runtime.context.id m)) }
  | refusing {m : Machine} {e : BridgeError} (hsetUp : m₀.setUp parts = (.error e, m)) :
      Reached config parts m₀ { machine := m, thread := .reporting (.error e) }
  /-- The new thread leaves while the caller learns of it, in any order. -/
  | failing {m : Machine} {ended : Outcome BridgeError Unit} {e : BridgeError}
      {ready : ReadyChannel} {thread : NewThread} {caller : Caller σ}
      (hsetUp : m₀.setUp parts = (ended, m)) (htells : Tells ended e ready)
      (hthread : thread = .leaving ∨ thread = .ended)
      (hcaller : caller = .waiting ∨ caller = .joining e) :
      Reached config parts m₀ { machine := m, thread, ready, caller }
  | failed {m : Machine} {ended : Outcome BridgeError Unit} {e : BridgeError}
      {ready : ReadyChannel} (hsetUp : m₀.setUp parts = (ended, m)) (htells : Tells ended e ready) :
      Reached config parts m₀
        { machine := m, thread := .ended, ready, caller := .returned (.failed e m.env) }

theorem Reached.advanceThread (h : Reached config parts m₀ s) :
    Reached config parts m₀ (s.advanceThread parts) := by
  cases h with
  | settingUp =>
    rw [Startup.advanceThread]
    rcases hsetUp : m₀.setUp parts with ⟨_ | e | why, m⟩
    · exact .reporting hsetUp
    · exact .refusing hsetUp
    · exact .failing hsetUp (.hangUp why) (Or.inl rfl) (Or.inl rfl)
  | reporting hsetUp => exact .serving hsetUp
  | serving hsetUp => exact .serving hsetUp
  | running hsetUp => exact .running hsetUp
  | @refusing m e hsetUp => exact .failing hsetUp (.message e) (Or.inl rfl) (Or.inl rfl)
  | failing hsetUp htells hthread hcaller =>
    rcases hthread with rfl | rfl <;> exact .failing hsetUp htells (Or.inr rfl) hcaller
  | failed hsetUp htells => exact .failed hsetUp htells

theorem Reached.advanceCaller (h : Reached config parts m₀ s) :
    Reached config parts m₀ (s.advanceCaller config parts) := by
  cases h with
  | settingUp => exact .settingUp
  | reporting hsetUp => exact .reporting hsetUp
  | serving hsetUp => exact .running hsetUp
  | running hsetUp => exact .running hsetUp
  | refusing hsetUp => exact .refusing hsetUp
  | failing hsetUp htells hthread hcaller =>
    rcases hcaller with rfl | rfl
    · -- The caller learns of the failure, by the message or by the channel.
      cases htells with
      | message => exact .failing hsetUp (.message _) hthread (Or.inr rfl)
      | hangUp why => exact .failing hsetUp (.hangUp why) hthread (Or.inr rfl)
    · rcases hthread with rfl | rfl
      · exact .failing hsetUp htells (Or.inl rfl) (Or.inr rfl)
      · exact .failed hsetUp htells
  | failed hsetUp htells => exact .failed hsetUp htells

/-- **The invariant of all schedules.** -/
theorem Reached.after (h : Reached config parts m₀ s) (schedule : List Side) :
    Reached config parts m₀ (s.after config parts schedule) := by
  induction schedule generalizing s with
  | nil => exact h
  | cons side rest ih =>
    cases side with
    | newThread => exact ih h.advanceThread
    | caller => exact ih h.advanceCaller

/-! ## What the caller gets -/

/-- What spawning comes to, by how the set-up ended. -/
theorem spawn_eq {id : RuntimeId} {env : Environment} (hvalid : config.validate = .ok ())
    (hgranted : config.isSpawnable = true) :
    spawn config parts id env =
      match (Machine.freshUi id env).setUp parts with
      | (.value (), m) => .running (parts.thread config m.runtime.context.id m)
      | (.error e, m) => .failed e m.env
      | (.halted _, m) => .failed .threadPanicked m.env := by
  rw [spawn, hvalid, hgranted]
  rfl

variable {id : RuntimeId} {env : Environment}

theorem Reached.result_eq (h : Reached config parts (.freshUi id env) s)
    (hvalid : config.validate = .ok ()) (hgranted : config.isSpawnable = true)
    {result : Spawned σ} (hcaller : s.caller = .returned result) :
    result = spawn config parts id env := by
  rw [spawn_eq hvalid hgranted]
  cases h with
  | settingUp | reporting | serving | refusing => cases hcaller
  | running hsetUp =>
    cases hcaller
    rw [hsetUp]
  | failing hsetUp htells hthread hwaits => rcases hwaits with rfl | rfl <;> cases hcaller
  | failed hsetUp htells =>
    cases hcaller
    rw [hsetUp]
    cases htells <;> rfl

/-- Commands are handled only after a set-up that ended well, and on the machine that it left. -/
theorem Reached.setUp_of_serving (h : Reached config parts m₀ s) (hserving : s.thread = .serving) :
    m₀.setUp parts = (.value (), s.machine) := by
  cases h with
  | settingUp | reporting | refusing | failed => cases hserving
  | serving hsetUp | running hsetUp => exact hsetUp
  | failing hsetUp htells hthread => rcases hthread with rfl | rfl <;> cases hserving

/-- The caller does not report a failure before the new thread has ended. -/
theorem Reached.ended_of_failed (h : Reached config parts m₀ s) {e : BridgeError}
    {env' : Environment} (hcaller : s.caller = .returned (.failed e env')) :
    s.thread = .ended := by
  cases h with
  | settingUp | reporting | serving | running | refusing => cases hcaller
  | failing hsetUp htells hthread hwaits => rcases hwaits with rfl | rfl <;> cases hcaller
  | failed => rfl

/-- Steps that bring every start to its end. -/
def completion : List Side := [.newThread, .newThread, .newThread, .caller, .caller]

/-- No schedule gets stuck: wherever it leaves both threads, a few steps more let the caller
return. -/
theorem Reached.returns (h : Reached config parts m₀ s) :
    ∃ result, (s.after config parts completion).caller = .returned result := by
  cases h with
  | settingUp =>
    rcases hsetUp : m₀.setUp parts with ⟨_ | e | why, m⟩ <;>
      simp [completion, Startup.after, next, Startup.advanceThread, Startup.advanceCaller, hsetUp]
  | reporting | serving | running | refusing | failed => exact ⟨_, rfl⟩
  | failing hsetUp htells hthread hcaller =>
    rcases hthread with rfl | rfl <;> rcases hcaller with rfl | rfl <;> cases htells <;>
      exact ⟨_, rfl⟩

end Startup

end ScriptBridge
