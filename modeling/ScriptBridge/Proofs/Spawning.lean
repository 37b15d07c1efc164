import ScriptBridge.Host.Operations
import ScriptBridge.Proofs.Extension
import ScriptBridge.Proofs.Shutdown
import ScriptBridge.Proofs.Startup
import ScriptBridge.Proofs.StoredConfig

/-!
# How spawning ends

* `SetsUp` — how the set-up of a fresh runtime ends: decoration comes first, and then the initial
  script runs, once, on the decorated runtime.
* `spawn_law` — each end of the set-up is one outcome of spawning, on every schedule of the two
  threads. A thread that runs starts from what the set-up left.
* `caller_panics_iff` — which valid configurations make the caller panic.
-/

namespace ScriptBridge

variable {σ τ : Type}

/-! ## Setting up -/

/-- The machine after its runtime was decorated with these bridge functions. -/
def Machine.decorated (renderer : String) (functions : List BridgeFunction) (m : Machine) :
    Machine :=
  ((m.setGlobal Runtime.uiMarker (.bool true)).installAll functions).noteDecoration renderer

/-- How the set-up of the machine `m` ends, and on which machine. -/
inductive SetsUp (parts : SpawnParts σ) (m : Machine) :
    Outcome Exception Unit → Machine → Prop where
  /-- The host panics when it is asked for the functions of its renderer. -/
  | notDecorated (hfunctions : parts.renderer.functions = none) :
      SetsUp parts m (.halted .panic) (m.setGlobal Runtime.uiMarker (.bool true))
  /-- There is no initial script. -/
  | decorated (functions : List BridgeFunction)
      (hfunctions : parts.renderer.functions = some functions) (hscript : parts.initScript = none) :
      SetsUp parts m (.value ())
        (m.decorated parts.renderer.name (functions ++ parts.common.functions))
  /-- The initial script runs on the decorated runtime. -/
  | scripted (functions : List BridgeFunction) (script : Script Exception Unit)
      (hfunctions : parts.renderer.functions = some functions)
      (hscript : parts.initScript = some script) {ended : Outcome Exception Unit} {m' : Machine}
      (hrun : script.run
        (m.decorated parts.renderer.name (functions ++ parts.common.functions)) = (ended, m')) :
      SetsUp parts m ended m'

variable {parts : SpawnParts σ} {id : RuntimeId} {env : Environment}
  {ended : Outcome Exception Unit} {machine : Machine}

theorem Machine.decorate_freshUi (renderer : Renderer) (common : CommonOperations) :
    (Machine.freshUi id env).decorate renderer common =
      match renderer.functions with
      | none =>
        (.halted .panic, (Machine.freshUi id env).setGlobal Runtime.uiMarker (.bool true))
      | some functions =>
        (.value (), (Machine.freshUi id env).decorated renderer.name
          (functions ++ common.functions)) :=
  decorate_of_fresh renderer common rfl rfl

/-- A fresh runtime is not refused by decoration. -/
theorem SetsUp.setUp_eq (h : SetsUp parts (.freshUi id env) ended machine) :
    (Machine.freshUi id env).setUp parts = (ended.mapError .runtime, machine) := by
  rw [Machine.setUp, Machine.decorate_freshUi]
  cases h with
  | notDecorated hfunctions =>
    rw [hfunctions]
    rfl
  | decorated functions hfunctions hscript =>
    rw [hfunctions, hscript]
    rfl
  | scripted functions script hfunctions hscript hrun =>
    rw [hfunctions, hscript]
    simp only [hrun]

/-- The set-up ends in one way or another. -/
theorem exists_setsUp (parts : SpawnParts σ) (m : Machine) :
    ∃ ended machine, SetsUp parts m ended machine := by
  cases hfunctions : parts.renderer.functions with
  | none => exact ⟨_, _, .notDecorated hfunctions⟩
  | some functions =>
    cases hscript : parts.initScript with
    | none => exact ⟨_, _, .decorated functions hfunctions hscript⟩
    | some script => exact ⟨_, _, .scripted functions script hfunctions hscript rfl⟩

theorem Machine.context_decorated (renderer : String) (functions : List BridgeFunction)
    (m : Machine) : (m.decorated renderer functions).runtime.context.id = m.runtime.context.id := by
  show (installAll functions (m.setGlobal Runtime.uiMarker (.bool true))).runtime.context.id = _
  rw [context_installAll]
  rfl

/-- Setting up leaves the runtime its identity. -/
theorem SetsUp.id_eq (h : SetsUp parts (.freshUi id env) ended machine) :
    machine.runtime.context.id = id := by
  cases h with
  | notDecorated => rfl
  | decorated functions =>
    exact Machine.context_decorated _ (functions ++ parts.common.functions) _
  | scripted functions script hfunctions hscript hrun =>
    have hcontext := script.context_run
      ((Machine.freshUi id env).decorated parts.renderer.name
        (functions ++ parts.common.functions))
    rw [hrun] at hcontext
    rw [hcontext]
    exact Machine.context_decorated _ (functions ++ parts.common.functions) _

/-- The parts with another manager. -/
def SpawnParts.withManager (parts : SpawnParts σ) (manager : AnimationManager τ)
    (managerState : τ) : SpawnParts τ :=
  { parts with manager, managerState }

/-- Where spawning fails, the manager does not matter. -/
theorem spawn_withManager {config : Config} {e : BridgeError} {env' : Environment}
    (h : spawn config parts id env = .failed e env') (manager : AnimationManager τ)
    (managerState : τ) :
    spawn config (parts.withManager manager managerState) id env = .failed e env' := by
  have hsetUp (m : Machine) : m.setUp (parts.withManager manager managerState) = m.setUp parts :=
    rfl
  rw [spawn] at h ⊢
  rw [hsetUp]
  cases hvalidate : config.validate with
  | error fault =>
    rw [hvalidate] at h
    cases h
    rfl
  | ok u =>
    rw [hvalidate] at h
    cases hspawnable : config.isSpawnable with
    | false =>
      rw [hspawnable] at h
      cases h
    | true =>
      rw [hspawnable] at h
      rcases hrun : Machine.setUp parts { runtime := .new id .ui, env } with ⟨_ | e' | why, m⟩ <;>
        rw [hrun] at h <;> cases h <;> rfl

/-! ## What becomes of a thread that runs -/

namespace UiThread

variable {t₀ t : UiThread σ} {sent : List Command}

/-- A thread reports no other end than that of its own runtime. -/
theorem Tracks.runtimeId_of_shutdown (h : t₀.Tracks sent t) (hnone : t₀.worker.events = [])
    {runtime : RuntimeId} (hmem : .runtimeShutdown runtime ∈ t.worker.events) :
    runtime = t₀.worker.runtimeId := by
  obtain ⟨receipts, w, hserves, hstands⟩ := h
  have hsilent : .runtimeShutdown runtime ∉ w.events := by
    rw [hserves.events_eq, hnone, List.nil_append]
    exact hserves.runtimeShutdown_not_mem runtime
  -- After the loop there is one event more, and it names the runtime of the worker.
  have hlast : t.worker = w.emit (.runtimeShutdown w.runtimeId) →
      runtime = t₀.worker.runtimeId := by
    intro hworker
    rw [hworker, Worker.emit, List.mem_append, List.mem_singleton] at hmem
    rcases hmem with hmem | hmem
    · exact absurd hmem hsilent
    · rw [Event.runtimeShutdown.inj hmem, hserves.runtimeId_eq]
  rw [Stands] at hstands
  cases hphase : t.phase with
  | serving | leaving =>
    rw [hphase] at hstands
    rw [hstands.1] at hmem
    exact absurd hmem hsilent
  | answering | closing | finished =>
    rw [hphase] at hstands
    exact hlast hstands.1
  | died why =>
    rw [hphase] at hstands
    obtain ⟨_, command, rest, _, _, hhandle⟩ := hstands
    rw [Worker.events_of_halted hhandle] at hmem
    exact absurd hmem hsilent

end UiThread

/-- A thread at its start: nothing was posted, and it works on `machine`. -/
structure Starts (parts : SpawnParts σ) (machine : Machine) (t : UiThread σ) : Prop where
  machine_eq : t.worker.machine = machine
  /-- The manager was not called. -/
  manager_eq : t.worker.manager = parts.manager ∧ t.worker.managerState = parts.managerState
  servesFrames_eq : t.worker.servesFrames = parts.servesFrames
  events_eq : t.worker.events = []
  serving : t.phase = .serving ∧ t.queue = []
  /-- The commands are handled one after the other from here. -/
  tracks : ∀ moves, t.Tracks (t.channel moves) (t.afterMoves moves)
  /-- What the set-up logged comes before whatever is logged later. -/
  extends_machine : ∀ moves, machine.Extends (t.afterMoves moves).worker.machine
  /-- The identity that the clients were told is the one whose end is reported. -/
  runtimeId_eq : ∀ moves runtime,
    .runtimeShutdown runtime ∈ (t.afterMoves moves).worker.events → runtime = t.runtimeId

/-- The thread that the caller gets is at its start. -/
theorem starts_thread (config : Config) (hid : machine.runtime.context.id = id) :
    Starts parts machine (parts.thread config id machine) := by
  have htracks (moves : List UiThread.Move) :
      (parts.thread config id machine).Tracks ((parts.thread config id machine).channel moves)
        ((parts.thread config id machine).afterMoves moves) :=
    (UiThread.tracks_of_serving rfl).afterMoves moves
  exact {
    machine_eq := rfl
    manager_eq := ⟨rfl, rfl⟩
    servesFrames_eq := rfl
    events_eq := rfl
    serving := ⟨rfl, rfl⟩
    tracks := htracks
    extends_machine := fun moves => (htracks moves).extends
    runtimeId_eq := fun moves runtime hmem =>
      ((htracks moves).runtimeId_of_shutdown rfl hmem).trans hid }

/-! ## The outcome -/

/-- What spawning has to come to when the set-up ends in this way. -/
structure SpawnOutcome (config : Config) (parts : SpawnParts σ) (id : RuntimeId)
    (env : Environment) (ended : Outcome Exception Unit) (machine : Machine) : Prop where
  runtime_iff : ∀ e, (∃ env', spawn config parts id env = .failed (.runtime e) env') ↔
    ended = .error e
  panicked_iff : (∃ env', spawn config parts id env = .failed .threadPanicked env') ↔
    ∃ why, ended = .halted why
  running_iff : (∃ t, spawn config parts id env = .running t) ↔ ended = .value ()
  starts : ∀ t, spawn config parts id env = .running t → t.runtimeId = id ∧ Starts parts machine t
  /-- The surroundings stay as the set-up left them. -/
  env_eq : ∀ e env', spawn config parts id env = .failed e env' → env' = machine.env
  /-- Decoration does not refuse the runtime. -/
  not_refused : ∀ e env', spawn config parts id env = .failed e env' →
    ∀ runtime, e ≠ .notUiRuntime runtime ∧ e ≠ .alreadyDecorated runtime
  /-- Whatever the manager is, it does not matter for a failure. -/
  manager_irrelevant : ∀ e env', spawn config parts id env = .failed e env' →
    ∀ (τ : Type) (manager : AnimationManager τ) managerState,
      spawn config (parts.withManager manager managerState) id env = .failed e env'

/-- What every schedule of the two threads has to come to. -/
structure Scheduled (config : Config) (parts : SpawnParts σ) (id : RuntimeId) (env : Environment)
    (ended : Outcome Exception Unit) (machine : Machine) (s : Startup σ) : Prop where
  result_eq : ∀ result, s.caller = .returned result → result = spawn config parts id env
  returns : (s.after config parts Startup.completion).caller =
    .returned (spawn config parts id env)
  /-- The loop is entered only after a set-up that ended well. -/
  serving : s.thread = .serving → ended = .value () ∧ s.machine = machine
  /-- With a failure, the new thread is gone. -/
  failed : ∀ e env', s.caller = .returned (.failed e env') → s.thread = .ended

variable {config : Config}

/-- Each end of the set-up is one outcome. -/
theorem SetsUp.spawn_eq (h : SetsUp parts (.freshUi id env) ended machine)
    (hvalid : config.validate = .ok ()) (hgranted : config.isSpawnable = true) :
    spawn config parts id env =
      match ended with
      | .value () => .running (parts.thread config id machine)
      | .error e => .failed (.runtime e) machine.env
      | .halted _ => .failed .threadPanicked machine.env := by
  rw [Startup.spawn_eq hvalid hgranted, h.setUp_eq]
  cases ended with
  | value =>
    simp only [Outcome.mapError]
    rw [h.id_eq]
  | error | halted => rfl

theorem SetsUp.spawnOutcome (h : SetsUp parts (.freshUi id env) ended machine)
    (hvalid : config.validate = .ok ()) (hgranted : config.isSpawnable = true) :
    SpawnOutcome config parts id env ended machine := by
  have hspawn := h.spawn_eq hvalid hgranted
  have hmanager : ∀ e env', spawn config parts id env = .failed e env' →
      ∀ (τ : Type) (manager : AnimationManager τ) managerState,
        spawn config (parts.withManager manager managerState) id env = .failed e env' :=
    fun e env' hfailed τ manager managerState => spawn_withManager hfailed manager managerState
  cases ended with
  | value =>
    simp only at hspawn
    refine ⟨by simp [hspawn], by simp [hspawn], by simp [hspawn], ?_, by simp [hspawn],
      by simp [hspawn], hmanager⟩
    intro t ht
    rw [hspawn] at ht
    obtain rfl := Spawned.running.inj ht
    exact ⟨rfl, starts_thread config h.id_eq⟩
  | error e =>
    simp only at hspawn
    exact ⟨by simp [hspawn, eq_comm], by simp [hspawn], by simp [hspawn], by simp [hspawn],
      by simp [hspawn, eq_comm], by simp [hspawn, eq_comm], hmanager⟩
  | halted why =>
    simp only at hspawn
    exact ⟨by simp [hspawn], by simp [hspawn], by simp [hspawn], by simp [hspawn],
      by simp [hspawn, eq_comm], by simp [hspawn, eq_comm], hmanager⟩

theorem SetsUp.scheduled (h : SetsUp parts (.freshUi id env) ended machine)
    (hvalid : config.validate = .ok ()) (hgranted : config.isSpawnable = true)
    (schedule : List Side) :
    Scheduled config parts id env ended machine
      (({ machine := .freshUi id env } : Startup σ).after config parts schedule) := by
  have hstart : Startup.Reached config parts (.freshUi id env) { machine := .freshUi id env } :=
    .settingUp
  have hreached := hstart.after schedule
  refine ⟨fun result => hreached.result_eq hvalid hgranted, ?returns, ?serving,
    fun e env' => hreached.ended_of_failed⟩
  case returns =>
    obtain ⟨result, hresult⟩ := hreached.returns
    rw [hresult, (hreached.after Startup.completion).result_eq hvalid hgranted hresult]
  case serving =>
    intro hserving
    have hsetUp := hreached.setUp_of_serving hserving
    rw [h.setUp_eq] at hsetUp
    obtain ⟨hended, hmachine⟩ := Prod.mk.inj hsetUp
    refine ⟨?_, hmachine.symm⟩
    cases ended with
    | value => rfl
    | error | halted => cases hended

/--
**How spawning ends.** A configuration that is not valid is refused, and nothing is touched. For a
valid one, with a channel and a thread granted, a fresh runtime is decorated and the initial script
runs on it, once.

* An exception of the script is the error of the caller, a panic while setting up is a panic of the
  thread, and otherwise the thread runs. No failure depends on the manager, and none says that the
  runtime was refused.
* A thread that runs starts from the machine that the set-up left, and the end that it reports later
  is that of the runtime whose identity the caller got.
* This holds for every schedule of the two threads. The loop is not entered before the set-up has
  ended well, and with a failure the new thread is gone.
-/
theorem spawn_law (config : Config) (parts : SpawnParts σ) (id : RuntimeId) (env : Environment) :
    (∀ fault, config.validate = .error fault →
      spawn config parts id env = .failed fault.toError env) ∧
    (config.validate = .ok () → config.isSpawnable = true →
      ∃ ended machine, SetsUp parts (.freshUi id env) ended machine ∧
        SpawnOutcome config parts id env ended machine ∧
        ∀ schedule, Scheduled config parts id env ended machine
          (({ machine := .freshUi id env } : Startup σ).after config parts schedule)) := by
  constructor
  · intro fault hinvalid
    rw [spawn, hinvalid]
  · intro hvalid hgranted
    obtain ⟨ended, machine, hsets⟩ := exists_setsUp parts (.freshUi id env)
    exact ⟨ended, machine, hsets, hsets.spawnOutcome hvalid hgranted,
      hsets.scheduled hvalid hgranted⟩

/-- A script that asks the host for something and then fails. -/
theorem failing_script_keeps_calls :
    let script : Script Exception Unit := do
      let _ ← (Native.host .flushUiUpdates).toScript
      .error (.reference "setup")
    let parts : SpawnParts Unit :=
      { renderer := .forwarding "bare" .viewTag []
        common := RecordingHost.commonOperations
        manager := { start := fun _ _ _ _ => .panic }
        managerState := ()
        servesFrames := true
        initScript := some script }
    ∃ env',
      spawn {} parts ⟨1⟩ { host := .new default } = .failed (.runtime (.reference "setup")) env' ∧
        env'.host.calls = [.flushUiUpdates] := by
  intro script parts
  obtain ⟨ended, machine, hsets, houtcome, -⟩ :=
    (spawn_law {} parts ⟨1⟩ { host := .new default }).2 rfl rfl
  cases hsets with
  | notDecorated hfunctions => cases hfunctions
  | decorated functions hfunctions hscript => cases hscript
  | scripted functions script' hfunctions hscript hrun =>
    obtain rfl := Option.some.inj hfunctions
    obtain rfl := Option.some.inj hscript
    obtain ⟨rfl, rfl⟩ := Prod.mk.inj hrun
    obtain ⟨env', hspawn⟩ := (houtcome.runtime_iff (.reference "setup")).mpr rfl
    refine ⟨env', hspawn, ?_⟩
    rw [houtcome.env_eq _ _ hspawn]
    rfl

/-! ## Panics of the caller -/

/--
**When the caller panics.** A valid configuration is spawned, or the caller is told of a failure,
unless its event capacity is beyond what a channel can have, or its thread name holds the null
character. In these cases the caller panics.
-/
theorem caller_panics_iff (config : Config) (parts : SpawnParts σ) (id : RuntimeId)
    (env : Environment) :
    spawn config parts id env = .callerPanicked ↔
      config.validate = .ok () ∧ (Config.maxEventCapacity < config.eventCapacity.toNat ∨
        '\x00' ∈ config.threadName.toList) := by
  have hrefused : config.isSpawnable = false ↔
      Config.maxEventCapacity < config.eventCapacity.toNat ∨ '\x00' ∈ config.threadName.toList := by
    simp [Config.isSpawnable, imp_iff_or_not, or_comm]
  rw [← hrefused]
  constructor
  · intro h
    cases hvalidate : config.validate with
    | error fault =>
      rw [spawn, hvalidate] at h
      cases h
    | ok u =>
      refine ⟨rfl, ?_⟩
      cases hspawnable : config.isSpawnable with
      | false => rfl
      | true =>
        -- Once the thread exists, every end is one of the new thread.
        rw [Startup.spawn_eq hvalidate hspawnable] at h
        split at h <;> cases h
  · rintro ⟨hvalid, hspawnable⟩
    rw [spawn, hvalid, hspawnable]
    rfl

/-- A stored configuration can be read and makes the caller panic: its thread name holds the null
character. -/
theorem stored_null_name_panics :
    let config : Config := { threadName := "a\x00b" }
    config.validate = .ok () ∧ Config.parse config.toJson.render = .ok config ∧
      ∀ (parts : SpawnParts Unit) (id : RuntimeId) (env : Environment),
        spawn config parts id env = .callerPanicked := by
  have hvalid : Config.validate { threadName := "a\x00b" } = .ok () := rfl
  have hspawnable : Config.isSpawnable { threadName := "a\x00b" } = false := rfl
  refine ⟨hvalid, ?_, fun parts id env => ?_⟩
  · rw [Config.parse_render_toJson, hvalid]
    rfl
  · rw [spawn, hvalid, hspawnable]
    rfl

end ScriptBridge
