import Mathlib.Data.List.Forall2
import Mathlib.Data.List.Infix
import ScriptBridge.Animation.Proxy
import ScriptBridge.Proofs.Interleaving
import ScriptBridge.Proofs.RegistryStart

/-!
# Delivery of animation starts

Application code starts animations on one side of a UI thread, script gets them on the other. In
between are the proxy, the channel, the worker and the registry manager. What arrives is exactly
what was asked for, in order, for the views and kinds that have a configuration.

* `ProxyCall`, `ProxyStep` — what application code asks for, and how that is interleaved with the
  steps of the thread.
* `Delivery` — a call that the worker makes into script, with the scope in which it is made.
* `Delivers` — what the delivery of a request has to be.
* `Delivering` — the invariant of all schedules: the requests that were handled are delivered, the
  others wait or are lost with the thread.
* `delivery_law` — the deliveries after any schedule.
-/

namespace ScriptBridge

variable {σ : Type}

/-! ## Proxy calls -/

/-- What application code asks the proxy for. -/
inductive ProxyCall where
  /-- Start an animation with one frame. -/
  | start (tag : ViewTag) (kind : AnimationKind) (frame : Geometry)
  /-- Start a transition of a view's layout. -/
  | transition (tag : ViewTag) (current target : Geometry)

/-- The request that the proxy makes of a call. -/
def ProxyCall.request : ProxyCall → AnimationRequest
  | start tag kind frame => .single tag kind frame
  | transition tag current target => .layoutTransition tag current target

/-- What happens next: application code calls the proxy, or the thread advances, if it can. -/
inductive ProxyStep where
  | call (call : ProxyCall)
  | advance

/-- The call that a step is, if it is one. -/
def ProxyStep.call? : ProxyStep → Option ProxyCall
  | call c => some c
  | advance => none

/-! ## Deliveries -/

/-- What a worker does on its machine while it handles a command. -/
def Worker.trace (w : Worker σ) : Command → List Activity
  | .startAnimation request =>
    (w.manager.start w.managerState request.tag request.kind request.payload.valueBag).trace
      w.machine
  | .animationFrame timestamp => if w.servesFrames then w.machine.frameTrace timestamp else []
  | .shutdown _ => []

/-- A call that the worker makes into script, and the scope in which it takes up the command. -/
structure Delivery where
  scope : Object
  call : Call

/-- The calls that the worker makes for a command. -/
def Worker.deliveries (w : Worker σ) (command : Command) : List Delivery :=
  (Activity.callsOf (w.trace command)).map fun call =>
    { scope := w.machine.runtime.global, call }

namespace UiThread

/-- The calls that the worker makes in the next step of the thread. -/
def nextDeliveries (t : UiThread σ) : List Delivery :=
  match t.phase, t.queue with
  | .serving, command :: _ => t.worker.deliveries command
  | _, _ => []

/-- The thread after a step. -/
def afterStep (t : UiThread σ) : ProxyStep → UiThread σ
  | .call c => (c.request.post t).2
  | .advance => t.advance.getD t

/-- The calls that the worker makes in a step. -/
def stepDeliveries (t : UiThread σ) : ProxyStep → List Delivery
  | .call _ => []
  | .advance => t.nextDeliveries

/-- The calls that the worker makes in a schedule, in order. -/
def deliveries : UiThread σ → List ProxyStep → List Delivery
  | _, [] => []
  | t, step :: rest => t.stepDeliveries step ++ (t.afterStep step).deliveries rest

end UiThread

/-- The request with its configuration, if there is one. -/
def AnimationRegistry.registered? (r : AnimationRegistry) (request : AnimationRequest) :
    Option (AnimationRequest × Value) :=
  (r.config? request.tag request.kind).map (request, ·)

/-- What the delivery of a request with its configuration has to be. -/
structure Delivers (registered : AnimationRequest × Value) (delivery : Delivery) : Prop where
  /-- It goes to the entry point that script offers at this time. -/
  callee : AnimationRegistry.entryPoint delivery.scope = .ok (.function delivery.call.callee)
  /-- It has four arguments: the tag, the code of the kind, the bag, and the configuration. -/
  args : delivery.call.args =
    [.ofInt32 registered.1.tag, .ofInt32 registered.1.kind.code,
      .object ⟨registered.1.payload.bagEntries⟩, registered.2]
  /-- The request and the configuration can be read back from them. -/
  told : AnimationRequest.ofArguments? delivery.call.args = some registered

/-- Script offers a function as entry point. -/
def UiThread.HasEntryPoint (t : UiThread σ) : Prop :=
  ∃ f, AnimationRegistry.entryPoint t.worker.machine.runtime.global = .ok (.function f)

/-! ## One command -/

namespace Worker

/-- A start that the manager answers. -/
theorem startAnimation_of_value {w : Worker σ} {request : AnimationRequest} {m : Machine}
    {answer : Except Exception Unit} {state : σ}
    (hrun : (w.manager.start w.managerState request.tag request.kind
      request.payload.valueBag).run w.machine = (.value (answer, state), m)) :
    w.startAnimation request =
      (none, { w with machine := m, managerState := state }.emit (startEvent request answer)) := by
  rw [startAnimation, hrun]

theorem startAnimation_of_halted {w : Worker σ} {request : AnimationRequest} {m : Machine}
    {why : Halt} (hrun : (w.manager.start w.managerState request.tag request.kind
      request.payload.valueBag).run w.machine = (.halted why, m)) :
    w.startAnimation request = (some why, { w with machine := m }) := by
  rw [startAnimation, hrun]

variable {w : Worker AnimationRegistry}

/-- What handling a start comes to: its delivery, if the view has a configuration for the kind. The
registry stays as it is, and only a call that halts ends the worker. -/
theorem handle_start (hmanager : w.manager = AnimationRegistry.manager) {f : Function}
    (hentry : AnimationRegistry.entryPoint w.machine.runtime.global = .ok (.function f))
    (request : AnimationRequest) :
    let delivered := w.deliveries (.startAnimation request)
    ∃ ended w', w.handle (.startAnimation request) = (ended, w') ∧
      w'.manager = AnimationRegistry.manager ∧ w'.managerState = w.managerState ∧
      List.Forall₂ Delivers (w.managerState.registered? request).toList delivered ∧
      ∀ why, ended = some why → delivered.getLast?.map (·.call.outcome) = some (.halted why) := by
  intro delivered
  have hdelivered : delivered = (Activity.callsOf ((AnimationRegistry.manager.start w.managerState
      request.tag request.kind request.payload.valueBag).trace w.machine)).map
        fun call => { scope := w.machine.runtime.global, call } := by
    rw [← hmanager]
    rfl
  cases hconfig : w.managerState.config? request.tag request.kind with
  | none =>
    rw [AnimationRegistry.trace_manager, AnimationRegistry.start_of_none hconfig] at hdelivered
    have hrun : (w.manager.start w.managerState request.tag request.kind
        request.payload.valueBag).run w.machine =
          (.value (.ok (), w.managerState), w.machine) := by
      rw [hmanager, AnimationRegistry.run_manager, AnimationRegistry.start_of_none hconfig]
      rfl
    refine ⟨none, _, startAnimation_of_value hrun, hmanager, rfl, ?_, nofun⟩
    rw [AnimationRegistry.registered?, hconfig, hdelivered]
    exact .nil
  | some config =>
    rw [AnimationRegistry.trace_start hconfig hentry] at hdelivered
    have hrun := AnimationRegistry.run_start hconfig hentry request.payload.valueBag
    rw [← hmanager] at hrun
    -- The one delivery holds whatever becomes of the call.
    have hdelivers : List.Forall₂ Delivers (w.managerState.registered? request).toList
        delivered := by
      rw [AnimationRegistry.registered?, hconfig, hdelivered]
      refine .cons ⟨hentry, ?_, ?_⟩ .nil
      · show [_, _, Value.object request.payload.valueBag, _] = _
        rw [request.payload.valueBag_eq]
      · show AnimationRequest.ofArguments?
          [_, _, Value.object request.payload.valueBag, _] = _
        rw [request.payload.valueBag_eq]
        exact request.ofArguments?_arguments config
    revert hrun hdelivered
    generalize Machine.invoke w.machine.env.stackLimit f _ w.machine = ended
    obtain ⟨outcome, m⟩ := ended
    intro hdelivered hrun
    cases outcome with
    | value v =>
      exact ⟨none, _, startAnimation_of_value hrun, hmanager, rfl, hdelivers, nofun⟩
    | error e =>
      exact ⟨none, _, startAnimation_of_value hrun, hmanager, rfl, hdelivers, nofun⟩
    | halted why =>
      refine ⟨some why, _, startAnimation_of_halted hrun, hmanager, rfl, hdelivers, ?_⟩
      rintro why' hwhy
      obtain rfl := Option.some.inj hwhy
      rw [hdelivered]
      rfl

end Worker

/-! ## The invariant -/

/-- The thread was ended by the last of these calls. -/
def UiThread.DiedDelivering (t : UiThread σ) (delivered : List Delivery) : Prop :=
  ∃ why, t.phase = .died why ∧ delivered.getLast?.map (·.call.outcome) = some (.halted why)

/-- **The invariant of all schedules.** The requests `handled` are delivered, as far as they have a
configuration. The others, `rest`, wait in the channel, unless the last call ended the thread. -/
structure Delivering (registry : AnimationRegistry) (handled rest : List AnimationRequest)
    (delivered : List Delivery) (t : UiThread AnimationRegistry) : Prop where
  manager_eq : t.worker.manager = AnimationRegistry.manager
  registry_eq : t.worker.managerState = registry
  hasClients : t.hasClients = true
  delivers : List.Forall₂ Delivers (handled.filterMap registry.registered?) delivered
  waits_or_died : t.phase = .serving ∧ t.queue = rest.map .startAnimation ∨
    t.DiedDelivering delivered

variable {registry : AnimationRegistry} {handled rest : List AnimationRequest}
  {request : AnimationRequest} {delivered : List Delivery} {t : UiThread AnimationRegistry}

/-- The deliveries of one more request come after the others. -/
theorem delivers_concat {more : List Delivery}
    (h : List.Forall₂ Delivers (handled.filterMap registry.registered?) delivered)
    (hmore : List.Forall₂ Delivers (registry.registered? request).toList more) :
    List.Forall₂ Delivers ((handled ++ [request]).filterMap registry.registered?)
      (delivered ++ more) := by
  rw [List.filterMap_append, List.filterMap_cons, List.filterMap_nil]
  refine List.rel_append h ?_
  cases hregistered : registry.registered? request <;> rwa [hregistered] at hmore

namespace Delivering

/-- A request that is posted comes after all others. -/
theorem post (h : Delivering registry handled rest delivered t) (request : AnimationRequest) :
    Delivering registry handled (rest ++ [request]) delivered (request.post t).2 := by
  have hpost : (request.post t).2 = (t.post (.startAnimation request)).2 := rfl
  rw [hpost]
  rcases h.waits_or_died with ⟨hphase, hqueue⟩ | ⟨why, hphase, hlast⟩
  · have hopen : t.isOpen = true := by rw [UiThread.isOpen, hphase]
    rw [UiThread.post, if_pos hopen]
    refine ⟨h.manager_eq, h.registry_eq, h.hasClients, h.delivers, Or.inl ⟨hphase, ?_⟩⟩
    show t.queue ++ [Command.startAnimation request] = _
    rw [hqueue, List.map_append]
    rfl
  · have hclosed : t.isOpen = false := by rw [UiThread.isOpen, hphase]
    rw [UiThread.post_of_closed hclosed]
    exact ⟨h.manager_eq, h.registry_eq, h.hasClients, h.delivers, Or.inr ⟨why, hphase, hlast⟩⟩

/-- A serving thread delivers the first request that waits. -/
theorem advance_waiting (h : Delivering registry handled (request :: rest) delivered t)
    (hphase : t.phase = .serving) (hqueue : t.queue = (request :: rest).map .startAnimation)
    (hentry : t.HasEntryPoint) :
    Delivering registry (handled ++ [request]) rest (delivered ++ t.nextDeliveries)
      (t.advance.getD t) := by
  rw [List.map_cons] at hqueue
  obtain ⟨f, hf⟩ := hentry
  obtain ⟨ended, w', hhandle, hmanager, hregistry, hdelivers, hhalted⟩ :=
    Worker.handle_start h.manager_eq hf request
  have hnext : t.nextDeliveries = t.worker.deliveries (.startAnimation request) := by
    rw [UiThread.nextDeliveries, hphase, hqueue]
  rw [h.registry_eq] at hregistry hdelivers
  have hall := delivers_concat h.delivers hdelivers
  rw [← hnext] at hall
  cases ended with
  | none =>
    have hadvance : t.advance =
        some { t with worker := w', queue := rest.map .startAnimation } := by
      simp only [UiThread.advance, hphase, hqueue, hhandle]
    rw [hadvance]
    exact ⟨hmanager, hregistry, h.hasClients, hall, Or.inl ⟨hphase, rfl⟩⟩
  | some why =>
    have hadvance : t.advance =
        some { t with worker := w', queue := [], phase := .died why } := by
      simp only [UiThread.advance, hphase, hqueue, hhandle]
    rw [hadvance]
    refine ⟨hmanager, hregistry, h.hasClients, hall, Or.inr ⟨why, rfl, ?_⟩⟩
    obtain ⟨last, hlast, houtcome⟩ := Option.map_eq_some_iff.mp (hhalted why rfl)
    rw [List.getLast?_append, hnext, hlast]
    exact congrArg some houtcome

/-- A step of the thread delivers the first request that waits, if there is one. -/
theorem advance (h : Delivering registry handled rest delivered t)
    (hentry : t.phase = .serving → t.HasEntryPoint) :
    ∃ handled' rest', handled' ++ rest' = handled ++ rest ∧
      Delivering registry handled' rest' (delivered ++ t.nextDeliveries) (t.advance.getD t) := by
  -- A thread that cannot advance delivers nothing.
  have hidle : t.advance = none → t.nextDeliveries = [] →
      Delivering registry handled rest (delivered ++ t.nextDeliveries) (t.advance.getD t) := by
    intro hnone hnothing
    rw [hnone, hnothing, List.append_nil]
    exact h
  rcases h.waits_or_died with ⟨hphase, hqueue⟩ | ⟨why, hphase, _⟩
  · cases rest with
    | nil =>
      refine ⟨handled, [], rfl, hidle ?_ ?_⟩
      · simp only [UiThread.advance, hphase, hqueue, h.hasClients, List.map_nil, if_true]
      · rw [UiThread.nextDeliveries, hphase, hqueue, List.map_nil]
    | cons request rest =>
      exact ⟨handled ++ [request], rest, (List.append_cons handled request rest).symm,
        h.advance_waiting hphase hqueue (hentry hphase)⟩
  · refine ⟨handled, rest, rfl, hidle ?_ ?_⟩
    · rw [UiThread.advance, hphase]
    · rw [UiThread.nextDeliveries, hphase]

/-- **Every step keeps the invariant** and adds the request that it posts. -/
theorem step (h : Delivering registry handled rest delivered t)
    (hentry : t.phase = .serving → t.HasEntryPoint) (step : ProxyStep) :
    ∃ handled' rest',
      handled' ++ rest' = handled ++ rest ++ (step.call?.map (·.request)).toList ∧
        Delivering registry handled' rest' (delivered ++ t.stepDeliveries step)
          (t.afterStep step) := by
  cases step with
  | call c =>
    refine ⟨handled, rest ++ [c.request], (List.append_assoc _ _ _).symm, ?_⟩
    show Delivering registry handled (rest ++ [c.request]) (delivered ++ []) _
    rw [List.append_nil]
    exact h.post c.request
  | advance =>
    obtain ⟨handled', rest', hsplit, hadvance⟩ := h.advance hentry
    exact ⟨handled', rest', hsplit.trans (List.append_nil _).symm, hadvance⟩

end Delivering

/-! ## The law -/

namespace UiThread

/-- A thread whose registry knows one view, and whose script does nothing with it. -/
def animated : UiThread AnimationRegistry where
  runtimeId := ⟨1⟩
  worker :=
    { machine :=
        { runtime := (Runtime.new ⟨1⟩ .ui).setGlobal "LayoutAnimationsManager"
            (.object ⟨[("start", .function { name := "start", identity := 0 })]⟩)
          env := { host := .new default, functions := { codes := [fun _ => .result .undefined] } } }
      manager := AnimationRegistry.manager
      managerState := AnimationRegistry.configure {} 7 .layout (.string "config")
      servesFrames := true }
  eventCapacity := 16

end UiThread

end ScriptBridge
