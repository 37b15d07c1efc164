import Mathlib.Logic.Relation
import ScriptBridge.Animation.Registry
import ScriptBridge.Bridge.Decoration
import ScriptBridge.Proofs.Frames

/-!
# The life of a runtime

A runtime keeps its identity and its kind. Its globals keep their places, and none disappears. It is
decorated at most once, and only if it is a UI runtime. All of this is independent of what script
code does, since script code only binds globals: the marker in the scope is not what decoration
looks at.

* `Runtime.Step` — what can happen to a runtime at once. The invariants are derived from it.
* `RuntimeAction` — the operations on a runtime, and all the states that they pass through.
* `lifecycle_invariant` — the invariants hold in every run of such operations, also in the middle of
  calls.
-/

namespace ScriptBridge

/-! ## Keys of ordered maps -/

namespace OrderedMap

variable {κ α : Type} [DecidableEq κ]

/-- Binding a key keeps the others where they are. -/
theorem keys_prefix_insert (m : OrderedMap κ α) (key : κ) (value : α) :
    m.keys <+: (m.insert key value).keys := by
  by_cases h : key ∈ m.keys
  · exact ⟨[], by rw [keys_insert_of_mem h, List.append_nil]⟩
  · rw [keys_insert_of_not_mem h]
    exact List.prefix_append m.keys [key]

end OrderedMap

/-! ## Steps of a runtime -/

namespace Runtime

/-- What can happen to a runtime at once. -/
inductive Step : Runtime → Runtime → Prop where
  /-- A global is bound, by script code or by the bridge. -/
  | bind (rt : Runtime) (name : String) (value : Value) : Step rt (rt.setGlobal name value)
  /-- Decoration is noted in the context. -/
  | decorated (rt : Runtime) (renderer : String) (hkind : rt.context.kind = .ui)
      (hnone : rt.context.decoratedBy = none) :
      Step rt { rt with context := { rt.context with decoratedBy := some renderer } }

/-- What can happen to a runtime. -/
abbrev Steps : Runtime → Runtime → Prop := Relation.ReflTransGen Step

/-- How a later state of a runtime is related to an earlier one. -/
structure Evolves (rt rt' : Runtime) : Prop where
  id_eq : rt'.context.id = rt.context.id
  kind_eq : rt'.context.kind = rt.context.kind
  /-- No global disappears or moves. -/
  names : rt.global.keys <+: rt'.global.keys
  /-- Decoration is not undone, and not done again. -/
  decoratedBy : ∀ renderer, rt.context.decoratedBy = some renderer →
    rt'.context.decoratedBy = some renderer

/-- What is true of a runtime at any time. -/
structure Sound (rt : Runtime) : Prop where
  names : rt.global.keys.Nodup
  ui_of_decorated : rt.context.decoratedBy ≠ none → rt.context.kind = .ui

variable {rt rt' rt'' : Runtime}

theorem Evolves.refl (rt : Runtime) : rt.Evolves rt :=
  ⟨rfl, rfl, List.prefix_rfl, fun _ h => h⟩

theorem Evolves.trans (h : rt.Evolves rt') (h' : rt'.Evolves rt'') : rt.Evolves rt'' where
  id_eq := h'.id_eq.trans h.id_eq
  kind_eq := h'.kind_eq.trans h.kind_eq
  names := h.names.trans h'.names
  decoratedBy renderer hr := h'.decoratedBy renderer (h.decoratedBy renderer hr)

theorem Step.evolves (h : Step rt rt') : rt.Evolves rt' := by
  cases h with
  | bind name value =>
    exact ⟨rfl, rfl, OrderedMap.keys_prefix_insert rt.global name value, fun _ hr => hr⟩
  | decorated renderer hkind hnone =>
    refine ⟨rfl, rfl, List.prefix_rfl, ?_⟩
    -- Nothing has to be kept: the runtime was not decorated before.
    intro renderer' hr
    rw [hnone] at hr
    cases hr

theorem Step.sound (h : Step rt rt') (hs : rt.Sound) : rt'.Sound := by
  cases h with
  | bind name value => exact ⟨OrderedMap.nodup_insert hs.names name value, hs.ui_of_decorated⟩
  | decorated renderer hkind hnone => exact ⟨hs.names, fun _ => hkind⟩

theorem Steps.evolves (h : Steps rt rt') : rt.Evolves rt' := by
  induction h with
  | refl => exact Evolves.refl rt
  | tail _ hstep ih => exact ih.trans hstep.evolves

theorem Steps.sound (h : Steps rt rt') (hs : rt.Sound) : rt'.Sound := by
  induction h with
  | refl => exact hs
  | tail _ hstep ih => exact hstep.sound ih

theorem sound_new (id : RuntimeId) (kind : RuntimeKind) : (Runtime.new id kind).Sound :=
  ⟨List.nodup_nil, fun h => absurd rfl h⟩

end Runtime

/-! ## What scripts do to a runtime -/

namespace Machine

theorem steps_effect (m : Machine) (op : Op) : m.runtime.Steps (m.effect op).runtime := by
  cases op with
  | setGlobal name value => exact .single (.bind m.runtime name value)
  | _ => exact .refl

theorem context_effect (m : Machine) (op : Op) :
    (m.effect op).runtime.context = m.runtime.context := by
  cases op <;> rfl

/-- The runtimes that a machine passes through when it carries out requests. -/
def passes (m : Machine) (ops : List Op) : List Runtime :=
  (ops.scanl effect m).map (·.runtime)

theorem passes_nil (m : Machine) : m.passes [] = [m.runtime] := by
  rw [passes, List.scanl_nil, List.map_singleton]

theorem passes_cons (m : Machine) (op : Op) (ops : List Op) :
    m.passes (op :: ops) = m.runtime :: (m.effect op).passes ops := by
  rw [passes, passes, List.scanl_cons, List.map_cons]

theorem getLast?_passes (m : Machine) (ops : List Op) :
    (m.passes ops).getLast? = some (ops.foldl effect m).runtime := by
  rw [passes, List.getLast?_map, List.getLast?_scanl, Option.map_some]

theorem steps_of_mem_passes {m : Machine} {ops : List Op} {rt : Runtime} (h : rt ∈ m.passes ops) :
    m.runtime.Steps rt := by
  induction ops generalizing m with
  | nil =>
    rw [passes_nil, List.mem_singleton] at h
    rw [h]
  | cons op ops ih =>
    rw [passes_cons, List.mem_cons] at h
    rcases h with rfl | h
    · exact .refl
    · exact (m.steps_effect op).trans (ih h)

theorem context_of_mem_passes {m : Machine} {ops : List Op} {rt : Runtime}
    (h : rt ∈ m.passes ops) : rt.context = m.runtime.context := by
  induction ops generalizing m with
  | nil =>
    rw [passes_nil, List.mem_singleton] at h
    rw [h]
  | cons op ops ih =>
    rw [passes_cons, List.mem_cons] at h
    rcases h with rfl | h
    · rfl
    · rw [ih h, context_effect]

theorem pairwise_passes (m : Machine) (ops : List Op) :
    (m.passes ops).Pairwise Runtime.Steps := by
  induction ops generalizing m with
  | nil =>
    rw [passes_nil]
    exact List.pairwise_singleton _ _
  | cons op ops ih =>
    rw [passes_cons, List.pairwise_cons]
    exact ⟨fun rt h => (m.steps_effect op).trans (steps_of_mem_passes h), ih (m.effect op)⟩

end Machine

/-- Scripts do not change the context of their runtime. -/
theorem Script.context_run {ε α : Type} (s : Script ε α) (m : Machine) :
    (s.run m).2.runtime.context = m.runtime.context := by
  rw [s.machine_run]
  exact Machine.context_of_mem_passes (List.mem_of_getLast? (m.getLast?_passes _))

theorem Machine.context_flushFrame (m : Machine) (timestamp : Binary64) :
    (m.flushFrame timestamp).2.runtime.context = m.runtime.context := by
  rw [flushFrame_eq]
  exact Script.context_run _ (m.beginFrame timestamp)

/-! ## What decoration does to a runtime -/

namespace Machine

theorem steps_setGlobal (m : Machine) (name : String) (value : Value) :
    m.runtime.Steps (m.setGlobal name value).runtime :=
  .single (.bind m.runtime name value)

theorem runtime_install (f : BridgeFunction) (m : Machine) :
    ∃ value, (f.install m).runtime = m.runtime.setGlobal f.name value :=
  ⟨.function (m.env.functions.define f.name f.code).1, rfl⟩

theorem steps_installAll (functions : List BridgeFunction) (m : Machine) :
    m.runtime.Steps (m.installAll functions).runtime := by
  induction functions generalizing m with
  | nil => exact .refl
  | cons f rest ih =>
    obtain ⟨value, hvalue⟩ := runtime_install f m
    have hstep : m.runtime.Step (f.install m).runtime := by
      rw [hvalue]
      exact .bind m.runtime f.name value
    exact .head hstep (ih (f.install m))

theorem context_installAll (functions : List BridgeFunction) (m : Machine) :
    (m.installAll functions).runtime.context = m.runtime.context := by
  induction functions generalizing m with
  | nil => rfl
  | cons f rest ih => exact ih (f.install m)

/-! ### The cases of decoration -/

variable {m : Machine} (renderer : Renderer) (common : CommonOperations)

theorem decorate_of_main (h : m.runtime.context.kind = .main) :
    m.decorate renderer common = (.error (.notUiRuntime m.runtime.context.id), m) := by
  rw [decorate, Runtime.isUi, h]
  rfl

theorem decorate_of_decorated (hkind : m.runtime.context.kind = .ui)
    (h : m.runtime.context.decoratedBy ≠ none) :
    m.decorate renderer common = (.error (.alreadyDecorated m.runtime.context.id), m) := by
  have hsome : m.runtime.isDecorated = true := Option.isSome_iff_ne_none.mpr h
  rw [decorate, Runtime.isUi, hkind, hsome]
  rfl

theorem decorate_of_fresh (hkind : m.runtime.context.kind = .ui)
    (h : m.runtime.context.decoratedBy = none) :
    m.decorate renderer common =
      match renderer.functions with
      | none => (.halted .panic, m.setGlobal Runtime.uiMarker (.bool true))
      | some functions =>
        (.value (), ((m.setGlobal Runtime.uiMarker (.bool true)).installAll
          (functions ++ common.functions)).noteDecoration renderer.name) := by
  have hnone : m.runtime.isDecorated = false := by rw [Runtime.isDecorated, h, Option.isSome_none]
  rw [decorate, Runtime.isUi, hkind, hnone]
  rfl

/-- What an attempt to decorate a runtime has to come to. -/
structure DecorationLaw (m : Machine) (renderer : Renderer) (common : CommonOperations) :
    Prop where
  /-- It succeeds exactly on UI runtimes that are not decorated, unless the renderer panics. -/
  ok_iff : (m.decorate renderer common).1 = .value () ↔
    m.runtime.context.kind = .ui ∧ m.runtime.context.decoratedBy = none ∧
      renderer.functions ≠ none
  /-- Success is noted in the context. -/
  noted : (m.decorate renderer common).1 = .value () →
    (m.decorate renderer common).2.runtime.context.decoratedBy = some renderer.name
  /-- A runtime of the main thread is refused, whatever its marker reads. -/
  main : m.runtime.context.kind = .main →
    (m.decorate renderer common).1 = .error (.notUiRuntime m.runtime.context.id)
  again : m.runtime.context.kind = .ui → m.runtime.context.decoratedBy ≠ none →
    (m.decorate renderer common).1 = .error (.alreadyDecorated m.runtime.context.id)
  /-- A refusal changes nothing. -/
  refused : ∀ e, (m.decorate renderer common).1 = .error e → (m.decorate renderer common).2 = m

/-- **Decoration is lawful** in every state. -/
theorem decoration_lawful (m : Machine) (renderer : Renderer) (common : CommonOperations) :
    m.DecorationLaw renderer common := by
  cases hkind : m.runtime.context.kind with
  | main =>
    have hd := decorate_of_main renderer common hkind
    refine ⟨?_, ?_, ?_, ?_, ?_⟩ <;> simp [hd, hkind]
  | ui =>
    by_cases hnone : m.runtime.context.decoratedBy = none
    · have hd := decorate_of_fresh renderer common hkind hnone
      cases hf : renderer.functions with
      | none =>
        rw [hf] at hd
        refine ⟨?_, ?_, ?_, ?_, ?_⟩ <;> simp [hd, hkind, hnone, hf]
      | some functions =>
        rw [hf] at hd
        refine ⟨?_, ?_, ?_, ?_, ?_⟩ <;> simp [hd, hkind, hnone, hf, noteDecoration]
    · have hd := decorate_of_decorated renderer common hkind hnone
      refine ⟨?_, ?_, ?_, ?_, ?_⟩ <;> simp [hd, hkind, hnone]

theorem steps_decorate (m : Machine) (renderer : Renderer) (common : CommonOperations) :
    m.runtime.Steps (m.decorate renderer common).2.runtime := by
  cases hkind : m.runtime.context.kind with
  | main =>
    rw [decorate_of_main renderer common hkind]
  | ui =>
    by_cases hnone : m.runtime.context.decoratedBy = none
    · rw [decorate_of_fresh renderer common hkind hnone]
      let marked := m.setGlobal Runtime.uiMarker (.bool true)
      have hmarked : m.runtime.Steps marked.runtime := m.steps_setGlobal _ _
      cases renderer.functions with
      | none => exact hmarked
      | some functions =>
        -- Nothing that is installed touches the context, so the note finds it as it was.
        let installed := marked.installAll (functions ++ common.functions)
        have hcontext : installed.runtime.context = m.runtime.context :=
          context_installAll (functions ++ common.functions) marked
        have hnote : installed.runtime.Step (installed.noteDecoration renderer.name).runtime :=
          .decorated installed.runtime renderer.name (by rw [hcontext, hkind])
            (by rw [hcontext, hnone])
        exact (hmarked.trans (steps_installAll _ marked)).tail hnote
    · rw [decorate_of_decorated renderer common hkind hnone]

end Machine

/-! ## Operations on a runtime -/

/-- An operation on a runtime. Between two of them, the surroundings may become anything. -/
inductive RuntimeAction where
  | setGlobal (name : String) (value : Value)
  | callGlobal (name : String) (args : List Value)
  | callFunction (callee : Value) (args : List Value)
  | decorate (renderer : Renderer) (common : CommonOperations)
  | flushFrame (timestamp : Binary64)
  | startAnimation {σ : Type} (manager : AnimationManager σ) (state : σ) (tag : ViewTag)
      (kind : AnimationKind) (values : Object)
  | elsewhere (env : Environment)

namespace RuntimeAction

/-- The machine that an operation leaves. -/
def act (m : Machine) : RuntimeAction → Machine
  | setGlobal name value => m.setGlobal name value
  | callGlobal name args => (m.callGlobal name args).2
  | callFunction callee args => (m.callFunction callee args).2
  | decorate renderer common => (m.decorate renderer common).2
  | flushFrame timestamp => (m.flushFrame timestamp).2
  | startAnimation manager state tag kind values =>
    ((manager.start state tag kind values).run m).2
  | elsewhere env => { m with env }

/-- How an attempt to decorate ended, if the operation is one. -/
def decoration? (m : Machine) : RuntimeAction → Option (Outcome BridgeError Unit)
  | decorate renderer common => some (m.decorate renderer common).1
  | _ => none

/-- The runtimes that an operation passes through, the one that it leaves last. Where script code
runs, every single request counts, also those inside of calls. -/
def passes (m : Machine) : RuntimeAction → List Runtime
  | callGlobal name args => m.passes (Activity.requestsOf ((Script.callGlobal name args).trace m))
  | callFunction callee args =>
    m.passes (Activity.requestsOf ((Script.callFunction callee args).trace m))
  | flushFrame timestamp =>
    (m.beginFrame timestamp).passes (Activity.requestsOf (m.frameTrace timestamp))
  | startAnimation manager state tag kind values =>
    m.passes (Activity.requestsOf ((manager.start state tag kind values).trace m))
  | action => [(action.act m).runtime]

/-- What holds of an operation, whatever it is: it goes on from the runtime that is there, and
leaves the last one that it passes. -/
structure Lawful (m : Machine) (action : RuntimeAction) : Prop where
  last : (action.passes m).getLast? = some (action.act m).runtime
  steps : ∀ rt ∈ action.passes m, m.runtime.Steps rt
  ordered : (action.passes m).Pairwise Runtime.Steps
  /-- Only decoration changes the context. -/
  context : action.decoration? m = none →
    ∀ rt ∈ action.passes m, rt.context = m.runtime.context

theorem lawful_of_requests {m start : Machine} {action : RuntimeAction} {ops : List Op}
    (hpasses : action.passes m = start.passes ops)
    (hact : action.act m = ops.foldl Machine.effect start) (hstart : start.runtime = m.runtime) :
    action.Lawful m where
  last := by rw [hpasses, hact, Machine.getLast?_passes]
  steps := by
    intro rt h
    rw [hpasses] at h
    rw [← hstart]
    exact Machine.steps_of_mem_passes h
  ordered := by
    rw [hpasses]
    exact start.pairwise_passes ops
  context := by
    intro _ rt h
    rw [hpasses] at h
    rw [← hstart]
    exact Machine.context_of_mem_passes h

theorem lawful_of_single {m : Machine} {action : RuntimeAction}
    (hpasses : action.passes m = [(action.act m).runtime])
    (hsteps : m.runtime.Steps (action.act m).runtime)
    (hcontext : action.decoration? m = none →
      (action.act m).runtime.context = m.runtime.context) :
    action.Lawful m where
  last := by rw [hpasses, List.getLast?_singleton]
  steps := by
    intro rt h
    rw [hpasses, List.mem_singleton] at h
    rw [h]
    exact hsteps
  ordered := by
    rw [hpasses]
    exact List.pairwise_singleton _ _
  context := by
    intro hnone rt h
    rw [hpasses, List.mem_singleton] at h
    rw [h]
    exact hcontext hnone

theorem lawful (m : Machine) (action : RuntimeAction) : action.Lawful m := by
  cases action with
  | setGlobal name value =>
    exact lawful_of_single rfl (m.steps_setGlobal name value) fun _ => rfl
  | callGlobal name args => exact lawful_of_requests rfl (Script.machine_run _ m) rfl
  | callFunction callee args => exact lawful_of_requests rfl (Script.machine_run _ m) rfl
  | decorate renderer common =>
    exact lawful_of_single rfl (m.steps_decorate renderer common) nofun
  | flushFrame timestamp =>
    let callbacks := Machine.callEach m.env.frames.pending [.number timestamp]
    exact lawful_of_requests rfl (callbacks.machine_run (m.beginFrame timestamp)) rfl
  | startAnimation manager state tag kind values =>
    exact lawful_of_requests rfl (Script.machine_run _ m) rfl
  | elsewhere env => exact lawful_of_single rfl .refl fun _ => rfl

end RuntimeAction

/-! ## Runs of operations -/

namespace Machine

/-- The machine after a run of operations. -/
def afterActions (m : Machine) (actions : List RuntimeAction) : Machine :=
  actions.foldl RuntimeAction.act m

/-- All runtimes of a run of operations, from the first one on. -/
def history : Machine → List RuntimeAction → List Runtime
  | m, [] => [m.runtime]
  | m, action :: rest => m.runtime :: (action.passes m ++ (action.act m).history rest)

/-- How the attempts to decorate ended in a run of operations. -/
def decorations : Machine → List RuntimeAction → List (Outcome BridgeError Unit)
  | _, [] => []
  | m, action :: rest => (action.decoration? m).toList ++ (action.act m).decorations rest

theorem getLast?_history (m : Machine) (actions : List RuntimeAction) :
    (m.history actions).getLast? = some (m.afterActions actions).runtime := by
  induction actions generalizing m with
  | nil => rfl
  | cons action rest ih =>
    rw [history, ← List.cons_append, List.getLast?_append, ih]
    rfl

theorem steps_act (m : Machine) (action : RuntimeAction) :
    m.runtime.Steps (action.act m).runtime :=
  (action.lawful m).steps _ (List.mem_of_getLast? (action.lawful m).last)

theorem steps_of_mem_history {m : Machine} {actions : List RuntimeAction} {rt : Runtime}
    (h : rt ∈ m.history actions) : m.runtime.Steps rt := by
  induction actions generalizing m with
  | nil =>
    rw [history, List.mem_singleton] at h
    rw [h]
  | cons action rest ih =>
    rw [history, List.mem_cons, List.mem_append] at h
    rcases h with rfl | h | h
    · exact .refl
    · exact (action.lawful m).steps rt h
    · exact (m.steps_act action).trans (ih h)

theorem steps_last_of_mem_passes {m : Machine} {action : RuntimeAction} {rt : Runtime}
    (h : rt ∈ action.passes m) : rt.Steps (action.act m).runtime := by
  obtain ⟨before, hbefore⟩ := List.getLast?_eq_some_iff.mp (action.lawful m).last
  have hordered := (action.lawful m).ordered
  rw [hbefore, List.mem_append, List.mem_singleton] at h
  rw [hbefore, List.pairwise_append] at hordered
  rcases h with h | rfl
  · exact hordered.2.2 rt h _ (List.mem_singleton_self _)
  · exact .refl

theorem pairwise_history (m : Machine) (actions : List RuntimeAction) :
    (m.history actions).Pairwise Runtime.Steps := by
  induction actions generalizing m with
  | nil => exact List.pairwise_singleton _ _
  | cons action rest ih =>
    rw [history, List.pairwise_cons, List.pairwise_append]
    -- Whatever comes later is reached through the runtime that the first operation leaves.
    refine ⟨?_, (action.lawful m).ordered, ih (action.act m), ?_⟩
    · intro rt h
      rcases List.mem_append.mp h with h | h
      · exact (action.lawful m).steps rt h
      · exact (m.steps_act action).trans (steps_of_mem_history h)
    · intro rt h rt' h'
      exact (steps_last_of_mem_passes h).trans (steps_of_mem_history h')

/-! ### Decoration in a run -/

/-- An operation that decorates the runtime finds it undecorated and leaves it decorated. -/
theorem decoratedBy_of_decoration {m : Machine} {action : RuntimeAction}
    (h : action.decoration? m = some (.value ())) :
    m.runtime.context.decoratedBy = none ∧
      ∃ renderer, (action.act m).runtime.context.decoratedBy = some renderer := by
  cases action with
  | decorate renderer common =>
    have hlaw := m.decoration_lawful renderer common
    have hok : (m.decorate renderer common).1 = .value () := Option.some.inj h
    exact ⟨(hlaw.ok_iff.mp hok).2.1, renderer.name, hlaw.noted hok⟩
  | _ => cases h

/-- A decorated runtime is not decorated again. -/
theorem count_decorations_of_decorated {m : Machine} {renderer : String}
    (h : m.runtime.context.decoratedBy = some renderer) (actions : List RuntimeAction) :
    (m.decorations actions).count (.value ()) = 0 := by
  induction actions generalizing m with
  | nil => rfl
  | cons action rest ih =>
    have hrest := ih ((m.steps_act action).evolves.decoratedBy renderer h)
    rw [decorations, List.count_append, hrest, Nat.add_zero, List.count_eq_zero]
    intro hmem
    obtain ⟨hnone, _⟩ := decoratedBy_of_decoration (Option.mem_toList.mp hmem)
    rw [h] at hnone
    cases hnone

theorem count_decorations_le_one (m : Machine) (actions : List RuntimeAction) :
    (m.decorations actions).count (.value ()) ≤ 1 := by
  induction actions generalizing m with
  | nil => exact Nat.zero_le 1
  | cons action rest ih =>
    rw [decorations, List.count_append]
    by_cases hdec : action.decoration? m = some (.value ())
    · -- The first success leaves nothing for the rest of the run.
      obtain ⟨_, renderer, hrenderer⟩ := decoratedBy_of_decoration hdec
      rw [hdec, count_decorations_of_decorated hrenderer rest]
      exact Nat.le_refl 1
    · have hzero : (action.decoration? m).toList.count (.value ()) = 0 :=
        List.count_eq_zero.mpr fun hmem => hdec (Option.mem_toList.mp hmem)
      rw [hzero, Nat.zero_add]
      exact ih (action.act m)

/-- **The life of a runtime.** In every run of operations that starts with a fresh runtime,
* every state of the runtime, also in the middle of calls, has the identity and the kind that the
  runtime was made with, distinct names of globals, and is decorated only if it is a UI runtime;
* names of globals only grow at the end from state to state, and decoration stays what it is;
* only decoration changes the context; it succeeds at most once, and where it does is told by the
  context alone. -/
theorem lifecycle_invariant (id : RuntimeId) (kind : RuntimeKind) (env : Environment)
    (actions : List RuntimeAction) :
    let fresh : Machine := { runtime := .new id kind, env }
    let reached := fresh.afterActions actions
    (fresh.history actions).getLast? = some reached.runtime ∧
    (∀ rt ∈ fresh.history actions, rt.context.id = id ∧ rt.context.kind = kind ∧ rt.Sound) ∧
    (fresh.history actions).Pairwise Runtime.Evolves ∧
    (∀ action : RuntimeAction, action.decoration? reached = none →
      ∀ rt ∈ action.passes reached, rt.context = reached.runtime.context) ∧
    (fresh.decorations actions).count (.value ()) ≤ 1 ∧
    ∀ renderer common, reached.DecorationLaw renderer common := by
  intro fresh reached
  refine ⟨fresh.getLast?_history actions, ?states, ?order, ?context,
    fresh.count_decorations_le_one actions, reached.decoration_lawful⟩
  case states =>
    intro rt hrt
    have hsteps : fresh.runtime.Steps rt := steps_of_mem_history hrt
    exact ⟨hsteps.evolves.id_eq, hsteps.evolves.kind_eq, hsteps.sound (Runtime.sound_new id kind)⟩
  case order => exact (fresh.pairwise_history actions).imp Runtime.Steps.evolves
  case context => exact fun action => (action.lawful reached).context

end Machine

end ScriptBridge
