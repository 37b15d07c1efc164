import Mathlib.Data.List.Induction
import ScriptBridge.Proofs.RegistryStart

/-!
# The registry of animations after any history

Application code configures animations and clears the configurations of views, script changes the
runtime, and animations start in between. The history alone tells what is configured, and the
globals at the time of a start tell what it does.

* `RegistryAction` — what can happen around a registry.
* `Stands` — what was done and was not undone since. The last action decides (`stands_concat`).
* `Reflects` — how a registry reflects the history. Every single action keeps it
  (`Reflects.concat`).
* `Resolves` — what a scope offers as the entry point of script.
* `registry_law` — what is configured after any history, and what a start does then.
-/

namespace ScriptBridge

/-! ## Actions -/

/-- What can happen around a registry. -/
inductive RegistryAction where
  | configure (tag : ViewTag) (kind : AnimationKind) (config : Value)
  | clear (tag : ViewTag)
  | start (tag : ViewTag) (kind : AnimationKind) (values : Object)
  /-- Anything that happens to the runtime in between. -/
  | elsewhere (change : Machine → Machine)

namespace RegistryAction

/-- Carry out an action. A start that halts gives no next registry, the one before stays. -/
def run : RegistryAction → AnimationRegistry × Machine → AnimationRegistry × Machine
  | configure tag kind config, (r, m) => (r.configure tag kind config, m)
  | clear tag, (r, m) => (r.clear tag, m)
  | start tag kind values, (r, m) =>
    match (AnimationRegistry.manager.start r tag kind values).run m with
    | (.value (_, r'), m') => (r', m')
    | (_, m') => (r, m')
  | elsewhere change, (r, m) => (r, change m)

/-- Carry out a history, beginning with an empty registry. -/
def runAll (history : List RegistryAction) (m : Machine) : AnimationRegistry × Machine :=
  history.foldl (fun state action => action.run state) ({}, m)

/-- The action configures the kind of animation for the view. -/
def Configures (tag : ViewTag) (kind : AnimationKind) (action : RegistryAction) : Prop :=
  ∃ config, action = configure tag kind config

/-- The action replaces or clears the configuration. -/
def Replaces (tag : ViewTag) (kind : AnimationKind) (action : RegistryAction) : Prop :=
  action = clear tag ∨ action.Configures tag kind

variable {tag tag' : ViewTag} {kind kind' : AnimationKind} {config : Value}

theorem configures_configure_iff :
    (configure tag' kind' config).Configures tag kind ↔ (tag, kind) = (tag', kind') := by
  simp [Configures, eq_comm]

theorem replaces_configure_iff :
    (configure tag' kind' config).Replaces tag kind ↔ (tag, kind) = (tag', kind') := by
  simp [Replaces, configures_configure_iff]

theorem replaces_clear_iff : (clear tag').Replaces tag kind ↔ tag = tag' := by
  simp [Replaces, Configures, eq_comm]

theorem not_replaces_start (values : Object) : ¬ (start tag' kind' values).Replaces tag kind := by
  simp [Replaces, Configures]

theorem not_replaces_elsewhere (change : Machine → Machine) :
    ¬ (elsewhere change).Replaces tag kind := by
  simp [Replaces, Configures]

end RegistryAction

/-! ## What stands -/

/-- An action of the history does it, and none after that action undoes it. -/
def Stands (does undoes : RegistryAction → Prop) (history : List RegistryAction) : Prop :=
  ∃ before action rest, history = before ++ action :: rest ∧ does action ∧
    ∀ later ∈ rest, ¬ undoes later

variable {does undoes : RegistryAction → Prop} {history : List RegistryAction}
  {action : RegistryAction}

theorem not_stands_nil : ¬ Stands does undoes [] := by
  rintro ⟨before, action, rest, hsplit, _⟩
  exact List.append_ne_nil_of_right_ne_nil before (List.cons_ne_nil action rest) hsplit.symm

/-- The last action decides, unless it neither does it nor undoes it. -/
theorem stands_concat :
    Stands does undoes (history ++ [action]) ↔
      does action ∨ Stands does undoes history ∧ ¬ undoes action := by
  constructor
  · rintro ⟨before, first, rest, hsplit, hdoes, hlater⟩
    rcases List.eq_nil_or_concat rest with rfl | ⟨rest, last, rfl⟩
    · obtain ⟨_, hlast⟩ := List.append_inj' hsplit rfl
      rw [List.singleton_inj.mp hlast]
      exact Or.inl hdoes
    · rw [List.concat_eq_append, ← List.cons_append, ← List.append_assoc] at hsplit
      obtain ⟨hhistory, hlast⟩ := List.append_inj' hsplit rfl
      rw [List.concat_eq_append] at hlater
      rw [List.singleton_inj.mp hlast]
      refine Or.inr ⟨⟨before, first, rest, hhistory, hdoes, fun later hmem => ?_⟩, ?_⟩
      · exact hlater later (List.mem_append_left [last] hmem)
      · exact hlater last (List.mem_append_right rest (List.mem_singleton_self last))
  · rintro (hdoes | ⟨⟨before, first, rest, rfl, hdoes, hlater⟩, hundoes⟩)
    · exact ⟨history, action, [], rfl, hdoes, fun _ hmem => absurd hmem List.not_mem_nil⟩
    · refine ⟨before, first, rest ++ [action], ?_, hdoes, fun later hmem => ?_⟩
      · rw [List.append_assoc, List.cons_append]
      · rcases List.mem_append.mp hmem with hmem | hmem
        · exact hlater later hmem
        · rw [List.mem_singleton.mp hmem]
          exact hundoes

/-! ## Resolving the entry point -/

/-- What a scope offers as the entry point of script: a function, or the reason why there is
none. -/
inductive Resolves (scope : Object) : Except Exception Function → Prop
  | missing (hmanager : scope.get? "LayoutAnimationsManager" = none) :
      Resolves scope (.error (.reference "LayoutAnimationsManager"))
  | notAnObject {manager : Value} (hmanager : scope.get? "LayoutAnimationsManager" = some manager)
      (hobject : ∀ properties, manager ≠ .object properties) :
      Resolves scope (.error (.type "LayoutAnimationsManager.start is not a function"))
  | withoutStart {manager : Object}
      (hmanager : scope.get? "LayoutAnimationsManager" = some (.object manager))
      (hstart : manager.get? "start" = none) :
      Resolves scope (.error (.type "LayoutAnimationsManager.start is not a function"))
  | notAFunction {manager : Object} {start : Value}
      (hmanager : scope.get? "LayoutAnimationsManager" = some (.object manager))
      (hstart : manager.get? "start" = some start) (hfunction : ∀ f, start ≠ .function f) :
      Resolves scope (.error (.type (start.typeName ++ " is not a function")))
  | found {manager : Object} {f : Function}
      (hmanager : scope.get? "LayoutAnimationsManager" = some (.object manager))
      (hstart : manager.get? "start" = some (.function f)) :
      Resolves scope (.ok f)

namespace AnimationRegistry

variable {r : AnimationRegistry} {tag : ViewTag} {kind : AnimationKind} {config : Value}
  {scope : Object} {m : Machine}

theorem exists_resolves (scope : Object) : ∃ entry, Resolves scope entry := by
  cases hmanager : scope.get? "LayoutAnimationsManager" with
  | none => exact ⟨_, .missing hmanager⟩
  | some manager =>
    by_cases hobject : ∃ properties, manager = .object properties
    · obtain ⟨properties, rfl⟩ := hobject
      cases hstart : properties.get? "start" with
      | none => exact ⟨_, .withoutStart hmanager hstart⟩
      | some start =>
        by_cases hfunction : ∃ f, start = .function f
        · obtain ⟨f, rfl⟩ := hfunction
          exact ⟨_, .found hmanager hstart⟩
        · exact ⟨_, .notAFunction hmanager hstart fun f h => hfunction ⟨f, h⟩⟩
    · exact ⟨_, .notAnObject hmanager fun properties h => hobject ⟨properties, h⟩⟩

theorem entryPoint_of_get? {manager : Value}
    (h : scope.get? "LayoutAnimationsManager" = some manager) :
    entryPoint scope = match manager.object?.bind (·.get? "start") with
      | none => .error (.type "LayoutAnimationsManager.start is not a function")
      | some start => .ok start := by
  rw [entryPoint, managerGlobal, h]
  rfl

theorem entryPoint_of_found {f : Function} (h : Resolves scope (.ok f)) :
    entryPoint scope = .ok (.function f) := by
  cases h with
  | @found properties _ hmanager hstart =>
    have hsome : (Value.object properties).object?.bind (·.get? "start") = some (.function f) :=
      hstart
    rw [entryPoint_of_get? hmanager, hsome]

/-- Without an entry point that can be called, the script throws and calls nothing. -/
theorem callEntryPoint_of_error {e : Exception} (h : Resolves scope (.error e))
    (args : List Value) : callEntryPoint scope args = .error e := by
  rw [callEntryPoint]
  cases h with
  | missing hmanager =>
    rw [entryPoint, managerGlobal, hmanager]
    rfl
  | @notAnObject manager hmanager hobject =>
    have hnone : manager.object? = none := by
      cases manager with
      | object properties => exact absurd rfl (hobject properties)
      | _ => rfl
    rw [entryPoint_of_get? hmanager, hnone]
    rfl
  | @withoutStart properties hmanager hstart =>
    have hnone : (Value.object properties).object?.bind (·.get? "start") = none := hstart
    rw [entryPoint_of_get? hmanager, hnone]
    rfl
  | @notAFunction properties start hmanager hstart hfunction =>
    have hsome : (Value.object properties).object?.bind (·.get? "start") = some start := hstart
    rw [entryPoint_of_get? hmanager, hsome]
    show Script.callFunction start args >>= _ = _
    cases start with
    | function f => exact absurd rfl (hfunction f)
    | _ => rfl

theorem run_start_of_error {e : Exception} (hconfig : r.config? tag kind = some config)
    (h : Resolves m.runtime.global (.error e)) (values : Object) :
    (manager.start r tag kind values).run m = (.value (.error e, r), m) := by
  have hstart : (r.start tag kind values).run m = (.error e, m) := by
    rw [run_start_of_some hconfig, callEntryPoint_of_error h]
    rfl
  rw [run_manager, hstart]
  rfl

theorem trace_start_of_error {e : Exception} (hconfig : r.config? tag kind = some config)
    (h : Resolves m.runtime.global (.error e)) (values : Object) :
    (manager.start r tag kind values).trace m = [.plain .scope] := by
  rw [trace_manager, trace_start_of_some hconfig, callEntryPoint_of_error h]
  rfl

/-! ## Single actions -/

theorem config?_configure (r : AnimationRegistry) (tag tag' : ViewTag)
    (kind kind' : AnimationKind) (config : Value) :
    (r.configure tag kind config).config? tag' kind' =
      if (tag', kind') = (tag, kind) then some config else r.config? tag' kind' :=
  OrderedMap.get?_insert r.configs (tag, kind) (tag', kind') config

theorem config?_clear (r : AnimationRegistry) (tag tag' : ViewTag) (kind : AnimationKind) :
    (r.clear tag).config? tag' kind = if tag' = tag then none else r.config? tag' kind := by
  have hget : (r.clear tag).config? tag' kind =
      if decide (tag' ≠ tag) then r.config? tag' kind else none :=
    OrderedMap.get?_filterKeys r.configs (fun key => decide (key.1 ≠ tag)) (tag', kind)
  rw [hget]
  by_cases htag : tag' = tag <;> simp [htag]

/-- Whatever script does, the registry that a start gives back is the one it had. -/
theorem registry_of_run_start {m' : Machine} {outcome : Except Exception Unit}
    {r' : AnimationRegistry} {values : Object}
    (h : (manager.start r tag kind values).run m = (.value (outcome, r'), m')) : r' = r := by
  rw [run_manager] at h
  have hreported := congrArg Prod.fst h
  cases hended : ((r.start tag kind values).run m).1 with
  | value | error =>
    rw [hended] at hreported
    injection hreported with hpair
    exact (congrArg Prod.snd hpair).symm
  | halted why =>
    rw [hended] at hreported
    nomatch hreported

end AnimationRegistry

theorem RegistryAction.registry_run_start (tag : ViewTag) (kind : AnimationKind) (values : Object)
    (state : AnimationRegistry × Machine) :
    ((RegistryAction.start tag kind values).run state).1 = state.1 := by
  obtain ⟨r, m⟩ := state
  rw [run]
  split
  · next h => exact AnimationRegistry.registry_of_run_start h
  · rfl

/-! ## The invariant -/

/-- How a registry reflects the history. -/
def Reflects (history : List RegistryAction) (r : AnimationRegistry) : Prop :=
  ∀ tag kind config, r.config? tag kind = some config ↔
    Stands (· = .configure tag kind config) (·.Replaces tag kind) history

theorem reflects_nil : Reflects [] {} :=
  fun _ _ _ => iff_of_false (Option.some_ne_none _).symm not_stands_nil

/-- Every single action keeps what the registry has to do with the history. -/
theorem Reflects.concat {state : AnimationRegistry × Machine} (h : Reflects history state.1)
    (action : RegistryAction) : Reflects (history ++ [action]) (action.run state).1 := by
  intro tag kind config
  obtain ⟨r, m⟩ := state
  have hbefore : r.config? tag kind = some config ↔ _ := h tag kind config
  cases action with
  | configure tag' kind' config' =>
    show (r.configure tag' kind' config').config? tag kind = some config ↔ _
    rw [AnimationRegistry.config?_configure, stands_concat, RegistryAction.replaces_configure_iff]
    by_cases hkey : (tag, kind) = (tag', kind')
    · obtain ⟨rfl, rfl⟩ := Prod.mk.inj hkey
      simp
    · have hother : RegistryAction.configure tag' kind' config' ≠ .configure tag kind config :=
        fun heq => hkey (by cases heq; rfl)
      rw [if_neg hkey, or_iff_right hother, and_iff_left hkey]
      exact hbefore
  | clear tag' =>
    show (r.clear tag').config? tag kind = some config ↔ _
    rw [AnimationRegistry.config?_clear, stands_concat, RegistryAction.replaces_clear_iff,
      or_iff_right RegistryAction.noConfusion]
    by_cases htag : tag = tag'
    · rw [if_pos htag]
      exact iff_of_false (Option.some_ne_none _).symm fun h => h.2 htag
    · rw [if_neg htag, and_iff_left htag]
      exact hbefore
  | start tag' kind' values =>
    rw [RegistryAction.registry_run_start, stands_concat,
      or_iff_right RegistryAction.noConfusion,
      and_iff_left (RegistryAction.not_replaces_start values)]
    exact hbefore
  | elsewhere change =>
    rw [stands_concat, or_iff_right RegistryAction.noConfusion,
      and_iff_left (RegistryAction.not_replaces_elsewhere change)]
    exact hbefore

theorem RegistryAction.runAll_concat (history : List RegistryAction) (action : RegistryAction)
    (m : Machine) : runAll (history ++ [action]) m = action.run (runAll history m) :=
  List.foldl_append

theorem reflects_runAll (history : List RegistryAction) (m : Machine) :
    Reflects history (RegistryAction.runAll history m).1 := by
  induction history using List.reverseRecOn with
  | nil => exact reflects_nil
  | append_singleton history action ih =>
    rw [RegistryAction.runAll_concat]
    exact ih.concat action

/-- What was configured and not cleared since is the last configuration. -/
theorem stands_configures_iff {tag : ViewTag} {kind : AnimationKind} :
    Stands (·.Configures tag kind) (· = .clear tag) history ↔
      ∃ config, Stands (· = .configure tag kind config) (·.Replaces tag kind) history := by
  induction history using List.reverseRecOn with
  | nil => exact iff_of_false not_stands_nil fun ⟨_, h⟩ => not_stands_nil h
  | append_singleton history action ih =>
    simp only [stands_concat]
    by_cases hconfigures : action.Configures tag kind
    · obtain ⟨config, hconfig⟩ := hconfigures
      exact iff_of_true (Or.inl ⟨config, hconfig⟩) ⟨config, Or.inl hconfig⟩
    · have hdoes : ∀ config, action ≠ .configure tag kind config :=
        fun config hconfig => hconfigures ⟨config, hconfig⟩
      simp only [hconfigures, hdoes, false_or, RegistryAction.Replaces, or_false, ih,
        exists_and_right]

/-! ## The law -/

/--
**The registry and its starts.** Whatever happened around a registry that was empty, and on whatever
machine:
* A view has a configuration for a kind if and only if the last one was not cleared since.
* A start leaves the registry as it is. Without a configuration it does nothing at all.
* With one, the scope at that time decides. Without an entry point that is a function, the start
  throws; nothing is called and the machine stays as it is. A function is called once, with the
  view, the kind's code, the values and the latest configuration. The start ends as the call does.
-/
theorem registry_law (history : List RegistryAction) (m₀ : Machine) (tag : ViewTag)
    (kind : AnimationKind) (values : Object) :
    let r := (RegistryAction.runAll history m₀).1
    let m := (RegistryAction.runAll history m₀).2
    let s := AnimationRegistry.manager.start r tag kind values
    (r.has tag kind = true ↔ Stands (·.Configures tag kind) (· = .clear tag) history) ∧
      ((RegistryAction.start tag kind values).run (r, m)).1 = r ∧
      (¬ Stands (·.Configures tag kind) (· = .clear tag) history →
        s.run m = (.value (.ok (), r), m) ∧ s.trace m = []) ∧
      (∃ entry, Resolves m.runtime.global entry) ∧
      ∀ config, Stands (· = .configure tag kind config) (·.Replaces tag kind) history →
        (∀ e, Resolves m.runtime.global (.error e) →
          s.run m = (.value (.error e, r), m) ∧ s.trace m = [.plain .scope]) ∧
        ∀ f, Resolves m.runtime.global (.ok f) →
          let args := [.ofInt32 tag, .ofInt32 kind.code, .object values, config]
          let ended := Machine.invoke m.env.stackLimit f args m
          s.run m = (r.reported ended.1, ended.2) ∧
            s.trace m =
              [.plain .scope, .call f args (Machine.trace m.env.stackLimit f args m) ended.1] := by
  intro r m s
  have hreflects : Reflects history r := reflects_runAll history m₀
  have hhas : r.has tag kind = true ↔
      Stands (·.Configures tag kind) (· = .clear tag) history := by
    rw [stands_configures_iff]
    simp only [← hreflects tag kind]
    exact Option.isSome_iff_exists
  refine ⟨hhas, RegistryAction.registry_run_start tag kind values (r, m), ?unconfigured,
    AnimationRegistry.exists_resolves m.runtime.global, ?configured⟩
  case unconfigured =>
    intro hstands
    have hnone : r.config? tag kind = none := by
      rw [← hhas] at hstands
      exact Option.not_isSome_iff_eq_none.mp hstands
    refine ⟨?_, ?_⟩
    · rw [AnimationRegistry.run_manager, AnimationRegistry.start_of_none hnone]
      rfl
    · rw [AnimationRegistry.trace_manager, AnimationRegistry.start_of_none hnone]
      rfl
  case configured =>
    intro config hstands
    have hconfig : r.config? tag kind = some config := (hreflects tag kind config).mpr hstands
    refine ⟨fun e he => ⟨?_, ?_⟩, fun f hf => ⟨?_, ?_⟩⟩
    · exact AnimationRegistry.run_start_of_error hconfig he values
    · exact AnimationRegistry.trace_start_of_error hconfig he values
    · exact AnimationRegistry.run_start hconfig (AnimationRegistry.entryPoint_of_found hf) values
    · exact AnimationRegistry.trace_start hconfig (AnimationRegistry.entryPoint_of_found hf) values

end ScriptBridge
