import ScriptBridge.Proofs.HostCalls

/-!
# The store of the recording host

A recording host keeps a log of its operations and the properties of its views. Both are told by the
history of what was done: the log holds every operation, and a property has the value that the
latest update gave it, unless the view was forgotten since.

* `HostAction` — what can be done around a host.
* `Holds` — the value that a property has by a history alone.
* `Recorded` — the invariant: how the state of a host reflects the history. Every single action
  keeps it (`Recorded.concat`).
* `host_store_law` — what every operation answers after any history.
-/

namespace ScriptBridge

/-! ## Actions -/

/-- What can be done around a recording host. -/
inductive HostAction where
  /-- An operation that the host receives. -/
  | operation (call : HostCall)
  /-- A request for a callback, which the frame queue serves. -/
  | requestFrame (callback : Value)
  /-- A question for the last timestamp, which the frame queue serves. -/
  | frameTimestamp
  /-- A view is detached. -/
  | detach (view : ViewAddress)

namespace HostAction

/-- What an action gives. -/
abbrev Answer : HostAction → Type
  | operation call => call.Answer
  | requestFrame _ => Unit
  | frameTimestamp => Binary64
  | detach _ => Unit

/-- Carry out an action. Operations are those of the host's tables. -/
def run : (action : HostAction) → Machine.Run FailureChain action.Answer
  | operation call => call.native.run
  | requestFrame callback => (RecordingHost.commonOperations.requestAnimationFrame callback).run
  | frameTimestamp => RecordingHost.commonOperations.getAnimationTimestamp.run
  | detach view => fun m =>
    (.value (), { m with env := { m.env with host := m.env.host.detach view } })

/-- The operation that the host receives, if the action is one. -/
def call? : HostAction → Option HostCall
  | operation call => some call
  | _ => none

/-- After these actions, the action succeeds in setting the property of the view to the value. -/
def Sets (past : List HostAction) (view : ViewAddress) (name : String) (v : Value) :
    HostAction → Prop
  | operation call =>
    ∃ props, call.Updates view props ∧ .detach view ∉ past ∧ props.latest? name = some v
  | _ => False

/-- The action makes the host forget the properties of the view. -/
def Removes (view : ViewAddress) : HostAction → Prop
  | operation call => call.Removes view
  | _ => False

end HostAction

/-! ## Histories -/

/-- What a property says of an action and the actions before it holds at a position of a history. -/
def At (P : List HostAction → HostAction → Prop) (history : List HostAction) (i : Nat) : Prop :=
  ∃ action, history[i]? = some action ∧ P (history.take i) action

/-- By this history the property of the view has the value: the latest successful update that
mentions the property gave it this value, and the view was not forgotten since. -/
def Holds (history : List HostAction) (view : ViewAddress) (name : String) (v : Value) : Prop :=
  ∃ i, At (HostAction.Sets · view name v ·) history i ∧ ∀ j, i < j →
    (∀ w, ¬ At (HostAction.Sets · view name w ·) history j) ∧
      ¬ At (fun _ action => action.Removes view) history j

/-- What a property of a view reads as by this history. -/
def ReadsAs (history : List HostAction) (view : ViewAddress) (name : String) (v : Value) : Prop :=
  Holds history view name v ∨ v = .undefined ∧ ∀ w, ¬ Holds history view name w

variable {history : List HostAction} {view : ViewAddress} {name : String} {v w : Value}

theorem At.lt_length {P : List HostAction → HostAction → Prop} {i : Nat} (h : At P history i) :
    i < history.length := by
  obtain ⟨action, haction, _⟩ := h
  exact (List.getElem?_eq_some_iff.mp haction).1

theorem at_concat {P : List HostAction → HostAction → Prop} {action : HostAction} {i : Nat} :
    At P (history ++ [action]) i ↔ At P history i ∨ i = history.length ∧ P history action := by
  constructor
  · rintro ⟨action', haction, hP⟩
    have hlt := (List.getElem?_eq_some_iff.mp haction).1
    rw [List.length_append, List.length_singleton] at hlt
    rcases Nat.lt_succ_iff_lt_or_eq.mp hlt with hlt | rfl
    · rw [List.getElem?_append_left hlt] at haction
      rw [List.take_append_of_le_length (Nat.le_of_lt hlt)] at hP
      exact Or.inl ⟨action', haction, hP⟩
    · rw [List.getElem?_concat_length] at haction
      rw [List.take_left' rfl] at hP
      rw [Option.some.inj haction]
      exact Or.inr ⟨rfl, hP⟩
  · rintro (h | ⟨rfl, hP⟩)
    · have hlt := h.lt_length
      obtain ⟨action', haction, hP⟩ := h
      refine ⟨action', ?_, ?_⟩
      · rw [List.getElem?_append_left hlt, haction]
      · rw [List.take_append_of_le_length (Nat.le_of_lt hlt)]
        exact hP
    · refine ⟨action, List.getElem?_concat_length, ?_⟩
      rw [List.take_left' rfl]
      exact hP

/-- The last action decides, unless it neither sets the property nor makes the host forget it. -/
theorem holds_concat {action : HostAction} :
    Holds (history ++ [action]) view name v ↔
      action.Sets history view name v ∨
        Holds history view name v ∧ (∀ w, ¬ action.Sets history view name w) ∧
          ¬ action.Removes view := by
  constructor
  · rintro ⟨i, hset, hlater⟩
    rcases at_concat.mp hset with hset | ⟨_, hset⟩
    · have hi := hset.lt_length
      refine Or.inr ⟨⟨i, hset, fun j hj => ?_⟩, ?_, ?_⟩
      · obtain ⟨hsets, hremoves⟩ := hlater j hj
        exact ⟨fun w h => hsets w (at_concat.mpr (Or.inl h)),
          fun h => hremoves (at_concat.mpr (Or.inl h))⟩
      · exact fun w h => (hlater _ hi).1 w (at_concat.mpr (Or.inr ⟨rfl, h⟩))
      · exact fun h => (hlater _ hi).2 (at_concat.mpr (Or.inr ⟨rfl, h⟩))
    · exact Or.inl hset
  · rintro (hset | ⟨⟨i, hset, hlater⟩, hsets, hremoves⟩)
    · -- Nothing comes after the last position.
      refine ⟨history.length, at_concat.mpr (Or.inr ⟨rfl, hset⟩), fun j hj => ⟨?_, ?_⟩⟩
      · intro w h
        have hlt := h.lt_length
        rw [List.length_append, List.length_singleton] at hlt
        omega
      · intro h
        have hlt := h.lt_length
        rw [List.length_append, List.length_singleton] at hlt
        omega
    · refine ⟨i, at_concat.mpr (Or.inl hset), fun j hj => ⟨?_, ?_⟩⟩
      · intro w h
        rcases at_concat.mp h with h | ⟨_, h⟩
        · exact (hlater j hj).1 w h
        · exact hsets w h
      · intro h
        rcases at_concat.mp h with h | ⟨_, h⟩
        · exact (hlater j hj).2 h
        · exact hremoves h

theorem not_holds_nil : ¬ Holds [] view name v := by
  rintro ⟨i, hset, _⟩
  exact absurd hset.lt_length (Nat.not_lt_zero i)

/-! ## The invariant -/

/-- How the state of a host reflects the history. -/
structure Recorded (measurement : Geometry) (history : List HostAction) (host : RecordingHost) :
    Prop where
  measurement_eq : host.measurement = measurement
  calls_eq : host.calls = history.filterMap HostAction.call?
  mem_detached_iff : ∀ view, view ∈ host.detached ↔ .detach view ∈ history
  get?_propsOf_iff : ∀ view name v,
    (host.propsOf view).get? name = some v ↔ Holds history view name v

namespace RecordingHost

theorem mem_detached_detach (host : RecordingHost) (detached view : ViewAddress) :
    view ∈ (host.detach detached).detached ↔ view = detached ∨ view ∈ host.detached := by
  unfold detach
  split
  · next h =>
    refine ⟨Or.inr, ?_⟩
    rintro (rfl | hmem)
    · exact h
    · exact hmem
  · rw [List.mem_append, List.mem_singleton, or_comm]

/-- Detaching a view leaves everything else as it is. -/
theorem detach_eq (host : RecordingHost) (view : ViewAddress) :
    host.detach view = { host with detached := (host.detach view).detached } := by
  unfold detach
  split <;> rfl

end RecordingHost

variable {measurement : Geometry} {host : RecordingHost} {m : Machine}

theorem recorded_new (measurement : Geometry) : Recorded measurement [] (.new measurement) where
  measurement_eq := rfl
  calls_eq := rfl
  mem_detached_iff _ := ⟨nofun, nofun⟩
  get?_propsOf_iff _ _ _ := ⟨nofun, fun h => absurd h not_holds_nil⟩

/-- An action that is no operation of the host sets nothing, and the host forgets nothing. -/
theorem holds_concat_of_call?_eq_none {action : HostAction} (h : action.call? = none) :
    Holds (history ++ [action]) view name v ↔ Holds history view name v := by
  rw [holds_concat]
  cases action with
  | operation call => cases h
  | requestFrame | frameTimestamp | detach => simp [HostAction.Sets, HostAction.Removes]

namespace Recorded

/-- Which properties a view has after one more operation. Either the operation is a removal, or it
is a successful update, or it does not touch the properties of the view. -/
theorem get?_propsOf_perform_iff (h : Recorded measurement history host) (call : HostCall)
    (view : ViewAddress) (name : String) (v : Value) :
    ((host.perform call).2.propsOf view).get? name = some v ↔
      Holds (history ++ [.operation call]) view name v := by
  rw [holds_concat, ← h.get?_propsOf_iff]
  simp only [HostAction.Sets, HostAction.Removes, ← h.mem_detached_iff]
  by_cases hremoves : call.Removes view
  · have hupdates : ∀ props, ¬ call.Updates view props := by
      rintro props hupdates
      cases hremoves
      cases hupdates
    rw [RecordingHost.propsOf_perform_of_removes hremoves]
    simp [hupdates, hremoves]
  by_cases hupdate : ∃ props, call.Updates view props ∧ view ∉ host.detached
  · obtain ⟨props, hupdates, hattached⟩ := hupdate
    have hunique : ∀ props', call.Updates view props' ↔ props' = props := by
      intro props'
      refine ⟨fun hupdates' => ?_, fun heq => heq ▸ hupdates⟩
      cases hupdates <;> cases hupdates' <;> rfl
    rw [RecordingHost.get?_propsOf_perform_of_updates hupdates hattached]
    cases hlatest : props.latest? name <;> simp [hunique, hattached, hremoves, hlatest]
  · have hother : ∀ props, call.Updates view props → view ∈ host.detached :=
      fun props hupdates => Classical.not_not.mp fun hattached =>
        hupdate ⟨props, hupdates, hattached⟩
    have hsets : ∀ w props, ¬ (call.Updates view props ∧ view ∉ host.detached ∧
        props.latest? name = some w) :=
      fun w props hsets => hsets.2.1 (hother props hsets.1)
    rw [RecordingHost.propsOf_perform_of_other hremoves hother]
    simp [hsets, hremoves]

/-- An operation that the host receives. -/
theorem operation (h : Recorded measurement history host) (call : HostCall) :
    Recorded measurement (history ++ [.operation call]) (host.perform call).2 where
  measurement_eq := (host.measurement_perform call).trans h.measurement_eq
  calls_eq := by
    rw [RecordingHost.calls_perform, h.calls_eq, List.filterMap_append]
    rfl
  mem_detached_iff view := by
    rw [RecordingHost.detached_perform, h.mem_detached_iff]
    simp
  get?_propsOf_iff := h.get?_propsOf_perform_iff call

theorem detach (h : Recorded measurement history host) (detached : ViewAddress) :
    Recorded measurement (history ++ [.detach detached]) (host.detach detached) := by
  have hmem := host.mem_detached_detach detached
  rw [host.detach_eq]
  refine ⟨h.measurement_eq, ?_, ?_, ?_⟩
  · rw [List.filterMap_append]
    exact h.calls_eq.trans (List.append_nil _).symm
  · intro view
    show view ∈ (host.detach detached).detached ↔ _
    rw [hmem, h.mem_detached_iff]
    simp [or_comm]
  · intro view name v
    rw [holds_concat_of_call?_eq_none rfl]
    exact h.get?_propsOf_iff view name v

/-- What the frame queue serves does not concern the host. -/
theorem elsewhere (h : Recorded measurement history host) {action : HostAction}
    (hcall : action.call? = none) (hdetach : ∀ view, .detach view ≠ action) :
    Recorded measurement (history ++ [action]) host where
  measurement_eq := h.measurement_eq
  calls_eq := by simp [h.calls_eq, hcall]
  mem_detached_iff view := by simp [h.mem_detached_iff, hdetach]
  get?_propsOf_iff view name v := by
    rw [holds_concat_of_call?_eq_none hcall]
    exact h.get?_propsOf_iff view name v

/-- **Every action keeps the invariant**, whether it succeeds or fails. -/
theorem concat (h : Recorded measurement history m.env.host) (action : HostAction) :
    Recorded measurement (history ++ [action]) (action.run m).2.env.host := by
  cases action with
  | operation call =>
    show Recorded measurement _ (call.native.run m).2.env.host
    rw [Script.run, HostCall.runWith_native]
    exact h.operation call
  | requestFrame callback =>
    have hsame : ((HostAction.requestFrame callback).run m).2.env.host = m.env.host := by
      cases callback <;> rfl
    rw [hsame]
    exact h.elsewhere rfl nofun
  | frameTimestamp => exact h.elsewhere rfl nofun
  | detach view => exact h.detach view

/-- A property is read as the history tells. -/
theorem readsAs_prop (h : Recorded measurement history host) (view : ViewAddress) (name : String) :
    ReadsAs history view name (host.prop view name) := by
  rw [RecordingHost.prop]
  cases hget : (host.propsOf view).get? name with
  | some v => exact Or.inl ((h.get?_propsOf_iff view name v).mp hget)
  | none =>
    refine Or.inr ⟨rfl, fun w hholds => ?_⟩
    rw [(h.get?_propsOf_iff view name w).mpr hholds] at hget
    cases hget

end Recorded

/-! ## The law -/

namespace Machine

/-- The machine after some actions. -/
def afterHostActions (m : Machine) (actions : List HostAction) : Machine :=
  actions.foldl (fun m action => (action.run m).2) m

theorem recorded_afterHostActions (h : Recorded measurement history m.env.host)
    (actions : List HostAction) :
    Recorded measurement (history ++ actions) (m.afterHostActions actions).env.host := by
  induction actions generalizing history m with
  | nil =>
    rw [List.append_nil]
    exact h
  | cons action rest ih =>
    rw [List.append_cons]
    exact ih (h.concat action)

/-- An operation on a view that was detached fails. It is recorded, and nothing else happens. -/
theorem run_native_of_detached (h : Recorded measurement history m.env.host) {call : HostCall}
    (haddresses : call.Addresses view) (hdetached : .detach view ∈ history) :
    call.native.run m =
      (.error (.ofRoot (view.text ++ " is detached")),
        { m with env := { m.env with host := m.env.host.recorded call } }) := by
  have hmem := (h.mem_detached_iff view).mpr hdetached
  rw [Script.run, HostCall.runWith_native, effect,
    RecordingHost.perform_of_detached haddresses hmem]
  rfl

/-- Any other operation succeeds, and the answer is that of the host. -/
theorem run_native_of_attached (h : Recorded measurement history m.env.host) {call : HostCall}
    (hattached : ∀ view, call.Addresses view → .detach view ∉ history) :
    (call.native.run m).1 =
      .value (call.answer ((m.env.host.recorded call).carryOut call).1) := by
  have hmem : ∀ view, call.Addresses view → view ∉ m.env.host.detached :=
    fun view haddresses => mt (h.mem_detached_iff view).mp (hattached view haddresses)
  rw [Script.run, HostCall.runWith_native, RecordingHost.perform_of_attached hmem]
  rfl

/-- An operation on an attached view succeeds. -/
theorem run_native_of_addresses (h : Recorded measurement history m.env.host) {call : HostCall}
    (haddresses : call.Addresses view) (hattached : .detach view ∉ history) :
    (call.native.run m).1 =
      .value (call.answer ((m.env.host.recorded call).carryOut call).1) := by
  refine run_native_of_attached h fun view' haddresses' => ?_
  rwa [← haddresses.unique haddresses']

/--
**The law of the store.** After any history of a fresh host,
* the log holds exactly the operations of the history, in order, those that failed included;
* an operation on a view that was detached fails with a text that names the view, and only the log
  changes; every other operation succeeds, so those that need no view always do;
* a property of an attached view reads as the latest update that mentions it left it, unless the
  view was forgotten since, and otherwise as `undefined`;
* an attached view measures as the frame that the host was made with.
-/
theorem host_store_law (runtime : Runtime) (env : Environment) (measurement : Geometry)
    (history : List HostAction) :
    let fresh : Machine := { runtime, env := { env with host := .new measurement } }
    let reached := fresh.afterHostActions history
    let pairs := [("x", measurement.x), ("y", measurement.y), ("width", measurement.width),
      ("height", measurement.height), ("pageX", measurement.x), ("pageY", measurement.y)]
    reached.env.host.calls = history.filterMap HostAction.call? ∧
    (∀ (call : HostCall) view, call.Addresses view → .detach view ∈ history →
      call.native.run reached =
        (.error (.ofRoot (view.text ++ " is detached")),
          { reached with
            env := { reached.env with
              host := { reached.env.host with calls := reached.env.host.calls ++ [call] } } })) ∧
    (∀ call : HostCall, (∀ view, call.Addresses view → .detach view ∉ history) →
      ∃ answer, (call.native.run reached).1 = .value answer) ∧
    ((∀ node, ((HostCall.removeFromPropsRegistry node).native.run reached).1 = .value ()) ∧
      (∀ tag isCancelled removeView,
        ((HostCall.notifyEnd tag isCancelled removeView).native.run reached).1 = .value ()) ∧
      (∀ handler state,
        ((HostCall.setGestureState handler state).native.run reached).1 = .value ()) ∧
      (HostCall.flushUiUpdates.native.run reached).1 = .value ()) ∧
    (∀ node, .detach (.node node) ∉ history →
      (∀ name, ∃ v, ((HostCall.obtainNodeProp node name).native.run reached).1 = .value v ∧
        ReadsAs history (.node node) name v) ∧
      ((HostCall.measureNode node).native.run reached).1 =
        .value ⟨pairs.map fun pair => (pair.1, .number pair.2)⟩) ∧
    (∀ tag, .detach (.tag tag) ∉ history →
      (∀ name, ∃ v, ((HostCall.obtainViewProp tag name).native.run reached).1 = .value v ∧
        ReadsAs history (.tag tag) name v) ∧
      ((HostCall.measureView tag).native.run reached).1 = .value pairs) ∧
    ∀ props : Object, props.keys.Nodup → ∀ name, props.latest? name = props.get? name := by
  intro fresh reached pairs
  have h : Recorded measurement history reached.env.host :=
    recorded_afterHostActions (m := fresh) (recorded_new measurement) history
  have hpairs : reached.env.host.measuredNumbers = pairs := by
    rw [RecordingHost.measuredNumbers, h.measurement_eq]
  refine ⟨h.calls_eq, fun call view haddresses hdetached => run_native_of_detached h haddresses
    hdetached, fun call hattached => ⟨_, run_native_of_attached h hattached⟩, ?always, ?nodes,
    ?views, fun props hprops => OrderedMap.latest?_eq_get? hprops⟩
  case always =>
    refine ⟨fun node => run_native_of_attached h ?_, fun tag isCancelled removeView =>
      run_native_of_attached h ?_, fun handler state => run_native_of_attached h ?_,
      run_native_of_attached h ?_⟩
    all_goals
      intro view haddresses
      cases haddresses
  case nodes =>
    intro node hattached
    refine ⟨fun name => ⟨reached.env.host.prop (.node node) name,
      run_native_of_addresses h (.obtainNodeProp node name) hattached, h.readsAs_prop _ name⟩, ?_⟩
    have hmeasured : ((HostCall.measureNode node).native.run reached).1 =
        .value (measurementObject reached.env.host.measuredNumbers) :=
      run_native_of_addresses h (.measureNode node) hattached
    rw [hmeasured, hpairs, measurementObject, OrderedMap.ofList_of_nodup (by simp [pairs])]
  case views =>
    intro tag hattached
    refine ⟨fun name => ⟨reached.env.host.prop (.tag tag) name,
      run_native_of_addresses h (.obtainViewProp tag name) hattached, h.readsAs_prop _ name⟩, ?_⟩
    rw [← hpairs]
    exact run_native_of_addresses h (.measureView tag) hattached

end Machine

end ScriptBridge
