import ScriptBridge.Host.Operations
import ScriptBridge.Proofs.OrderedMap
import ScriptBridge.Proofs.Trace

/-!
# Operations of the recording host

What an operation does, as the bridge gets it from the host.

* `HostCall.native` — the operations in the host's tables, one for each kind of call.
* `HostCall.runWith_native` — each of them performs its call once and does nothing else.
* `HostCall.Addresses`, `HostCall.Updates`, `HostCall.Removes` — which view an operation is about,
  and what it is to do to the properties.
* `RecordingHost.perform_of_detached`, `perform_of_attached` — an operation on a detached view is
  only recorded; any other succeeds.
* `RecordingHost.get?_propsOf_perform_of_updates`, `propsOf_perform_of_removes`,
  `propsOf_perform_of_other` — the properties of a view after an operation.
-/

namespace ScriptBridge

/-! ## Outcomes of native operations -/

namespace Outcome

variable {ε α : Type}

/-- A result or an error as the end of a run. -/
def ofExcept : Except ε α → Outcome ε α
  | .ok a => .value a
  | .error e => .error e

end Outcome

/-- Asking the host is performing the operation. -/
theorem Native.runWith_host (invoke : Function → List Value → Machine.Run Exception Value)
    (call : HostCall) (m : Machine) :
    (Native.host call).runWith invoke m =
      ((Outcome.ofExcept (m.env.host.perform call).1).mapError Detached.failure,
        m.effect (.host call)) := by
  show (Script.request (.host call) _).runWith invoke m = _
  rw [Script.runWith, Machine.reply]
  dsimp only
  cases (m.env.host.perform call).1 <;> rfl

/-! ## The tables of the host -/

namespace HostCall

/-- What an operation gives to the bridge. A measurement of a node is an object already. -/
abbrev Answer : HostCall → Type
  | measureNode _ => Object
  | measureView _ => List (String × Binary64)
  | obtainNodeProp _ _ => Value
  | obtainViewProp _ _ => Value
  | _ => Unit

/-- The answer of an operation, from the reply of the host. -/
def answer : (call : HostCall) → call.Reply → call.Answer
  | measureNode _ => measurementObject
  | measureView _ => id
  | obtainNodeProp _ _ => id
  | obtainViewProp _ _ => id
  | updateNodeProps _ _ => id
  | removeFromPropsRegistry _ => id
  | dispatchToNode _ _ _ => id
  | updateViewProps _ _ _ => id
  | dispatchToView _ _ _ => id
  | scrollTo _ _ _ _ => id
  | notifyProgress _ _ _ => id
  | notifyEnd _ _ _ => id
  | setGestureState _ _ => id
  | flushUiUpdates => id

open RecordingHost in
/-- The operation as it stands in the tables of the recording host. -/
def native : (call : HostCall) → Native call.Answer
  | updateNodeProps node props => nodeOperations.updateProps node props
  | removeFromPropsRegistry node => nodeOperations.removeFromPropsRegistry node
  | dispatchToNode node command args => nodeOperations.dispatchCommand node command args
  | measureNode node => nodeOperations.measure node
  | obtainNodeProp node name => nodeOperations.obtainProp node name
  | updateViewProps tag viewName props => tagOperations.updateProps tag viewName props
  | dispatchToView tag command args => tagOperations.dispatchCommand tag command args
  | scrollTo tag x y animated => tagOperations.scrollTo tag x y animated
  | measureView tag => tagOperations.measure tag
  | obtainViewProp tag name => tagOperations.obtainProp tag name
  | notifyProgress tag values isShared =>
    commonOperations.progressLayoutAnimation tag values isShared
  | notifyEnd tag isCancelled removeView =>
    commonOperations.endLayoutAnimation tag isCancelled removeView
  | setGestureState handler state => commonOperations.setGestureState handler state
  | flushUiUpdates => commonOperations.maybeFlushUiUpdatesQueue

/-- **An operation of the tables performs its call, once, and does nothing else.** -/
theorem runWith_native (invoke : Function → List Value → Machine.Run Exception Value)
    (call : HostCall) (m : Machine) :
    call.native.runWith invoke m =
      (((Outcome.ofExcept (m.env.host.perform call).1).mapError Detached.failure).map call.answer,
        m.effect (.host call)) := by
  have hhost := Native.runWith_host invoke call m
  cases call with
  | measureNode node =>
    show (Native.host (.measureNode node) >>= fun pairs =>
      Script.result (measurementObject pairs)).runWith invoke m = _
    rw [Script.runWith_bind, hhost]
    cases (m.env.host.perform (.measureNode node)).1 <;> rfl
  | _ =>
    refine hhost.trans ?_
    generalize (m.env.host.perform _).1 = performed
    cases performed <;> rfl

/-! ## What operations are about -/

/-- The operation is aimed at the view, which has to be attached. -/
inductive Addresses : HostCall → ViewAddress → Prop
  | updateNodeProps (node : NodeHandle) (props : Object) :
      Addresses (.updateNodeProps node props) (.node node)
  | dispatchToNode (node : NodeHandle) (command : String) (args : Value) :
      Addresses (.dispatchToNode node command args) (.node node)
  | measureNode (node : NodeHandle) : Addresses (.measureNode node) (.node node)
  | obtainNodeProp (node : NodeHandle) (name : String) :
      Addresses (.obtainNodeProp node name) (.node node)
  | updateViewProps (tag : ViewTag) (viewName : String) (props : Object) :
      Addresses (.updateViewProps tag viewName props) (.tag tag)
  | dispatchToView (tag : ViewTag) (command : String) (args : Value) :
      Addresses (.dispatchToView tag command args) (.tag tag)
  | scrollTo (tag : ViewTag) (x y : Binary64) (animated : Bool) :
      Addresses (.scrollTo tag x y animated) (.tag tag)
  | measureView (tag : ViewTag) : Addresses (.measureView tag) (.tag tag)
  | obtainViewProp (tag : ViewTag) (name : String) :
      Addresses (.obtainViewProp tag name) (.tag tag)
  | notifyProgress (tag : ViewTag) (values : Object) (isSharedTransition : Bool) :
      Addresses (.notifyProgress tag values isSharedTransition) (.tag tag)

/-- The operation is to set these properties of the view. -/
inductive Updates : HostCall → ViewAddress → Object → Prop
  | node (node : NodeHandle) (props : Object) :
      Updates (.updateNodeProps node props) (.node node) props
  | view (tag : ViewTag) (viewName : String) (props : Object) :
      Updates (.updateViewProps tag viewName props) (.tag tag) props

/-- The operation makes the host forget the properties of the view. Only nodes are forgotten. -/
inductive Removes : HostCall → ViewAddress → Prop
  | node (node : NodeHandle) : Removes (.removeFromPropsRegistry node) (.node node)

theorem target_eq_some_iff {call : HostCall} {view : ViewAddress} :
    call.target = some view ↔ call.Addresses view := by
  constructor
  · intro h
    cases call <;> cases h <;> constructor
  · intro h
    cases h <;> rfl

/-- An operation is aimed at one view. -/
theorem Addresses.unique {call : HostCall} {view view' : ViewAddress} (h : call.Addresses view)
    (h' : call.Addresses view') : view = view' := by
  cases h <;> cases h' <;> rfl

theorem Updates.addresses {call : HostCall} {view : ViewAddress} {props : Object}
    (h : call.Updates view props) : call.Addresses view := by
  cases h <;> constructor

end HostCall

/-! ## Performing an operation -/

namespace RecordingHost

variable {host : RecordingHost} {call : HostCall} {view : ViewAddress}

/-- The host with one more operation in its log. -/
def recorded (host : RecordingHost) (call : HostCall) : RecordingHost :=
  { host with calls := host.calls ++ [call] }

/-- An operation on a detached view fails and is recorded. Nothing else happens. -/
theorem perform_of_detached (haddresses : call.Addresses view) (hdetached : view ∈ host.detached) :
    host.perform call = (.error ⟨view⟩, host.recorded call) := by
  rw [perform, obstacle, HostCall.target_eq_some_iff.mpr haddresses]
  simp only [hdetached, if_true]
  rfl

/-- An operation that is not aimed at a detached view is recorded and carried out. -/
theorem perform_of_attached (h : ∀ view, call.Addresses view → view ∉ host.detached) :
    host.perform call =
      (.ok ((host.recorded call).carryOut call).1, ((host.recorded call).carryOut call).2) := by
  have hclear : host.obstacle call = none := by
    unfold obstacle
    cases htarget : call.target with
    | none => rfl
    | some view => exact if_neg (h view (HostCall.target_eq_some_iff.mp htarget))
  rw [perform, hclear]
  rfl

/-- An operation is either aimed at a detached view or not. -/
theorem detached_or_attached (host : RecordingHost) (call : HostCall) :
    (∃ view, call.Addresses view ∧ view ∈ host.detached) ∨
      ∀ view, call.Addresses view → view ∉ host.detached := by
  by_cases h : ∃ view, call.Addresses view ∧ view ∈ host.detached
  · exact Or.inl h
  · exact Or.inr fun view haddresses hdetached => h ⟨view, haddresses, hdetached⟩

theorem detached_perform (host : RecordingHost) (call : HostCall) :
    (host.perform call).2.detached = host.detached := by
  rcases host.detached_or_attached call with ⟨view, haddresses, hdetached⟩ | hattached
  · rw [perform_of_detached haddresses hdetached]
    rfl
  · rw [perform_of_attached hattached]
    cases call <;> rfl

theorem measurement_perform (host : RecordingHost) (call : HostCall) :
    (host.perform call).2.measurement = host.measurement := by
  rcases host.detached_or_attached call with ⟨view, haddresses, hdetached⟩ | hattached
  · rw [perform_of_detached haddresses hdetached]
    rfl
  · rw [perform_of_attached hattached]
    cases call <;> rfl

/-! ### Properties after an operation -/

theorem propsOf_mergeProps (host : RecordingHost) (updated view : ViewAddress) (props : Object) :
    (host.mergeProps updated props).propsOf view =
      if view = updated then (host.propsOf updated).insertAll props.entries
      else host.propsOf view := by
  rw [propsOf, mergeProps, OrderedMap.get?_insert]
  split <;> rfl

theorem propsOf_removeProps (host : RecordingHost) (removed view : ViewAddress) :
    (host.removeProps removed).propsOf view =
      if view = removed then .empty else host.propsOf view := by
  rw [propsOf, removeProps, OrderedMap.get?_erase]
  split <;> rfl

/-- A successful update leaves its own values; properties that it does not mention stay. -/
theorem get?_propsOf_perform_of_updates {props : Object} (hupdates : call.Updates view props)
    (hattached : view ∉ host.detached) (name : String) :
    ((host.perform call).2.propsOf view).get? name =
      (props.latest? name).or ((host.propsOf view).get? name) := by
  have hclear : ∀ view', call.Addresses view' → view' ∉ host.detached := by
    intro view' haddresses
    rwa [← hupdates.addresses.unique haddresses]
  rw [perform_of_attached hclear]
  cases hupdates with
  | node node | view tag viewName =>
    rw [carryOut, propsOf_mergeProps, if_pos rfl, OrderedMap.get?_insertAll]
    rfl

theorem propsOf_perform_of_removes (hremoves : call.Removes view) :
    (host.perform call).2.propsOf view = .empty := by
  cases hremoves with
  | node node =>
    have hattached : ∀ view, (HostCall.removeFromPropsRegistry node).Addresses view →
        view ∉ host.detached := by
      intro view haddresses
      cases haddresses
    rw [perform_of_attached hattached, carryOut, propsOf_removeProps, if_pos rfl]

/-- Any other operation leaves the properties of the view as they are. -/
theorem propsOf_perform_of_other (hremoves : ¬ call.Removes view)
    (hupdates : ∀ props, call.Updates view props → view ∈ host.detached) :
    (host.perform call).2.propsOf view = host.propsOf view := by
  rcases host.detached_or_attached call with ⟨view', haddresses, hdetached⟩ | hattached
  · rw [perform_of_detached haddresses hdetached]
    rfl
  · rw [perform_of_attached hattached]
    cases call with
    | updateNodeProps node props =>
      rw [carryOut, propsOf_mergeProps, if_neg]
      · rfl
      · rintro rfl
        exact hattached _ (.updateNodeProps node props) (hupdates props (.node node props))
    | updateViewProps tag viewName props =>
      rw [carryOut, propsOf_mergeProps, if_neg]
      · rfl
      · rintro rfl
        exact hattached _ (.updateViewProps tag viewName props)
          (hupdates props (.view tag viewName props))
    | removeFromPropsRegistry node =>
      rw [carryOut, propsOf_removeProps, if_neg]
      · rfl
      · rintro rfl
        exact hremoves (.node node)
    | _ => rfl

end RecordingHost

end ScriptBridge
