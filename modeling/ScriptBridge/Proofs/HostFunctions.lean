import ScriptBridge.Proofs.Decoding
import ScriptBridge.Proofs.Forwarding
import ScriptBridge.Proofs.HostCalls
import ScriptBridge.Proofs.Installation

/-!
# Asking the recording host from script

Every operation of the recording host can be asked for from script, by a call of one bridge function
with arguments that say which operation it is.

* `HostCall.function`, `HostCall.arguments` — that call.
* `HostCall.runWith_function` — it performs the operation, once, and does nothing else; what script
  sees is `HostCall.seen`.
* `Machine.callGlobal_function` — the same for a call by name in a runtime where the function is
  installed.
-/

namespace ScriptBridge

/-- Converting the value of a script converts the value of its runs. -/
theorem Script.runWith_map {ε α β : Type}
    (invoke : Function → List Value → Machine.Run Exception Value) (f : α → β) (s : Script ε α)
    (m : Machine) :
    (f <$> s).runWith invoke m = ((s.runWith invoke m).1.map f, (s.runWith invoke m).2) := by
  show (s >>= fun a => .result (f a)).runWith invoke m = _
  rw [runWith_bind]
  rcases s.runWith invoke m with ⟨_ | _ | _, m'⟩ <;> rfl

namespace HostCall

open RecordingHost in
/-- The bridge function for an operation. -/
def function : HostCall → BridgeFunction
  | updateNodeProps _ _ => .binary "_updatePropsFabric" nodeOperations.updateProps
  | removeFromPropsRegistry _ =>
    .unary "_removeFromPropsRegistry" nodeOperations.removeFromPropsRegistry
  | dispatchToNode _ _ _ => .ternary "_dispatchCommandFabric" nodeOperations.dispatchCommand
  | measureNode _ => .unary "_measureFabric" nodeOperations.measure
  | obtainNodeProp _ _ => .binary "_obtainProp" nodeOperations.obtainProp
  | updateViewProps _ _ _ => .ternary "_updatePropsPaper" tagOperations.updateProps
  | dispatchToView _ _ _ => .ternary "_dispatchCommandPaper" tagOperations.dispatchCommand
  | scrollTo _ _ _ _ => .quaternary "_scrollToPaper" tagOperations.scrollTo
  | measureView _ =>
    .unary "_measurePaper" fun tag => measurementObject <$> tagOperations.measure tag
  | obtainViewProp _ _ => .binary "_obtainProp" tagOperations.obtainProp
  | notifyProgress _ _ _ => .ternary "_notifyAboutProgress" commonOperations.progressLayoutAnimation
  | notifyEnd _ _ _ => .ternary "_notifyAboutEnd" commonOperations.endLayoutAnimation
  | setGestureState _ _ => .binary "_setGestureState" commonOperations.setGestureState
  | flushUiUpdates =>
    .nullary "_maybeFlushUIUpdatesQueue" commonOperations.maybeFlushUiUpdatesQueue

/-- The arguments with which script asks for an operation. -/
def arguments : HostCall → List Value
  | updateNodeProps node props => [.node node, .object props]
  | removeFromPropsRegistry node => [.node node]
  | dispatchToNode node command args => [.node node, .string command, args]
  | measureNode node => [.node node]
  | obtainNodeProp node name => [.node node, .string name]
  | updateViewProps tag viewName props => [.ofInt32 tag, .string viewName, .object props]
  | dispatchToView tag command args => [.ofInt32 tag, .string command, args]
  | scrollTo tag x y animated => [.ofInt32 tag, .number x, .number y, .bool animated]
  | measureView tag => [.ofInt32 tag]
  | obtainViewProp tag name => [.ofInt32 tag, .string name]
  | notifyProgress tag values isShared => [.ofInt32 tag, .object values, .bool isShared]
  | notifyEnd tag isCancelled removeView => [.ofInt32 tag, .bool isCancelled, .bool removeView]
  | setGestureState handler state => [.ofInt32 handler, .ofInt32 state]
  | flushUiUpdates => []

/-- The reply of the host as script sees it. -/
def shown : (call : HostCall) → call.Reply → Value
  | measureNode _, pairs => .object (measurementObject pairs)
  | measureView _, pairs => .object (measurementObject pairs)
  | obtainNodeProp _ _, v => v
  | obtainViewProp _ _, v => v
  | _, _ => .undefined

/-- How an operation ends for script. -/
def seen (call : HostCall) : Except Detached call.Reply → Outcome Exception Value
  | .ok reply => .value (call.shown reply)
  | .error d => .error (.native (d.view.text ++ " is detached"))

/-- What script sees of an operation that was performed. -/
theorem answerOf_performed {call : HostCall} (d : Declaration) (answer : call.Reply → d.Result)
    (hanswer : ∀ reply, ToScript.encode (answer reply) = call.shown reply)
    (performed : Except Detached call.Reply) :
    d.answerOf (((Outcome.ofExcept performed).mapError Detached.failure).map answer) =
      call.seen performed := by
  cases performed with
  | ok reply => exact congrArg Outcome.value (hanswer reply)
  | error detached =>
    show Outcome.error
      (Exception.native (": ".intercalate [detached.view.text ++ " is detached"])) = _
    rw [String.intercalate_singleton]
    rfl

/-- A bridge function whose declaration performs the operation. -/
theorem runWith_of_forwards {f : BridgeFunction} {d : Declaration} (hf : f.Forwards d)
    (call : HostCall) (values : Arguments d.parameters)
    (hdecoded : Decoded call.arguments 0 d.parameters values) {answer : call.Reply → d.Result}
    (hanswer : ∀ reply, ToScript.encode (answer reply) = call.shown reply)
    {invoke : Function → List Value → Machine.Run Exception Value} {m : Machine}
    (hnative : (d.native values).runWith invoke m =
      (((Outcome.ofExcept (m.env.host.perform call).1).mapError Detached.failure).map answer,
        m.effect (.host call))) :
    (f.code call.arguments).runWith invoke m =
      (call.seen (m.env.host.perform call).1, m.effect (.host call)) := by
  have hforwarded := (hf.forwarded call.arguments values hdecoded invoke (Machine.trace 0) m).1
  rw [hforwarded, hnative, answerOf_performed d answer hanswer]

/-- **Asking for an operation from script performs it**, once, and does nothing else. -/
theorem runWith_function (invoke : Function → List Value → Machine.Run Exception Value)
    (call : HostCall) (m : Machine) :
    (call.function.code call.arguments).runWith invoke m =
      (call.seen (m.env.host.perform call).1, m.effect (.host call)) := by
  have hnative := runWith_native invoke call m
  cases call with
  | updateNodeProps node props =>
    exact runWith_of_forwards (BridgeFunction.forwards_binary _ _) (.updateNodeProps node props)
      (node, props, ()) ⟨rfl, rfl, trivial⟩ (fun _ => rfl) hnative
  | removeFromPropsRegistry node =>
    exact runWith_of_forwards (BridgeFunction.forwards_unary _ _) (.removeFromPropsRegistry node)
      (node, ()) ⟨rfl, trivial⟩ (fun _ => rfl) hnative
  | dispatchToNode node command args =>
    exact runWith_of_forwards (BridgeFunction.forwards_ternary _ _)
      (.dispatchToNode node command args) (node, command, args, ()) ⟨rfl, rfl, rfl, trivial⟩
      (fun _ => rfl) hnative
  | measureNode node =>
    exact runWith_of_forwards (BridgeFunction.forwards_unary _ _) (.measureNode node) (node, ())
      ⟨rfl, trivial⟩ (fun _ => rfl) hnative
  | obtainNodeProp node name =>
    exact runWith_of_forwards (BridgeFunction.forwards_binary _ _) (.obtainNodeProp node name)
      (node, name, ()) ⟨rfl, rfl, trivial⟩ (fun _ => rfl) hnative
  | updateViewProps tag viewName props =>
    exact runWith_of_forwards (BridgeFunction.forwards_ternary _ _)
      (.updateViewProps tag viewName props) (tag, viewName, props, ())
      ⟨Value.decode_ofInt32 tag, rfl, rfl, trivial⟩ (fun _ => rfl) hnative
  | dispatchToView tag command args =>
    exact runWith_of_forwards (BridgeFunction.forwards_ternary _ _)
      (.dispatchToView tag command args) (tag, command, args, ())
      ⟨Value.decode_ofInt32 tag, rfl, rfl, trivial⟩ (fun _ => rfl) hnative
  | scrollTo tag x y animated =>
    exact runWith_of_forwards (BridgeFunction.forwards_quaternary _ _)
      (.scrollTo tag x y animated) (tag, x, y, animated, ())
      ⟨Value.decode_ofInt32 tag, rfl, rfl, rfl, trivial⟩ (fun _ => rfl) hnative
  | measureView tag =>
    -- The one function that does something to the answer: it makes an object of the pairs.
    have hmeasured : (measurementObject <$> (measureView tag).native).runWith invoke m =
        (((Outcome.ofExcept (m.env.host.perform (measureView tag)).1).mapError
          Detached.failure).map measurementObject, m.effect (.host (measureView tag))) := by
      rw [Script.runWith_map, hnative]
      cases (m.env.host.perform (measureView tag)).1 <;> rfl
    exact runWith_of_forwards (BridgeFunction.forwards_unary _ _) (.measureView tag) (tag, ())
      ⟨Value.decode_ofInt32 tag, trivial⟩ (fun _ => rfl) hmeasured
  | obtainViewProp tag name =>
    exact runWith_of_forwards (BridgeFunction.forwards_binary _ _) (.obtainViewProp tag name)
      (tag, name, ()) ⟨Value.decode_ofInt32 tag, rfl, trivial⟩ (fun _ => rfl) hnative
  | notifyProgress tag values isShared =>
    exact runWith_of_forwards (BridgeFunction.forwards_ternary _ _)
      (.notifyProgress tag values isShared) (tag, values, isShared, ())
      ⟨Value.decode_ofInt32 tag, rfl, rfl, trivial⟩ (fun _ => rfl) hnative
  | notifyEnd tag isCancelled removeView =>
    exact runWith_of_forwards (BridgeFunction.forwards_ternary _ _)
      (.notifyEnd tag isCancelled removeView) (tag, isCancelled, removeView, ())
      ⟨Value.decode_ofInt32 tag, rfl, rfl, trivial⟩ (fun _ => rfl) hnative
  | setGestureState handler state =>
    exact runWith_of_forwards (BridgeFunction.forwards_binary _ _)
      (.setGestureState handler state) (handler, state, ())
      ⟨Value.decode_ofInt32 handler, Value.decode_ofInt32 state, trivial⟩ (fun _ => rfl) hnative
  | flushUiUpdates =>
    exact runWith_of_forwards (BridgeFunction.forwards_nullary _ _) .flushUiUpdates () trivial
      (fun _ => rfl) hnative

end HostCall

/-- Script that calls the bridge function of an operation performs it, where it is installed. -/
theorem Machine.callGlobal_function {m : Machine} {call : HostCall} (h : m.Offers call.function)
    (hstack : 0 < m.env.stackLimit) :
    m.callGlobal call.function.name call.arguments =
      (call.seen (m.env.host.perform call).1, m.effect (.host call)) := by
  obtain ⟨depth, hdepth⟩ := Nat.exists_eq_add_one_of_ne_zero (Nat.ne_of_gt hstack)
  rw [h.callGlobal hdepth, HostCall.runWith_function]

end ScriptBridge
