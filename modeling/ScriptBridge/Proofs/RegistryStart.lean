import ScriptBridge.Animation.Registry
import ScriptBridge.Proofs.Decoding
import ScriptBridge.Proofs.OrderedMap
import ScriptBridge.Proofs.Trace

/-!
# What script gets of an animation start

The registry manager calls the entry point of script with four arguments. They tell the whole
request: the view, the kind, the shape of the payload and every number in it, bit for bit.

* `AnimationRequest.arguments` — the arguments for a request and its configuration.
* `AnimationRequest.ofArguments?` — reads them back; `ofArguments?_arguments` says that this gives
  the request and the configuration.
* `AnimationRegistry.run_start`, `AnimationRegistry.trace_start` — how a start ends, and which calls
  it makes: none without a configuration, one to the entry point otherwise.
-/

namespace ScriptBridge

/-! ## The arguments -/

/-- The entries of a value bag, in their order. -/
def AnimationPayload.bagEntries : AnimationPayload → List (String × Value)
  | single g =>
    [("originX", .number g.x), ("originY", .number g.y), ("width", .number g.width),
      ("height", .number g.height)]
  | transition current target =>
    [("currentOriginX", .number current.x), ("currentOriginY", .number current.y),
      ("currentWidth", .number current.width), ("currentHeight", .number current.height),
      ("targetOriginX", .number target.x), ("targetOriginY", .number target.y),
      ("targetWidth", .number target.width), ("targetHeight", .number target.height)]

/-- No two fields of a payload share a name, so all of them are in the bag, in their order. -/
theorem AnimationPayload.valueBag_eq (payload : AnimationPayload) :
    payload.valueBag = ⟨payload.bagEntries⟩ := by
  have hnodup : (payload.bagEntries.map (·.1)).Nodup := by cases payload <;> simp [bagEntries]
  have hentries : payload.valueBag = .ofList payload.bagEntries := by cases payload <;> rfl
  rw [hentries, OrderedMap.ofList_of_nodup hnodup]

namespace AnimationRequest

/-- The arguments of the script function for a request and its configuration. -/
def arguments (request : AnimationRequest) (config : Value) : List Value :=
  [.ofInt32 request.tag, .ofInt32 request.kind.code, .object ⟨request.payload.bagEntries⟩, config]

end AnimationRequest

/-! ## Reading them back -/

/-- The frame whose fields are in the bag under these names. -/
def Geometry.ofBag? (keys : BagKeys) (bag : Object) : Option Geometry := do
  let x ← bag.number? keys.x
  let y ← bag.number? keys.y
  let width ← bag.number? keys.width
  let height ← bag.number? keys.height
  return { x, y, width, height }

/-- The payload in a bag. The names tell its shape. -/
def AnimationPayload.ofBag? (bag : Object) : Option AnimationPayload :=
  match Geometry.ofBag? .single bag with
  | some frame => some (.single frame)
  | none => do
    let current ← Geometry.ofBag? .current bag
    let target ← Geometry.ofBag? .target bag
    return .transition current target

theorem AnimationPayload.ofBag?_bagEntries (payload : AnimationPayload) :
    ofBag? ⟨payload.bagEntries⟩ = some payload := by
  cases payload with
  | single frame => rfl
  | transition current target => rfl

namespace AnimationRequest

/-- The request and the configuration that the arguments of the script function tell. -/
def ofArguments? : List Value → Option (AnimationRequest × Value)
  | [tag, kind, bag, config] => do
    let tag ← (FromScript.decode (α := ViewTag) tag).toOption
    let code ← (FromScript.decode (α := Int32) kind).toOption
    let kind ← AnimationKind.ofCode? code
    let payload ← bag.object?.bind AnimationPayload.ofBag?
    return ({ tag, kind, payload }, config)
  | _ => none

/-- The arguments tell the whole request. -/
theorem ofArguments?_arguments (request : AnimationRequest) (config : Value) :
    ofArguments? (request.arguments config) = some (request, config) := by
  have hpayload : (Value.object ⟨request.payload.bagEntries⟩).object?.bind
      AnimationPayload.ofBag? = some request.payload :=
    request.payload.ofBag?_bagEntries
  rw [arguments, ofArguments?, Value.decode_ofInt32, Value.decode_ofInt32, hpayload]
  simp only [Except.toOption, Option.bind_eq_bind, Option.bind_some,
    AnimationKind.ofCode?_code]
  rfl

end AnimationRequest

/-! ## How a start runs -/

/-- An attempt makes the requests of the script. -/
theorem Script.traceWith_attempt {ε ε' α : Type}
    (invoke : Function → List Value → Machine.Run Exception Value)
    (inside : Function → List Value → Machine → List Activity) (s : Script ε α) (m : Machine) :
    (s.attempt : Script ε' (Except ε α)).traceWith invoke inside m =
      s.traceWith invoke inside m := by
  induction s generalizing m with
  | result | error | panic => rfl
  | request op next ih =>
    rw [attempt, traceWith, traceWith]
    congr 1
    split
    · exact ih _ _
    · rfl

namespace AnimationRegistry

variable {r : AnimationRegistry} {tag : ViewTag} {kind : AnimationKind}

/-- What the manager makes of the end of a start. Only a halt goes through it. -/
def reported (r : AnimationRegistry) :
    {α : Type} → Outcome Exception α → Outcome Empty (Except Exception Unit × AnimationRegistry)
  | _, .value _ => .value (.ok (), r)
  | _, .error e => .value (.error e, r)
  | _, .halted why => .halted why

theorem run_manager (r : AnimationRegistry) (tag : ViewTag) (kind : AnimationKind)
    (values : Object) (m : Machine) :
    (manager.start r tag kind values).run m =
      (r.reported ((r.start tag kind values).run m).1, ((r.start tag kind values).run m).2) := by
  show ((r.start tag kind values).attempt >>= fun ended => Script.result (ended, r)).runWith _ m = _
  rw [Script.runWith_bind, Script.runWith_attempt, Script.run]
  rcases (r.start tag kind values).runWith (Machine.invoke m.env.stackLimit) m with
    ⟨_ | _ | _, m'⟩ <;> rfl

theorem trace_manager (r : AnimationRegistry) (tag : ViewTag) (kind : AnimationKind)
    (values : Object) (m : Machine) :
    (manager.start r tag kind values).trace m = (r.start tag kind values).trace m := by
  show ((r.start tag kind values).attempt >>= fun ended => Script.result (ended, r)).traceWith
    _ _ m = _
  rw [Script.traceWith_bind, Script.traceWith_attempt, Script.runWith_attempt, Script.trace]
  rcases (r.start tag kind values).runWith (Machine.invoke m.env.stackLimit) m with
    ⟨_ | _ | _, m'⟩ <;> exact List.append_nil _

/-- Without a configuration, nothing is done. -/
theorem start_of_none (h : r.config? tag kind = none) (values : Object) :
    r.start tag kind values = .result () := by
  rw [start, h]
  rfl

/-- Call the entry point of the scope with these arguments. -/
def callEntryPoint (scope : Object) (args : List Value) : Script Exception Unit :=
  Script.ofExcept (entryPoint scope) >>= fun entry =>
    Script.callFunction entry args >>= fun _ => .result ()

/-- With a configuration, the entry point of the scope is called. -/
theorem start_of_some {config : Value} (h : r.config? tag kind = some config) (values : Object) :
    r.start tag kind values = Script.ask .scope >>= fun scope =>
      callEntryPoint scope [.ofInt32 tag, .ofInt32 kind.code, .object values, config] := by
  rw [start, h]
  rfl

variable {config : Value} {f : Function} {m : Machine}

theorem run_start_of_some (h : r.config? tag kind = some config) (values : Object) :
    (r.start tag kind values).run m =
      (callEntryPoint m.runtime.global
        [.ofInt32 tag, .ofInt32 kind.code, .object values, config]).run m := by
  rw [start_of_some h]
  rfl

theorem trace_start_of_some (h : r.config? tag kind = some config) (values : Object) :
    (r.start tag kind values).trace m =
      .plain .scope :: (callEntryPoint m.runtime.global
        [.ofInt32 tag, .ofInt32 kind.code, .object values, config]).trace m := by
  rw [start_of_some h]
  rfl

theorem callEntryPoint_of_function {scope : Object} (h : entryPoint scope = .ok (.function f))
    (args : List Value) :
    callEntryPoint scope args = Script.call f args >>= fun _ => .result () := by
  rw [callEntryPoint, h]
  rfl

/-- How a start ends if the entry point is a function: as the call of the function. -/
theorem run_start (hconfig : r.config? tag kind = some config)
    (hentry : entryPoint m.runtime.global = .ok (.function f)) (values : Object) :
    let ended := Machine.invoke m.env.stackLimit f
      [.ofInt32 tag, .ofInt32 kind.code, .object values, config] m
    (manager.start r tag kind values).run m = (r.reported ended.1, ended.2) := by
  intro ended
  have hended : Machine.invoke m.env.stackLimit f
      [.ofInt32 tag, .ofInt32 kind.code, .object values, config] m = ended := rfl
  clear_value ended
  have hstart : (r.start tag kind values).run m = (ended.1.map fun _ => (), ended.2) := by
    rw [run_start_of_some hconfig, callEntryPoint_of_function hentry, Script.run,
      Script.runWith_bind, Script.runWith_call, hended]
    rcases ended with ⟨_ | _ | _, m'⟩ <;> rfl
  rw [run_manager, hstart]
  cases ended.1 <;> rfl

/-- The calls of a start if the entry point is a function: that one. -/
theorem trace_start (hconfig : r.config? tag kind = some config)
    (hentry : entryPoint m.runtime.global = .ok (.function f)) (values : Object) :
    let args := [.ofInt32 tag, .ofInt32 kind.code, .object values, config]
    (manager.start r tag kind values).trace m =
      [.plain .scope, .call f args (Machine.trace m.env.stackLimit f args m)
        (Machine.invoke m.env.stackLimit f args m).1] := by
  intro args
  rw [trace_manager, trace_start_of_some hconfig, callEntryPoint_of_function hentry, Script.trace,
    Script.traceWith_bind, Script.traceWith_call, Script.runWith_call]
  rcases Machine.invoke m.env.stackLimit f args m with ⟨_ | _ | _, m'⟩ <;> rfl

end AnimationRegistry

end ScriptBridge
