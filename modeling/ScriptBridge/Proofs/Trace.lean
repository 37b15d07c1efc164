import ScriptBridge.Machine

/-!
# Traces of runs

The trace of a run lists the requests that were carried out, in order. A call in a trace also holds
the trace of the code that was called, and how that ended. So the trace tells what happened where
the machine at the end only tells what is left of it.

* `Script.traceWith` and `Script.trace` follow `Script.runWith` and `Script.run` request by request.
* `Machine.Respected.run` — a relation between machines and traces that every single request
  respects holds of every run, however deeply calls are nested and however they end. All
  invariants of runs are instances of it.
* `Script.machine_run` — the machine after a run is told by the requests of the trace.
* `Script.traceWith_bind`, `Script.traceWith_mapError`, `Script.traceWith_call` — traces of combined
  scripts and of calls.
-/

namespace ScriptBridge

/-! ## Activities -/

/-- A request that was carried out. -/
inductive Activity where
  /-- A call: what happened inside, and how it ended. -/
  | call (callee : Function) (args : List Value) (inside : List Activity)
      (outcome : Outcome Exception Value)
  /-- Any other request. -/
  | plain (op : Op)

/-- A call as its caller sees it. -/
structure Call where
  callee : Function
  args : List Value
  outcome : Outcome Exception Value

namespace Activity

/-- The call that an activity is, if it is one. -/
def call? : Activity → Option Call
  | call callee args _ outcome => some { callee, args, outcome }
  | plain _ => none

mutual

/-- All requests of an activity, those inside calls included, in the order in which they began. -/
def requests : Activity → List Op
  | call callee args inside _ => .call callee args :: requestsOf inside
  | plain op => [op]

/-- All requests of a trace. -/
def requestsOf : List Activity → List Op
  | [] => []
  | activity :: rest => activity.requests ++ requestsOf rest

end

/-- The calls that a trace consists of, not those inside them. -/
def callsOf (trace : List Activity) : List Call := trace.filterMap call?

theorem requestsOf_append (trace rest : List Activity) :
    requestsOf (trace ++ rest) = requestsOf trace ++ requestsOf rest := by
  induction trace with
  | nil => rfl
  | cons activity trace ih =>
    rw [List.cons_append, requestsOf, requestsOf, ih, List.append_assoc]

theorem requestsOf_plain (op : Op) : requestsOf [.plain op] = [op] := rfl

theorem requestsOf_call (callee : Function) (args : List Value) (inside : List Activity)
    (outcome : Outcome Exception Value) :
    requestsOf [.call callee args inside outcome] = .call callee args :: requestsOf inside := by
  rw [requestsOf, requestsOf, requests, List.append_nil]

end Activity

/-! ## Effects of single requests -/

namespace Machine

/-- What a request that is no call does to the machine. -/
def effect (m : Machine) : Op → Machine
  | .setGlobal name value => m.setGlobal name value
  | .host call => { m with env := { m.env with host := (m.env.host.perform call).2 } }
  | .requestFrame callback =>
    { m with env := { m.env with frames := (m.env.frames.request callback).2 } }
  | .note entry => { m with env := { m.env with journal := m.env.journal ++ [entry] } }
  | _ => m

/-- The activity of a request on a machine. What happens inside calls is told by `inside`. -/
def activity (invoke : Function → List Value → Run Exception Value)
    (inside : Function → List Value → Machine → List Activity) (m : Machine) : Op → Activity
  | .call callee args => .call callee args (inside callee args m) (invoke callee args m).1
  | op => .plain op

end Machine

/-! ## Traces -/

namespace Script

variable {ε α : Type}

/-- The trace of carrying out a script. -/
def traceWith (invoke : Function → List Value → Machine.Run Exception Value)
    (inside : Function → List Value → Machine → List Activity) :
    Script ε α → Machine → List Activity
  | request op next, m =>
    m.activity invoke inside op ::
      match m.reply invoke op with
      | (.ok answer, m') => (next answer).traceWith invoke inside m'
      | (.error _, _) => []
  | _, _ => []

end Script

/-- The trace of running the code of a function, on a stack with room for `depth` nested calls. -/
def Machine.trace : (depth : Nat) → Function → List Value → Machine → List Activity
  | 0, _, _, _ => []
  | depth + 1, f, args, m =>
    (m.env.functions.code f args).traceWith (Machine.invoke depth) (Machine.trace depth) m

/-- The trace of carrying out a script on a machine. -/
def Script.trace {ε α : Type} (s : Script ε α) (m : Machine) : List Activity :=
  s.traceWith (Machine.invoke m.env.stackLimit) (Machine.trace m.env.stackLimit) m

/-! ## Invariants of runs -/

namespace Machine

/--
A relation between the machine before a run, the trace, and the machine after it, that is respected
by every single request and passes from the inside of a call to the call.
-/
structure Respected (R : Machine → List Activity → Machine → Prop) : Prop where
  nil : ∀ m, R m [] m
  append : ∀ {m m₁ m₂ trace rest}, R m trace m₁ → R m₁ rest m₂ → R m (trace ++ rest) m₂
  plain : ∀ m op, R m [.plain op] (m.effect op)
  call : ∀ {m m' inside} callee args outcome, R m inside m' →
    R m [.call callee args inside outcome] m'

namespace Respected

variable {R : Machine → List Activity → Machine → Prop} {ε α : Type}
  {invoke : Function → List Value → Run Exception Value}
  {inside : Function → List Value → Machine → List Activity}

/-- One request of a run. The call is the only request that is not plain. -/
theorem reply (h : Respected R) (hcalls : ∀ f args m, R m (inside f args m) (invoke f args m).2)
    (m : Machine) (op : Op) : R m [m.activity invoke inside op] (m.reply invoke op).2 := by
  cases op with
  | call callee args =>
    have hcall := h.call callee args (invoke callee args m).1 (hcalls callee args m)
    have hsame : (m.reply invoke (.call callee args)).2 = (invoke callee args m).2 := by
      rw [Machine.reply]
      split <;> next hi => rw [hi]
    rw [hsame]
    exact hcall
  | context => exact h.plain m .context
  | scope => exact h.plain m .scope
  | setGlobal name value => exact h.plain m (.setGlobal name value)
  | host call => exact h.plain m (.host call)
  | requestFrame callback => exact h.plain m (.requestFrame callback)
  | frameTimestamp => exact h.plain m .frameTimestamp
  | note entry => exact h.plain m (.note entry)
  | journal => exact h.plain m .journal

/-- **What every request respects, every script respects** if the calls do. -/
theorem runWith (h : Respected R) (hcalls : ∀ f args m, R m (inside f args m) (invoke f args m).2)
    (s : Script ε α) (m : Machine) :
    R m (s.traceWith invoke inside m) (s.runWith invoke m).2 := by
  induction s generalizing m with
  | result | error | panic => exact h.nil m
  | request op next ih =>
    have hreply := h.reply hcalls m op
    rw [Script.traceWith, Script.runWith]
    cases hr : m.reply invoke op with
    | mk answer m' =>
      rw [hr] at hreply
      -- What the continuation does is appended to the one request; a halt leaves it at that.
      cases answer with
      | ok reply => exact h.append hreply (ih reply m')
      | error why => exact hreply

/-- The code of a function respects what every request respects, on a stack of any size. -/
theorem invoked (h : Respected R) (depth : Nat) (f : Function) (args : List Value) (m : Machine) :
    R m (Machine.trace depth f args m) (Machine.invoke depth f args m).2 := by
  induction depth generalizing f args m with
  | zero => exact h.nil m
  | succ depth ih => exact h.runWith ih (m.env.functions.code f args) m

/-- **A relation that every single request respects holds of every run.** -/
theorem run (h : Respected R) (s : Script ε α) (m : Machine) : R m (s.trace m) (s.run m).2 :=
  h.runWith (h.invoked m.env.stackLimit) s m

end Respected

theorem respected_effects :
    Respected fun m trace m' => m' = (Activity.requestsOf trace).foldl effect m where
  nil _ := rfl
  append := by
    intro m m₁ m₂ trace rest h₁ h₂
    rw [Activity.requestsOf_append, List.foldl_append, ← h₁]
    exact h₂
  plain m op := by rw [Activity.requestsOf_plain]; rfl
  call := by
    intro m m' inside callee args outcome h
    rw [Activity.requestsOf_call]
    exact h

end Machine

/-- A run changes the machine by its requests and nothing else, one after the other. -/
theorem Script.machine_run {ε α : Type} (s : Script ε α) (m : Machine) :
    (s.run m).2 = (Activity.requestsOf (s.trace m)).foldl Machine.effect m :=
  Machine.respected_effects.run s m

/-! ## Traces of combined scripts -/

namespace Script

variable {ε ε' α β : Type} (invoke : Function → List Value → Machine.Run Exception Value)
  (inside : Function → List Value → Machine → List Activity)

/-- A sequence adds the trace of the second script, if the first one ends in a value. -/
theorem traceWith_bind (s : Script ε α) (f : α → Script ε β) (m : Machine) :
    (s >>= f).traceWith invoke inside m =
      s.traceWith invoke inside m ++
        match s.runWith invoke m with
        | (.value a, m') => (f a).traceWith invoke inside m'
        | _ => [] := by
  induction s generalizing m with
  | result | error | panic => rfl
  | request op next ih =>
    rw [request_bind, traceWith, traceWith, runWith, List.cons_append]
    congr 1
    cases hr : m.reply invoke op with
    | mk answer m' =>
      cases answer with
      | ok reply => exact ih reply m'
      | error why => rfl

/-- Converting the error of a script leaves its trace as it is. -/
theorem traceWith_mapError (s : Script ε α) (f : ε → ε') (m : Machine) :
    (s.mapError f).traceWith invoke inside m = s.traceWith invoke inside m := by
  induction s generalizing m with
  | result | error | panic => rfl
  | request op next ih =>
    rw [mapError, traceWith, traceWith]
    congr 1
    split
    · exact ih _ _
    · rfl

/-- Calling a function is its invocation. -/
theorem runWith_call (f : Function) (args : List Value) (m : Machine) :
    (call f args).runWith invoke m = invoke f args m := by
  show (request (.call f args) ofExcept).runWith invoke m = _
  rw [runWith, Machine.reply]
  rcases invoke f args m with ⟨_ | _ | _, m'⟩ <;> rfl

/-- The trace of a call is the one activity. -/
theorem traceWith_call (f : Function) (args : List Value) (m : Machine) :
    (call f args).traceWith invoke inside m =
      [.call f args (inside f args m) (invoke f args m).1] := by
  show (request (.call f args) ofExcept).traceWith invoke inside m = _
  rw [traceWith, Machine.reply, Machine.activity]
  rcases invoke f args m with ⟨_ | _ | _, m'⟩ <;> rfl

end Script

end ScriptBridge
