import ScriptBridge.Proofs.Lifecycle
import ScriptBridge.Thread.Worker

/-!
# Receipts of commands

A receipt tells what is observed while a worker handles a command: the calls of its manager and the
events.

* `AnimationManager.logged` — the manager with a log of its calls. The log is kept by the manager
  itself, so it holds exactly the calls that were made.
* `Worker.Handles` — which receipts a worker gives for which command. There is no other way to
  handle a command without a panic (`Worker.exists_handles`).
* `Worker.Serves` — receipts for a list of commands, one after the other.
-/

namespace ScriptBridge

/-- A start as the manager got it, and what it answered. -/
structure ManagerCall where
  tag : ViewTag
  kind : AnimationKind
  values : Object
  answer : Except Exception Unit

/-- The ticket of a request to shut down. -/
def Command.ticket? : Command → Option Ticket
  | .shutdown ticket => some ticket
  | _ => none

/-- What is observed while a command is handled. -/
structure Receipt where
  command : Command
  managerCalls : List ManagerCall
  events : List Event

/-! ## Managers with a log -/

namespace AnimationManager

variable {σ : Type}

/-- The same manager, which logs all starts that it answers. -/
def logged (manager : AnimationManager σ) : AnimationManager (σ × List ManagerCall) where
  start state tag kind values := do
    let (answer, next) ← manager.start state.1 tag kind values
    return (answer, next, state.2 ++ [{ tag, kind, values, answer }])

/-- A logged start is the start, and a line in the log if there is an answer. -/
theorem run_logged (manager : AnimationManager σ) (state : σ) (log : List ManagerCall)
    (tag : ViewTag) (kind : AnimationKind) (values : Object) (m : Machine) :
    (manager.logged.start (state, log) tag kind values).run m =
      match (manager.start state tag kind values).run m with
      | (.value (answer, next), m') =>
        (.value (answer, next, log ++ [{ tag, kind, values, answer }]), m')
      | (.halted why, m') => (.halted why, m') := by
  show (manager.start state tag kind values >>= _).runWith _ m = _
  rw [Script.runWith_bind, Script.run]
  rcases (manager.start state tag kind values).runWith (Machine.invoke m.env.stackLimit) m with
    ⟨⟨answer, next⟩ | e | why, m'⟩
  · rfl
  · exact e.elim
  · rfl

/-- A logged start with an answer is a start with this answer, and the log tells of it. -/
theorem run_of_logged (manager : AnimationManager σ) {state : σ} {log : List ManagerCall}
    {tag : ViewTag} {kind : AnimationKind} {values : Object} {m m' : Machine}
    {answer : Except Exception Unit} {next' : σ × List ManagerCall}
    (h : (manager.logged.start (state, log) tag kind values).run m = (.value (answer, next'), m')) :
    ∃ next, (manager.start state tag kind values).run m = (.value (answer, next), m') ∧
      next' = (next, log ++ [⟨tag, kind, values, answer⟩]) := by
  rw [run_logged] at h
  rcases hrun : (manager.start state tag kind values).run m with
    ⟨⟨answer', next⟩ | e | why, machine⟩
  · rw [hrun] at h
    obtain ⟨hvalue, rfl⟩ := Prod.mk.inj h
    obtain ⟨rfl, rfl⟩ := Prod.mk.inj (Outcome.value.inj hvalue)
    exact ⟨next, rfl, rfl⟩
  · exact e.elim
  · rw [hrun] at h
    cases (Prod.mk.inj h).1

end AnimationManager

/-! ## Handling a command -/

namespace Worker

variable {σ : Type} {w w' w'' : Worker σ} {receipt : Receipt}

/-- Handling a command without a panic: what is observed, and the worker afterwards. -/
inductive Handles (w : Worker σ) : Receipt → Worker σ → Prop where
  /-- The manager gets the start, once, and accepts it. -/
  | started (request : AnimationRequest) (state : σ) (machine : Machine)
      (hrun : (w.manager.start w.managerState request.tag request.kind
        request.payload.valueBag).run w.machine = (.value (.ok (), state), machine)) :
      Handles w
        { command := .startAnimation request
          managerCalls := [⟨request.tag, request.kind, request.payload.valueBag, .ok ()⟩]
          events := [.animationStarted request.tag request.kind] }
        { w with
          machine, managerState := state
          events := w.events ++ [.animationStarted request.tag request.kind] }
  /-- The manager gets the start, once, and fails. -/
  | startFailed (request : AnimationRequest) (e : Exception) (state : σ) (machine : Machine)
      (hrun : (w.manager.start w.managerState request.tag request.kind
        request.payload.valueBag).run w.machine = (.value (.error e, state), machine)) :
      Handles w
        { command := .startAnimation request
          managerCalls := [⟨request.tag, request.kind, request.payload.valueBag, .error e⟩]
          events := [.animationFailed request.tag request.kind e.text] }
        { w with
          machine, managerState := state
          events := w.events ++ [.animationFailed request.tag request.kind e.text] }
  /-- All waiting callbacks run, and they are counted. -/
  | flushed (timestamp : Binary64) (machine : Machine) (callbacks : Nat)
      (hserves : w.servesFrames = true)
      (hflush : w.machine.flushFrame timestamp = (.value callbacks, machine))
      (hcount : callbacks = (w.machine.frame timestamp).ran.length) :
      Handles w
        { command := .animationFrame timestamp
          managerCalls := []
          events := [.frameFlushed timestamp callbacks] }
        { w with machine, events := w.events ++ [.frameFlushed timestamp callbacks] }
  /-- A callback throws. -/
  | frameFailed (timestamp : Binary64) (machine : Machine) (e : Exception)
      (hserves : w.servesFrames = true)
      (hflush : w.machine.flushFrame timestamp = (.error e, machine)) :
      Handles w
        { command := .animationFrame timestamp
          managerCalls := []
          events := [.frameFailed timestamp e.text] }
        { w with machine, events := w.events ++ [.frameFailed timestamp e.text] }
  /-- Nobody serves frames, and nothing happens. -/
  | ignored (timestamp : Binary64) (hserves : w.servesFrames = false) :
      Handles w { command := .animationFrame timestamp, managerCalls := [], events := [] } w

/-- Handling commands one after the other. -/
inductive Serves : Worker σ → List Receipt → Worker σ → Prop where
  | done (w : Worker σ) : Serves w [] w
  | next {w w' w'' : Worker σ} {receipt : Receipt} {rest : List Receipt}
      (hhandles : w.Handles receipt w') (hrest : w'.Serves rest w'') :
      Serves w (receipt :: rest) w''

/-! ### What every receipt says -/

namespace Handles

/-- A receipt is given by handling its command. -/
theorem handle_eq (h : w.Handles receipt w') : w.handle receipt.command = (none, w') := by
  cases h with
  | started request state machine hrun =>
    show w.startAnimation request = _
    rw [startAnimation, hrun]
    rfl
  | startFailed request e state machine hrun =>
    show w.startAnimation request = _
    rw [startAnimation, hrun]
    rfl
  | flushed timestamp machine callbacks hserves hflush hcount =>
    show w.animationFrame timestamp = _
    rw [animationFrame, if_pos hserves, hflush]
    rfl
  | frameFailed timestamp machine e hserves hflush =>
    show w.animationFrame timestamp = _
    rw [animationFrame, if_pos hserves, hflush]
    rfl
  | ignored timestamp hserves =>
    show w.animationFrame timestamp = _
    rw [animationFrame, hserves]
    rfl

theorem ticket?_command (h : w.Handles receipt w') : receipt.command.ticket? = none := by
  cases h <;> rfl

theorem events_eq (h : w.Handles receipt w') : w'.events = w.events ++ receipt.events := by
  cases h with
  | ignored timestamp hserves => exact (List.append_nil w.events).symm
  | _ => rfl

/-- The runtime stays the same one. -/
theorem runtimeId_eq (h : w.Handles receipt w') : w'.runtimeId = w.runtimeId := by
  cases h with
  | started request state machine hrun | startFailed request e state machine hrun =>
    have hcontext := (w.manager.start w.managerState request.tag request.kind
      request.payload.valueBag).context_run w.machine
    rw [hrun] at hcontext
    exact congrArg Context.id hcontext
  | flushed timestamp machine callbacks hserves hflush hcount
  | frameFailed timestamp machine e hserves hflush =>
    have hcontext := w.machine.context_flushFrame timestamp
    rw [hflush] at hcontext
    exact congrArg Context.id hcontext
  | ignored timestamp hserves => rfl

end Handles

/-- Whatever a worker does with a command without a panic, there is a receipt for it. -/
theorem exists_handles {command : Command} (hticket : command.ticket? = none)
    (h : w.handle command = (none, w')) :
    ∃ receipt, receipt.command = command ∧ w.Handles receipt w' := by
  cases command with
  | startAnimation request =>
    change w.startAnimation request = _ at h
    rw [startAnimation] at h
    split at h
    · next answer state machine hrun =>
      obtain rfl := (Prod.mk.inj h).2
      cases answer with
      | ok done => exact ⟨_, rfl, .started request state machine hrun⟩
      | error e => exact ⟨_, rfl, .startFailed request e state machine hrun⟩
    · cases (Prod.mk.inj h).1
  | animationFrame timestamp =>
    change w.animationFrame timestamp = _ at h
    rw [animationFrame] at h
    split at h
    · next hserves =>
      split at h
      · next callbacks machine hflush =>
        obtain rfl := (Prod.mk.inj h).2
        have hcount : callbacks = (w.machine.frame timestamp).ran.length :=
          (w.machine.frame_lawful timestamp).count_eq callbacks (congrArg Prod.fst hflush)
        exact ⟨_, rfl, .flushed timestamp machine callbacks hserves hflush hcount⟩
      · next e machine hflush =>
        obtain rfl := (Prod.mk.inj h).2
        exact ⟨_, rfl, .frameFailed timestamp machine e hserves hflush⟩
      · cases (Prod.mk.inj h).1
    · next hserves =>
      obtain rfl := (Prod.mk.inj h).2
      exact ⟨_, rfl, .ignored timestamp (eq_false_of_ne_true hserves)⟩
  | shutdown ticket => cases hticket

/-! ### Receipts for several commands -/

/-- The worker handles these commands, one after the other, without a panic. -/
def Survives : Worker σ → List Command → Prop
  | _, [] => True
  | w, command :: rest => (w.handle command).1 = none ∧ (w.handle command).2.Survives rest

namespace Serves

variable {receipts : List Receipt}

theorem append_handles (h : w.Serves receipts w') (hlast : w'.Handles receipt w'') :
    w.Serves (receipts ++ [receipt]) w'' := by
  induction h with
  | done w => exact .next hlast (.done _)
  | next hhandles _ ih => exact .next hhandles (ih hlast)

theorem ticket?_commands (h : w.Serves receipts w') :
    ∀ command ∈ receipts.map (·.command), command.ticket? = none := by
  induction h with
  | done w => nofun
  | next hhandles _ ih =>
    intro command hmem
    rcases List.mem_cons.mp hmem with rfl | hmem
    · exact hhandles.ticket?_command
    · exact ih command hmem

theorem events_eq (h : w.Serves receipts w') :
    w'.events = w.events ++ receipts.flatMap (·.events) := by
  induction h with
  | done w => exact (List.append_nil w.events).symm
  | next hhandles _ ih => rw [ih, hhandles.events_eq, List.flatMap_cons, List.append_assoc]

theorem runtimeId_eq (h : w.Serves receipts w') : w'.runtimeId = w.runtimeId := by
  induction h with
  | done w => rfl
  | next hhandles _ ih => rw [ih, hhandles.runtimeId_eq]

theorem survives_rest (h : w.Serves receipts w') {rest : List Command}
    (hsurvives : w.Survives (receipts.map (·.command) ++ rest)) : w'.Survives rest := by
  induction h with
  | done w => exact hsurvives
  | next hhandles _ ih =>
    have hrest := hsurvives.2
    rw [hhandles.handle_eq] at hrest
    exact ih hrest

/-- The commands alone tell what becomes of the worker. -/
theorem worker_unique {receipts' : List Receipt} (h : w.Serves receipts w')
    (h' : w.Serves receipts' w'')
    (hcommands : receipts.map (·.command) = receipts'.map (·.command)) : w' = w'' := by
  induction h generalizing receipts' with
  | done w =>
    cases h' with
    | done => rfl
    | next => cases hcommands
  | next hhandles _ ih =>
    cases h' with
    | done => cases hcommands
    | next hhandles' hrest' =>
      obtain ⟨hcommand, hcommands⟩ := List.cons.inj hcommands
      have hhandle := hhandles.handle_eq.symm.trans
        ((congrArg _ hcommand).trans hhandles'.handle_eq)
      obtain rfl := (Prod.mk.inj hhandle).2
      exact ih hrest' hcommands

end Serves

/-! ### The log of the manager -/

/-- The same worker with a manager that logs its calls. -/
def logged (w : Worker σ) (log : List ManagerCall) : Worker (σ × List ManagerCall) where
  machine := w.machine
  manager := w.manager.logged
  managerState := (w.managerState, log)
  servesFrames := w.servesFrames
  events := w.events

/-- Logging changes nothing else. -/
theorem handle_logged (w : Worker σ) (log : List ManagerCall) (command : Command) :
    ∃ log', (w.logged log).handle command =
      ((w.handle command).1, (w.handle command).2.logged log') := by
  cases command with
  | startAnimation request =>
    have hrun := w.manager.run_logged w.managerState log request.tag request.kind
      request.payload.valueBag w.machine
    show ∃ log', (w.logged log).startAnimation request =
      ((w.startAnimation request).1, (w.startAnimation request).2.logged log')
    rw [startAnimation, startAnimation]
    simp only [logged, hrun]
    -- The log grows only when the start is answered, so a panic leaves it as it is.
    rcases (w.manager.start w.managerState request.tag request.kind
      request.payload.valueBag).run w.machine with ⟨⟨answer, next⟩ | e | why, machine⟩
    · exact ⟨_, rfl⟩
    · exact e.elim
    · exact ⟨log, rfl⟩
  | animationFrame timestamp =>
    refine ⟨log, ?_⟩
    show (w.logged log).animationFrame timestamp =
      ((w.animationFrame timestamp).1, (w.animationFrame timestamp).2.logged log)
    obtain ⟨machine, manager, state, servesFrames, events⟩ := w
    rw [animationFrame, animationFrame]
    simp only [logged]
    cases servesFrames with
    | false => rfl
    | true => rcases machine.flushFrame timestamp with ⟨callbacks | e | why, machine'⟩ <;> rfl
  | shutdown ticket => exact ⟨log, rfl⟩

theorem Survives.logged {commands : List Command} (h : w.Survives commands)
    (log : List ManagerCall) : (w.logged log).Survives commands := by
  induction commands generalizing w log with
  | nil => trivial
  | cons command rest ih =>
    obtain ⟨log', hlog⟩ := w.handle_logged log command
    rw [Survives, hlog]
    exact ⟨h.1, ih h.2 log'⟩

/-- The log grows by the calls of the receipt. -/
theorem Handles.of_logged {log : List ManagerCall} {w' : Worker (σ × List ManagerCall)}
    (h : (w.logged log).Handles receipt w') :
    ∃ w₀, w.Handles receipt w₀ ∧ w' = w₀.logged (log ++ receipt.managerCalls) := by
  cases h with
  | started request state machine hlogged =>
    obtain ⟨next, hrun, rfl⟩ := w.manager.run_of_logged hlogged
    exact ⟨_, .started request next machine hrun, rfl⟩
  | startFailed request e state machine hlogged =>
    obtain ⟨next, hrun, rfl⟩ := w.manager.run_of_logged hlogged
    exact ⟨_, .startFailed request e next machine hrun, rfl⟩
  | flushed timestamp machine callbacks hserves hflush hcount =>
    exact ⟨_, .flushed timestamp machine callbacks hserves hflush hcount,
      by rw [List.append_nil]; rfl⟩
  | frameFailed timestamp machine e hserves hflush =>
    exact ⟨_, .frameFailed timestamp machine e hserves hflush, by rw [List.append_nil]; rfl⟩
  | ignored timestamp hserves =>
    exact ⟨w, .ignored timestamp hserves, by rw [List.append_nil]⟩

theorem Serves.of_logged {log : List ManagerCall} {receipts : List Receipt}
    {w' : Worker (σ × List ManagerCall)} (h : (w.logged log).Serves receipts w') :
    ∃ w₀, w.Serves receipts w₀ ∧ w' = w₀.logged (log ++ receipts.flatMap (·.managerCalls)) := by
  induction receipts generalizing w log with
  | nil =>
    cases h
    exact ⟨w, .done w, by rw [List.flatMap_nil, List.append_nil]⟩
  | cons receipt rest ih =>
    cases h with
    | next hhandles hrest =>
      obtain ⟨w₁, hw₁, rfl⟩ := hhandles.of_logged
      obtain ⟨w₂, hw₂, rfl⟩ := ih hrest
      exact ⟨w₂, .next hw₁ hw₂, by rw [List.flatMap_cons, List.append_assoc]⟩

end Worker

end ScriptBridge
