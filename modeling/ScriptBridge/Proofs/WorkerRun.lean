import ScriptBridge.Proofs.Interleaving

/-!
# Runs of a worker among its clients

Whatever the order is in which clients and the thread are scheduled, the thread does the same: it
handles the commands in the order of the channel, up to the first request to shut down.

* `UiThread.Tracks` — the invariant of all moves. It relates the commands that the channel accepted
  to the receipts of the worker.
* `UiThread.logged` — the thread with a log of the manager's calls. It goes the same way.
* `worker_run_law` — the invariant at the end of a run.
-/

namespace ScriptBridge

namespace UiThread

variable {σ : Type} {t t' : UiThread σ}

/-! ## What a thread has done -/

/-- Why a thread left its loop: a request to shut down was read, or all commands were handled and no
client is left. -/
def LeftOn (handled sent : List Command) (hasClients : Bool) : Option Ticket → Prop
  | some ticket => ∃ rest, sent = handled ++ .shutdown ticket :: rest
  | none => sent = handled ∧ hasClients = false

/-- Where a thread stands that got the commands `sent` and has handled some of them. The worker was
`w` after the last one, and `answered` are the tickets answered before. -/
def Stands (handled sent : List Command) (w : Worker σ) (answered : List Ticket)
    (t : UiThread σ) : Prop :=
  match t.phase with
  | .serving => t.worker = w ∧ t.answered = answered ∧ sent = handled ++ t.queue
  | .leaving ticket =>
    t.worker = w ∧ t.answered = answered ∧ LeftOn handled sent t.hasClients ticket
  | .answering ticket =>
    t.worker = w.emit (.runtimeShutdown w.runtimeId) ∧ t.answered = answered ∧
      LeftOn handled sent t.hasClients ticket
  | .closing | .finished =>
    t.worker = w.emit (.runtimeShutdown w.runtimeId) ∧
      ∃ ticket, t.answered = answered ++ ticket.toList ∧ LeftOn handled sent t.hasClients ticket
  | .died why =>
    t.answered = answered ∧ ∃ command rest, sent = handled ++ command :: rest ∧
      command.ticket? = none ∧ w.handle command = (some why, t.worker)

/-- **The invariant of all moves.** The thread `t₀` got the commands `sent`, in this order, and went
on to `t`: there are receipts for the commands that were handled, which come first. -/
def Tracks (t₀ : UiThread σ) (sent : List Command) (t : UiThread σ) : Prop :=
  ∃ receipts w, t₀.worker.Serves receipts w ∧
    Stands (receipts.map (·.command)) sent w t₀.answered t

variable {handled sent : List Command} {w : Worker σ} {answered : List Ticket}

theorem LeftOn.append {ticket : Option Ticket} (h : LeftOn handled sent true ticket)
    (command : Command) : LeftOn handled (sent ++ [command]) true ticket := by
  cases ticket with
  | none => cases h.2
  | some ticket =>
    obtain ⟨rest, rfl⟩ := h
    exact ⟨rest ++ [command], by rw [List.append_assoc, List.cons_append]⟩

theorem LeftOn.leave {ticket : Option Ticket} {hasClients : Bool}
    (h : LeftOn handled sent hasClients ticket) : LeftOn handled sent false ticket := by
  cases ticket with
  | none => exact ⟨h.1, rfl⟩
  | some ticket => exact h

theorem Stands.leave (h : Stands handled sent w answered t) :
    Stands handled sent w answered { t with hasClients := false } := by
  unfold Stands at h ⊢
  cases hphase : t.phase with
  | serving | died why =>
    rw [hphase] at h
    exact h
  | leaving ticket | answering ticket =>
    rw [hphase] at h
    exact ⟨h.1, h.2.1, h.2.2.leave⟩
  | closing | finished =>
    rw [hphase] at h
    obtain ⟨hworker, ticket, hanswered, hleft⟩ := h
    exact ⟨hworker, ticket, hanswered, hleft.leave⟩

/-- A command at the end of the queue is one at the end of the channel. -/
theorem Stands.enqueue (h : Stands handled sent w answered t) (hclients : t.hasClients = true)
    (command : Command) (nextTicket : Ticket) :
    Stands handled (sent ++ [command]) w answered
      { t with queue := t.queue ++ [command], nextTicket } := by
  unfold Stands at h ⊢
  cases hphase : t.phase with
  | serving =>
    rw [hphase] at h
    obtain ⟨hworker, hanswered, rfl⟩ := h
    exact ⟨hworker, hanswered, List.append_assoc _ _ _⟩
  | leaving ticket | answering ticket =>
    rw [hphase] at h
    obtain ⟨hworker, hanswered, hleft⟩ := h
    rw [hclients] at hleft
    refine ⟨hworker, hanswered, ?_⟩
    rw [hclients]
    exact hleft.append command
  | closing | finished =>
    rw [hphase] at h
    obtain ⟨hworker, ticket, hanswered, hleft⟩ := h
    rw [hclients] at hleft
    refine ⟨hworker, ticket, hanswered, ?_⟩
    rw [hclients]
    exact hleft.append command
  | died why =>
    rw [hphase] at h
    obtain ⟨hanswered, last, rest, rfl, hlast⟩ := h
    exact ⟨hanswered, last, rest ++ [command],
      by rw [List.append_assoc, List.cons_append], hlast⟩

/-- A step of the thread adds at most one receipt. -/
theorem Tracks.advances {t₀ : UiThread σ} (h : t₀.Tracks sent t) (hadvance : t.Advances t') :
    t₀.Tracks sent t' := by
  obtain ⟨receipts, w, hserves, hstands⟩ := h
  cases hadvance with
  | left hphase hqueue hclients =>
    rw [Stands, hphase] at hstands
    obtain ⟨hworker, hanswered, hsent⟩ := hstands
    rw [hqueue, List.append_nil] at hsent
    exact ⟨receipts, w, hserves, hworker, hanswered, hsent, hclients⟩
  | stopped ticket rest hphase hqueue =>
    rw [Stands, hphase] at hstands
    obtain ⟨hworker, hanswered, hsent⟩ := hstands
    rw [hqueue] at hsent
    exact ⟨receipts, w, hserves, hworker, hanswered, rest, hsent⟩
  | handled command rest worker hphase hqueue hticket hhandle =>
    rw [Stands, hphase] at hstands
    obtain ⟨rfl, hanswered, hsent⟩ := hstands
    obtain ⟨receipt, rfl, hhandles⟩ := Worker.exists_handles hticket hhandle
    refine ⟨receipts ++ [receipt], worker, hserves.append_handles hhandles, ?_⟩
    rw [Stands, hphase]
    refine ⟨rfl, hanswered, ?_⟩
    rw [hsent, hqueue, List.map_append, List.append_assoc]
    rfl
  | panicked command rest why worker hphase hqueue hticket hhandle =>
    rw [Stands, hphase] at hstands
    obtain ⟨rfl, hanswered, hsent⟩ := hstands
    rw [hqueue] at hsent
    exact ⟨receipts, t.worker, hserves, hanswered, command, rest, hsent, hticket, hhandle⟩
  | reported ticket hphase =>
    rw [Stands, hphase] at hstands
    obtain ⟨rfl, hanswered, hleft⟩ := hstands
    exact ⟨receipts, t.worker, hserves, rfl, hanswered, hleft⟩
  | answered ticket hphase =>
    rw [Stands, hphase] at hstands
    obtain ⟨hworker, hanswered, hleft⟩ := hstands
    refine ⟨receipts, w, hserves, hworker, ticket, ?_, hleft⟩
    rw [hanswered]
  | closed hphase =>
    rw [Stands, hphase] at hstands
    exact ⟨receipts, w, hserves, hstands⟩

/-- A move adds what the channel accepts in it. -/
theorem Tracks.next {t₀ : UiThread σ} (h : t₀.Tracks sent t) (move : Move) :
    t₀.Tracks (sent ++ t.accepts move) (t.next move) := by
  obtain ⟨receipts, w, hserves, hstands⟩ := h
  have hmoves := moves_next t move
  revert hmoves
  generalize t.accepts move = accepted, t.next move = t'
  rintro (_ | ⟨command, nextTicket, hclients, _⟩ | _ | hadvance)
  · rw [List.append_nil]
    exact ⟨receipts, w, hserves, hstands⟩
  · exact ⟨receipts, w, hserves, hstands.enqueue hclients command nextTicket⟩
  · rw [List.append_nil]
    exact ⟨receipts, w, hserves, hstands.leave⟩
  · rw [List.append_nil]
    exact Tracks.advances ⟨receipts, w, hserves, hstands⟩ hadvance

theorem Tracks.afterMoves {t₀ : UiThread σ} (h : t₀.Tracks sent t) (moves : List Move) :
    t₀.Tracks (sent ++ t.channel moves) (t.afterMoves moves) := by
  induction moves generalizing sent t with
  | nil =>
    rw [channel, List.append_nil]
    exact h
  | cons move rest ih =>
    rw [channel, ← List.append_assoc]
    exact ih (h.next move)

theorem Tracks.settle {t₀ : UiThread σ} (h : t₀.Tracks sent t) : t₀.Tracks sent t.settle := by
  have hafter := h.afterMoves (List.replicate (t.queue.length + t.phase.remaining) .advance)
  rw [channel_advance, List.append_nil] at hafter
  rw [settle_eq_afterMoves]
  exact hafter

theorem tracks_of_serving (hphase : t.phase = .serving) : t.Tracks t.queue t := by
  refine ⟨[], t.worker, .done t.worker, ?_⟩
  rw [Stands, hphase]
  exact ⟨rfl, rfl, rfl⟩

/-- Whatever a thread does until it settles, it tracks all commands of the channel. -/
theorem tracks_run (hphase : t.phase = .serving) (moves : List Move) :
    t.Tracks (t.queue ++ t.channel moves) (t.afterMoves moves).settle :=
  ((tracks_of_serving hphase).afterMoves moves).settle

/-! ## The end of a run -/

/-- The commands before the first request to shut down. -/
def beforeShutdown (sent : List Command) : List Command := sent.takeWhile (·.ticket?.isNone)

/-- The ticket of the first request to shut down. -/
def firstTicket? (sent : List Command) : Option Ticket := sent.findSome? (·.ticket?)

theorem beforeShutdown_append (hhandled : ∀ command ∈ handled, command.ticket? = none)
    (rest : List Command) :
    beforeShutdown (handled ++ rest) = handled ++ beforeShutdown rest :=
  List.takeWhile_append_of_pos fun command hmem => by rw [hhandled command hmem]; rfl

/-- Who left the loop has handled exactly what comes before the first request to shut down. -/
theorem LeftOn.handled_eq {hasClients : Bool} {ticket : Option Ticket}
    (h : LeftOn handled sent hasClients ticket)
    (hhandled : ∀ command ∈ handled, command.ticket? = none) :
    handled = beforeShutdown sent ∧ ticket = firstTicket? sent := by
  have hnone : handled.findSome? (·.ticket?) = none := List.findSome?_eq_none_iff.mpr hhandled
  cases ticket with
  | none =>
    obtain ⟨rfl, _⟩ := h
    have happend := beforeShutdown_append hhandled []
    rw [List.append_nil] at happend
    exact ⟨(happend.trans (List.append_nil _)).symm, hnone.symm⟩
  | some ticket =>
    obtain ⟨rest, rfl⟩ := h
    refine ⟨(beforeShutdown_append hhandled _).symm ▸ (List.append_nil handled).symm, ?_⟩
    rw [firstTicket?, List.findSome?_append, hnone]
    rfl

/-- A thread that got a reason to end, and did not panic, has ended when it cannot advance. -/
theorem Tracks.finished {t₀ : UiThread σ} (h : t₀.Tracks sent t) (hidle : t.advance = none)
    (hends : (∃ command ∈ sent, command.ticket? ≠ none) ∨ t.hasClients = false)
    (hsurvives : t₀.worker.Survives (beforeShutdown sent)) :
    t.phase = .finished ∧ t.answered = t₀.answered ++ (firstTicket? sent).toList ∧
      ∃ receipts w, t₀.worker.Serves receipts w ∧
        receipts.map (·.command) = beforeShutdown sent ∧
        t.worker = w.emit (.runtimeShutdown w.runtimeId) := by
  obtain ⟨receipts, w, hserves, hstands⟩ := h
  have hhandled := hserves.ticket?_commands
  rcases phase_of_advance_eq_none hidle with ⟨hphase, hqueue, hclients⟩ | hphase | ⟨why, hphase⟩
  · -- A waiting thread has handled everything, and still has clients.
    rw [Stands, hphase] at hstands
    obtain ⟨_, _, hsent⟩ := hstands
    rw [hqueue, List.append_nil] at hsent
    rcases hends with ⟨command, hmem, hticket⟩ | hnone
    · rw [hsent] at hmem
      exact absurd (hhandled command hmem) hticket
    · rw [hnone] at hclients
      cases hclients
  · rw [Stands, hphase] at hstands
    obtain ⟨hworker, ticket, hanswered, hleft⟩ := hstands
    obtain ⟨hcommands, rfl⟩ := hleft.handled_eq hhandled
    exact ⟨hphase, hanswered, receipts, w, hserves, hcommands, hworker⟩
  · -- A panic would be one of a command that comes before the first request to shut down.
    rw [Stands, hphase] at hstands
    obtain ⟨_, command, rest, hsent, hticket, hhandle⟩ := hstands
    have hbefore : beforeShutdown (command :: rest) = command :: beforeShutdown rest :=
      List.takeWhile_cons_of_pos (by rw [hticket]; rfl)
    rw [hsent, beforeShutdown_append hhandled, hbefore] at hsurvives
    have hnone := (hserves.survives_rest hsurvives).1
    rw [hhandle] at hnone
    cases hnone

/-! ## The log of the manager -/

/-- The same thread with a manager that logs its calls. -/
def logged (t : UiThread σ) (log : List ManagerCall) : UiThread (σ × List ManagerCall) where
  runtimeId := t.runtimeId
  worker := t.worker.logged log
  eventCapacity := t.eventCapacity
  queue := t.queue
  phase := t.phase
  hasClients := t.hasClients
  answered := t.answered
  nextTicket := t.nextTicket
  joined := t.joined

/-- Logging changes nothing else. -/
theorem advance_logged (t : UiThread σ) (log : List ManagerCall) :
    ∃ log', (t.logged log).advance = t.advance.map (·.logged log') := by
  cases hphase : t.phase with
  | serving =>
    cases hqueue : t.queue with
    | nil =>
      refine ⟨log, ?_⟩
      simp only [advance, logged, hphase, hqueue]
      split <;> rfl
    | cons command rest =>
      obtain ⟨log', hlog⟩ := t.worker.handle_logged log command
      cases command with
      | shutdown ticket =>
        refine ⟨log, ?_⟩
        simp only [advance, logged, hphase, hqueue]
        rfl
      | startAnimation request =>
        refine ⟨log', ?_⟩
        simp only [advance, logged, hphase, hqueue, hlog]
        rcases t.worker.handle (.startAnimation request) with ⟨_ | why, worker⟩ <;> rfl
      | animationFrame timestamp =>
        refine ⟨log', ?_⟩
        simp only [advance, logged, hphase, hqueue, hlog]
        rcases t.worker.handle (.animationFrame timestamp) with ⟨_ | why, worker⟩ <;> rfl
  | leaving ticket | answering ticket | closing | finished | died why =>
    refine ⟨log, ?_⟩
    simp only [advance, logged, hphase]
    rfl

theorem post_logged (t : UiThread σ) (log : List ManagerCall) (command : Command) :
    (t.logged log).post command = ((t.post command).1, (t.post command).2.logged log) := by
  have hopen : (t.logged log).isOpen = t.isOpen := rfl
  rw [post, post, hopen]
  split <;> rfl

theorem requestShutdown_logged (t : UiThread σ) (log : List ManagerCall) :
    (t.logged log).requestShutdown =
      (t.requestShutdown.1, t.requestShutdown.2.logged log) := by
  have hticket : (t.logged log).nextTicket = t.nextTicket := rfl
  rw [requestShutdown, requestShutdown, post_logged, hticket]
  rcases t.post (.shutdown t.nextTicket) with ⟨_ | _, t'⟩ <;> rfl

theorem next_logged (t : UiThread σ) (log : List ManagerCall) (move : Move) :
    ∃ log', (t.logged log).next move = (t.next move).logged log' := by
  have hclients : (t.logged log).hasClients = t.hasClients := rfl
  cases move with
  | post command =>
    refine ⟨log, ?_⟩
    rw [next, next, hclients, post_logged]
    split <;> rfl
  | requestShutdown =>
    refine ⟨log, ?_⟩
    rw [next, next, hclients, requestShutdown_logged]
    split <;> rfl
  | leave => exact ⟨log, rfl⟩
  | advance =>
    obtain ⟨log', hlog⟩ := t.advance_logged log
    rw [next, next, hlog]
    cases t.advance with
    | none => exact ⟨log, rfl⟩
    | some t' => exact ⟨log', rfl⟩

theorem accepts_logged (t : UiThread σ) (log : List ManagerCall) (move : Move) :
    (t.logged log).accepts move = t.accepts move := by
  cases move <;> rfl

theorem afterMoves_logged (t : UiThread σ) (log : List ManagerCall) (moves : List Move) :
    ∃ log', (t.logged log).afterMoves moves = (t.afterMoves moves).logged log' := by
  induction moves generalizing t log with
  | nil => exact ⟨log, rfl⟩
  | cons move rest ih =>
    obtain ⟨log₁, hlog₁⟩ := t.next_logged log move
    obtain ⟨log₂, hlog₂⟩ := ih (t.next move) log₁
    refine ⟨log₂, ?_⟩
    show ((t.logged log).next move).afterMoves rest = _
    rw [hlog₁, hlog₂]
    rfl

theorem channel_logged (t : UiThread σ) (log : List ManagerCall) (moves : List Move) :
    (t.logged log).channel moves = t.channel moves := by
  induction moves generalizing t log with
  | nil => rfl
  | cons move rest ih =>
    obtain ⟨log', hlog⟩ := t.next_logged log move
    rw [channel, channel, accepts_logged, hlog, ih]

theorem settle_logged (t : UiThread σ) (log : List ManagerCall) :
    ∃ log', (t.logged log).settle = t.settle.logged log' := by
  rw [settle_eq_afterMoves, settle_eq_afterMoves]
  exact t.afterMoves_logged log _

/-! ## The law -/

/-- **What a worker does in a run**, whatever order its clients and itself are scheduled in. The
thread may have got commands before. It ends if it has a reason to: a request to shut down, or no
clients. Unless a command before the first request to shut down panics,

* exactly the commands before the first request to shut down are handled, once each and in the order
  of the channel; the request gets its answer;
* the events are those of the receipts, and then the end of the runtime is reported;
* a manager that logs its calls ends up with exactly those of the receipts, and nothing else of the
  run is changed by that. -/
theorem worker_run_law (t : UiThread σ) (moves : List Move) (hphase : t.phase = .serving)
    (hends : (∃ command ∈ t.queue ++ t.channel moves, command.ticket? ≠ none) ∨
      (t.afterMoves moves).hasClients = false)
    (hsurvives : t.worker.Survives (beforeShutdown (t.queue ++ t.channel moves))) :
    let sent := t.queue ++ t.channel moves
    let ended := (t.afterMoves moves).settle
    ended.phase = .finished ∧
    ended.answered = t.answered ++ (firstTicket? sent).toList ∧
    ∃ receipts w, t.worker.Serves receipts w ∧
      receipts.map (·.command) = beforeShutdown sent ∧
      ended.worker = w.emit (.runtimeShutdown t.worker.runtimeId) ∧
      ended.worker.events = t.worker.events ++ receipts.flatMap (·.events) ++
        [.runtimeShutdown t.worker.runtimeId] ∧
      ((t.logged []).afterMoves moves).settle =
        ended.logged (receipts.flatMap (·.managerCalls)) := by
  intro sent ended
  have hendsEnded : (∃ command ∈ sent, command.ticket? ≠ none) ∨ ended.hasClients = false := by
    rw [hasClients_settle]
    exact hends
  obtain ⟨hfinished, hanswered, receipts, w, hserves, hcommands, hworker⟩ :=
    (tracks_run hphase moves).finished (advance_settle _) hendsEnded hsurvives
  -- The run with a log goes the same way, so it tracks the same commands.
  let endedLogged := ((t.logged []).afterMoves moves).settle
  obtain ⟨log, hlog⟩ : ∃ log, endedLogged = ended.logged log := by
    obtain ⟨log₁, hlog₁⟩ := t.afterMoves_logged [] moves
    show ∃ log, ((t.logged []).afterMoves moves).settle = _
    rw [hlog₁]
    exact (t.afterMoves moves).settle_logged log₁
  have htracksLogged : (t.logged []).Tracks sent endedLogged := by
    have hrun := tracks_run (t := t.logged []) hphase moves
    rw [channel_logged] at hrun
    exact hrun
  have hendsLogged :
      (∃ command ∈ sent, command.ticket? ≠ none) ∨ endedLogged.hasClients = false := by
    rw [hlog]
    exact hendsEnded
  obtain ⟨_, _, receipts', w', hserves', hcommands', hworker'⟩ :=
    htracksLogged.finished (advance_settle _) hendsLogged (hsurvives.logged [])
  -- Both runs end with the same worker, up to the log.
  obtain ⟨w₀, hserves₀, rfl⟩ := hserves'.of_logged
  obtain rfl := hserves₀.worker_unique hserves (hcommands'.trans hcommands.symm)
  have hsame : log = receipts'.flatMap (·.managerCalls) := by
    rw [hlog] at hworker'
    exact congrArg (fun worker => worker.managerState.2) hworker'
  have hid : w₀.runtimeId = t.worker.runtimeId := hserves₀.runtimeId_eq
  refine ⟨hfinished, hanswered, receipts', w₀, hserves₀, hcommands', ?_, ?_, ?_⟩
  · rw [hworker, hid]
  · rw [hworker, hid, Worker.emit, hserves₀.events_eq]
  · rw [← hsame]
    exact hlog

/-- A thread of a fresh runtime whose manager accepts every start and does nothing. -/
def idle : UiThread Unit where
  runtimeId := ⟨1⟩
  worker :=
    { machine := { runtime := .new ⟨1⟩ .ui, env := { host := .new default } }
      manager := { start := fun _ _ _ _ => .result (.ok (), ()) }
      managerState := ()
      servesFrames := true }
  eventCapacity := 16

/-- Two commands before the request to shut down, and one after it. -/
theorem idle_serves_two :
    let start : Command := .startAnimation (.mk 7 .entering (.single default))
    let moves : List Move :=
      [.post start, .advance, .post (.animationFrame .zero), .requestShutdown, .post start]
    let ended := (idle.afterMoves moves).settle
    ended.phase = .finished ∧ ended.answered = [0] ∧
      ∃ receipts w, idle.worker.Serves receipts w ∧
        receipts.map (·.command) = [start, .animationFrame .zero] ∧
        ended.worker.events = receipts.flatMap (·.events) ++ [.runtimeShutdown ⟨1⟩] := by
  intro start moves ended
  have hsent : idle.queue ++ idle.channel moves =
      [start, .animationFrame .zero, .shutdown 0, start] := rfl
  have hends : ∃ command ∈ idle.queue ++ idle.channel moves, command.ticket? ≠ none :=
    ⟨.shutdown 0, by rw [hsent]; simp, nofun⟩
  obtain ⟨hfinished, hanswered, receipts, w, hserves, hcommands, _, hevents, _⟩ :=
    worker_run_law idle moves rfl (Or.inl hends) ⟨rfl, rfl, trivial⟩
  rw [hsent] at hanswered hcommands
  have hended : ended = (idle.afterMoves moves).settle := rfl
  rw [hended]
  exact ⟨hfinished, hanswered, receipts, w, hserves, hcommands, hevents⟩

end UiThread

end ScriptBridge
