import ScriptBridge.Animation.Proxy
import ScriptBridge.Proofs.WorkerRun

/-!
# How a thread ends

A thread ends on a request to shut down or by a panic of a handler, whichever comes first in its
channel. Any number of requests may be made, by any client at any time. Each of them is answered, at
most one of them with success.

* `UiThread.StopsOrderly`, `UiThread.StopsInPanic` — what the two ends have to come to, for the
  commands, the events, the requests, and for who waits for the end.
* `UiThread.Refuses` — what is left to clients after either end.
* `UiThread.Tracks.completed_of_answered` — what an answer of success tells when it is given.
* `UiThread.Tracks.stopsOrderly`, `UiThread.Tracks.stopsInPanic` — what the invariant of all moves
  says at the end.
* `UiThread.nodup_tickets_channel` — requests to shut down have tickets of their own.
* `shutdown_law` — both ends, whatever order the clients and the thread are scheduled in.
-/

namespace ScriptBridge

variable {σ : Type}

/-! ## Panics of a worker -/

namespace Worker

variable {w w' : Worker σ} {receipt : Receipt} {receipts : List Receipt}

theorem Serves.survives (h : w.Serves receipts w') : w.Survives (receipts.map (·.command)) := by
  induction h with
  | done w => trivial
  | next hhandles _ ih =>
    rw [List.map_cons, Survives, hhandles.handle_eq]
    exact ⟨rfl, ih⟩

/-- A command that panics sends no event. -/
theorem events_of_halted {command : Command} {why : Halt}
    (h : w.handle command = (some why, w')) : w'.events = w.events := by
  cases command with
  | startAnimation request =>
    change w.startAnimation request = _ at h
    rw [startAnimation] at h
    split at h
    · cases (Prod.mk.inj h).1
    · obtain rfl := (Prod.mk.inj h).2
      rfl
  | animationFrame timestamp =>
    change w.animationFrame timestamp = _ at h
    rw [animationFrame] at h
    split at h
    · split at h
      · cases (Prod.mk.inj h).1
      · cases (Prod.mk.inj h).1
      · obtain rfl := (Prod.mk.inj h).2
        rfl
    · cases (Prod.mk.inj h).1
  | shutdown ticket => cases (Prod.mk.inj h).1

/-- Handling a command does not report that the runtime is gone. -/
theorem Handles.runtimeShutdown_not_mem (h : w.Handles receipt w') (runtime : RuntimeId) :
    .runtimeShutdown runtime ∉ receipt.events := by
  cases h <;> simp

theorem Serves.runtimeShutdown_not_mem (h : w.Serves receipts w') (runtime : RuntimeId) :
    .runtimeShutdown runtime ∉ receipts.flatMap (·.events) := by
  induction h with
  | done w => nofun
  | next hhandles _ ih =>
    rw [List.flatMap_cons, List.mem_append, not_or]
    exact ⟨hhandles.runtimeShutdown_not_mem runtime, ih⟩

end Worker

namespace UiThread

variable {t t' : UiThread σ}

/-! ## Tickets -/

/-- The tickets of the requests to shut down among some commands. -/
def tickets (sent : List Command) : List Ticket := sent.filterMap Command.ticket?

theorem tickets_append (sent rest : List Command) :
    tickets (sent ++ rest) = tickets sent ++ tickets rest :=
  List.filterMap_append

/-- A move takes no ticket, or it takes the next one. -/
theorem tickets_accepts (t : UiThread σ) {move : Move}
    (hpost : ∀ ticket, move ≠ .post (.shutdown ticket)) :
    (tickets (t.accepts move) = [] ∧ (t.next move).nextTicket = t.nextTicket) ∨
      (tickets (t.accepts move) = [t.nextTicket] ∧
        (t.next move).nextTicket = t.nextTicket + 1) := by
  cases move with
  | post command =>
    have hticket : tickets [command] = [] := by
      cases command with
      | shutdown ticket => exact absurd rfl (hpost ticket)
      | _ => rfl
    rw [accepts, next, post]
    cases t.hasClients <;> cases t.isOpen <;> exact Or.inl ⟨by first | rfl | exact hticket, rfl⟩
  | requestShutdown =>
    rw [accepts, next, requestShutdown, post]
    cases t.hasClients <;> cases t.isOpen <;>
      first | exact Or.inl ⟨rfl, rfl⟩ | exact Or.inr ⟨rfl, rfl⟩
  | leave => exact Or.inl ⟨rfl, rfl⟩
  | advance =>
    refine Or.inl ⟨rfl, ?_⟩
    show (t.advance.getD t).nextTicket = _
    cases hadvance : t.advance with
    | none => rfl
    | some t' => cases advances_of_advance hadvance <;> rfl

/-- Requests to shut down have tickets of their own, unless a client posts one that it made
up. -/
theorem nodup_tickets_channel {moves : List Move} {sent : List Command}
    (hposts : ∀ ticket, .post (.shutdown ticket) ∉ moves)
    (hbelow : ∀ ticket ∈ tickets sent, ticket < t.nextTicket) (hsent : (tickets sent).Nodup) :
    (tickets (sent ++ t.channel moves)).Nodup := by
  induction moves generalizing t sent with
  | nil =>
    rw [channel, List.append_nil]
    exact hsent
  | cons move rest ih =>
    have hmove : ∀ ticket, move ≠ .post (.shutdown ticket) :=
      fun ticket heq => hposts ticket (heq ▸ List.mem_cons_self)
    have hrest : ∀ ticket, .post (.shutdown ticket) ∉ rest :=
      fun ticket hmem => hposts ticket (List.mem_cons_of_mem move hmem)
    rw [channel, ← List.append_assoc]
    refine ih hrest ?below ?nodup
    case below =>
      intro ticket hmem
      rw [tickets_append, List.mem_append] at hmem
      rcases t.tickets_accepts hmove with ⟨haccepts, hnext⟩ | ⟨haccepts, hnext⟩
      · rw [haccepts] at hmem
        rw [hnext]
        exact hbelow ticket (hmem.resolve_right List.not_mem_nil)
      · rw [haccepts, List.mem_singleton] at hmem
        rw [hnext]
        rcases hmem with hmem | rfl
        · exact Nat.lt_succ_of_lt (hbelow ticket hmem)
        · exact Nat.lt_succ_self _
    case nodup =>
      rw [tickets_append]
      rcases t.tickets_accepts hmove with ⟨haccepts, _⟩ | ⟨haccepts, _⟩
      · rw [haccepts, List.append_nil]
        exact hsent
      · rw [haccepts]
        refine List.nodup_append.mpr ⟨hsent, List.pairwise_singleton _ _, ?_⟩
        rintro ticket hmem _ hnew rfl
        rw [List.mem_singleton] at hnew
        exact Nat.ne_of_lt (hbelow ticket hmem) hnew

/-! ## After the end -/

/-- What is left to clients of a thread that has ended. -/
structure Refuses (t : UiThread σ) : Prop where
  /-- Whatever is posted is refused, and nothing changes. -/
  post : ∀ command, t.post command = (.error .channelClosed, t)
  start : ∀ request : AnimationRequest, request.post t = (.error .channelClosed, t)
  requestShutdown : t.requestShutdown = (.error .channelClosed, t)
  shutdown : t.shutdown = (.error .channelClosed, t)
  /-- Nothing but the departure of the clients can happen any more. -/
  still : ∀ moves, ∃ hasClients, t.afterMoves moves = { t with hasClients }
  /-- No request is left without an answer. -/
  answered : ∀ ticket, ∃ answer, t.answerTo ticket = some answer

theorem next_of_closed (h : t.isOpen = false) (move : Move) :
    ∃ hasClients, t.next move = { t with hasClients } := by
  cases move with
  | post command =>
    refine ⟨t.hasClients, ?_⟩
    rw [next, post_of_closed h, ite_self]
  | requestShutdown =>
    refine ⟨t.hasClients, ?_⟩
    rw [next, requestShutdown_of_closed h, ite_self]
  | leave => exact ⟨false, rfl⟩
  | advance =>
    refine ⟨t.hasClients, ?_⟩
    rw [next, advance_of_closed h]
    rfl

theorem afterMoves_of_closed (h : t.isOpen = false) (moves : List Move) :
    ∃ hasClients, t.afterMoves moves = { t with hasClients } := by
  induction moves generalizing t with
  | nil => exact ⟨t.hasClients, rfl⟩
  | cons move rest ih =>
    obtain ⟨hasClients, hnext⟩ := t.next_of_closed h move
    show ∃ hasClients, (t.next move).afterMoves rest = { t with hasClients }
    rw [hnext]
    exact ih h

theorem refuses_of_closed (h : t.isOpen = false) : t.Refuses where
  post := post_of_closed h
  start request := post_of_closed h _
  requestShutdown := requestShutdown_of_closed h
  shutdown := by rw [shutdown, requestShutdown_of_closed h]
  still := afterMoves_of_closed h
  answered ticket := ⟨_, answerTo_of_closed h ticket⟩

/-! ## Waiting for the end -/

theorem joined_next (t : UiThread σ) (move : Move) : (t.next move).joined = t.joined := by
  have hmoves := moves_next t move
  revert hmoves
  generalize t.accepts move = accepted, t.next move = t'
  rintro (_ | _ | _ | hadvance)
  · rfl
  · rfl
  · rfl
  · cases hadvance <;> rfl

theorem joined_afterMoves (t : UiThread σ) (moves : List Move) :
    (t.afterMoves moves).joined = t.joined := by
  induction moves generalizing t with
  | nil => rfl
  | cons move rest ih => exact (ih (t.next move)).trans (t.joined_next move)

/-- Only the first one to wait learns how the thread ended, all others are told that it did. -/
theorem join_of_joined (h : t.joined = true) : t.join = some (.ok (), t) := by
  rw [join, if_pos h]

theorem join_of_finished (hjoined : t.joined = false) (h : t.settle.phase = .finished) :
    t.join = some (.ok (), { t.settle with joined := true }) := by
  rw [join, hjoined]
  simp only [Bool.false_eq_true, if_false, h]

theorem join_of_died (hjoined : t.joined = false) {why : Halt}
    (h : t.settle.phase = .died why) :
    t.join = some (.error .threadPanicked, { t.settle with joined := true }) := by
  rw [join, hjoined]
  simp only [Bool.false_eq_true, if_false, h]

/-- Whoever waits for the end finds the thread closed. -/
theorem closed_of_join (hjoined : t.joined = false) {ended : Except BridgeError Unit × UiThread σ}
    (h : t.join = some ended) :
    ended.2 = { t.settle with joined := true } ∧ ended.2.isOpen = false := by
  rcases phase_of_advance_eq_none t.advance_settle with ⟨hphase, _⟩ | hphase | ⟨why, hphase⟩
  · rw [join, hjoined] at h
    simp only [Bool.false_eq_true, if_false, hphase] at h
    cases h
  · rw [join_of_finished hjoined hphase] at h
    obtain rfl := Option.some.inj h
    exact ⟨rfl, by rw [isOpen, hphase]⟩
  · rw [join_of_died hjoined hphase] at h
    obtain rfl := Option.some.inj h
    exact ⟨rfl, by rw [isOpen, hphase]⟩

/-! ## The two ends -/

/-- The worker has handled exactly the commands before the first request to shut down, and has then
reported that the runtime is gone. -/
def Completed (t : UiThread σ) (sent : List Command) (worker : Worker σ) : Prop :=
  ∃ receipts w, t.worker.Serves receipts w ∧ receipts.map (·.command) = beforeShutdown sent ∧
    worker = w.emit (.runtimeShutdown t.worker.runtimeId) ∧
    worker.events = t.worker.events ++ receipts.flatMap (·.events) ++
      [.runtimeShutdown t.worker.runtimeId]

/-- How a thread `t` that got the commands `sent` has to end if no command before the first request
to shut down panics. The request has the ticket `first`, and the commands `later` come after it.
The clients see the thread as it is in `reached`. -/
structure StopsOrderly (t : UiThread σ) (sent : List Command) (first : Ticket)
    (later : List Command) (reached : UiThread σ) : Prop where
  finished : reached.settle.phase = .finished
  completed : t.Completed sent reached.settle.worker
  first_ok : reached.settle.answerTo first = some (.ok ())
  later_closed : ∀ ticket ∈ tickets later,
    reached.settle.answerTo ticket = some (.error .channelClosed)
  join : reached.join = some (.ok (), { reached.settle with joined := true })
  refuses : reached.settle.Refuses

/-- How a thread `t` that got the commands `sent` has to end if a command before the first request
to shut down panics. -/
structure StopsInPanic (t : UiThread σ) (sent : List Command) (reached : UiThread σ) : Prop where
  /-- The commands up to the one that panics are handled, and none after it. -/
  handled : ∃ receipts w command later why, sent = receipts.map (·.command) ++ command :: later ∧
    t.worker.Serves receipts w ∧ w.handle command = (some why, reached.settle.worker) ∧
    reached.settle.phase = .died why ∧
    reached.settle.worker.events = t.worker.events ++ receipts.flatMap (·.events)
  /-- It is not reported that the runtime is gone. -/
  silent : ∀ runtime, .runtimeShutdown runtime ∉
    reached.settle.worker.events.drop t.worker.events.length
  closed : ∀ ticket ∈ tickets sent,
    reached.settle.answerTo ticket = some (.error .channelClosed)
  join : reached.join = some (.error .threadPanicked, { reached.settle with joined := true })
  refuses : reached.settle.Refuses

theorem answerTo_eq_ok_iff {ticket : Ticket} :
    t.answerTo ticket = some (.ok ()) ↔ ticket ∈ t.answered := by
  rw [answerTo]
  split
  · next hmem => exact ⟨fun _ => hmem, fun _ => rfl⟩
  · next hmem =>
    refine ⟨fun h => ?_, fun h => absurd h hmem⟩
    split at h <;> cases h

variable {t₀ : UiThread σ} {sent : List Command}

/-- **The answer comes last.** A request that is answered with success is the first one of the
channel. By then everything before it is handled, and the end of the runtime is reported. -/
theorem Tracks.completed_of_answered (h : t₀.Tracks sent t) (hnone : t₀.answered = [])
    {ticket : Ticket} (hmem : ticket ∈ t.answered) :
    firstTicket? sent = some ticket ∧ t₀.Completed sent t.worker := by
  obtain ⟨receipts, w, hserves, hstands⟩ := h
  have hhandled := hserves.ticket?_commands
  rw [hnone] at hstands
  unfold Stands at hstands
  cases hphase : t.phase with
  | serving | leaving _ | answering _ =>
    rw [hphase] at hstands
    rw [hstands.2.1] at hmem
    cases hmem
  | died why =>
    rw [hphase] at hstands
    rw [hstands.1] at hmem
    cases hmem
  | closing | finished =>
    rw [hphase] at hstands
    obtain ⟨hworker, first, hanswered, hleft⟩ := hstands
    obtain ⟨hcommands, hfirst⟩ := hleft.handled_eq hhandled
    rw [hanswered, List.nil_append, Option.mem_toList] at hmem
    refine ⟨hfirst.symm.trans hmem, receipts, w, hserves, hcommands, ?_, ?_⟩
    · rw [hworker, hserves.runtimeId_eq]
    · rw [hworker, Worker.emit, hserves.events_eq, hserves.runtimeId_eq]

/-- A thread of which a command panics before the first request to shut down is dead when it cannot
advance. -/
theorem Tracks.died (h : t₀.Tracks sent t) (hidle : t.advance = none)
    (hpanics : ¬ t₀.worker.Survives (beforeShutdown sent)) :
    ∃ receipts w command later why, sent = receipts.map (·.command) ++ command :: later ∧
      t₀.worker.Serves receipts w ∧ w.handle command = (some why, t.worker) ∧
      t.phase = .died why ∧ t.answered = t₀.answered := by
  obtain ⟨receipts, w, hserves, hstands⟩ := h
  have hhandled := hserves.ticket?_commands
  rcases phase_of_advance_eq_none hidle with ⟨hphase, hqueue, _⟩ | hphase | ⟨why, hphase⟩
  · -- A waiting thread has handled everything, so nothing panicked.
    rw [Stands, hphase] at hstands
    obtain ⟨_, _, hsent⟩ := hstands
    rw [hqueue] at hsent
    have hall : beforeShutdown sent = receipts.map (·.command) := by
      rw [hsent, beforeShutdown_append hhandled]
      exact List.append_nil _
    rw [hall] at hpanics
    exact absurd hserves.survives hpanics
  · -- Neither did anything before the request that ended the loop.
    rw [Stands, hphase] at hstands
    obtain ⟨_, ticket, _, hleft⟩ := hstands
    rw [← (hleft.handled_eq hhandled).1] at hpanics
    exact absurd hserves.survives hpanics
  · rw [Stands, hphase] at hstands
    obtain ⟨hanswered, command, later, hsent, _, hhandle⟩ := hstands
    exact ⟨receipts, w, command, later, why, hsent, hserves, hhandle, hphase, hanswered⟩

/-- A thread that reads a request to shut down, and of which no command before it panics. -/
theorem Tracks.stopsOrderly {moves : List Move} {first : Ticket} {later : List Command}
    (h : t₀.Tracks sent (t₀.afterMoves moves).settle) (hnone : t₀.answered = [])
    (hjoined : t₀.joined = false) (hunique : (tickets sent).Nodup)
    {before : List Command} (hsent : sent = before ++ .shutdown first :: later)
    (hbefore : ∀ command ∈ before, command.ticket? = none)
    (hsurvives : t₀.worker.Survives before) :
    t₀.StopsOrderly sent first later (t₀.afterMoves moves) := by
  let reached := t₀.afterMoves moves
  have heq : beforeShutdown sent = before := by
    rw [hsent, beforeShutdown_append hbefore]
    exact List.append_nil before
  have hfirst : firstTicket? sent = some first := by
    rw [hsent, firstTicket?, List.findSome?_append, List.findSome?_eq_none_iff.mpr hbefore]
    rfl
  have hmem : (.shutdown first : Command) ∈ sent := by
    rw [hsent]
    exact List.mem_append_right _ List.mem_cons_self
  obtain ⟨hfinished, hanswered, _⟩ :=
    h.finished (advance_settle reached) (Or.inl ⟨_, hmem, Option.some_ne_none first⟩)
      (heq ▸ hsurvives)
  rw [hnone, hfirst] at hanswered
  have hanswer : first ∈ reached.settle.answered := by
    rw [hanswered]
    exact List.mem_cons_self
  have hclosed : reached.settle.isOpen = false := by rw [isOpen, hfinished]
  refine ⟨hfinished, (h.completed_of_answered hnone hanswer).2, answerTo_eq_ok_iff.mpr hanswer,
    ?later, join_of_finished ((t₀.joined_afterMoves moves).trans hjoined) hfinished,
    refuses_of_closed hclosed⟩
  case later =>
    intro ticket hticket
    -- The ticket is another one, since all tickets of the channel are different.
    rw [hsent, tickets_append] at hunique
    have hother : first ∉ tickets later :=
      (List.nodup_cons.mp (List.nodup_append.mp hunique).2.1).1
    rw [answerTo_of_closed hclosed, hanswered, if_neg]
    intro hsame
    rw [List.mem_singleton.mp hsame] at hticket
    exact hother hticket

theorem Tracks.stopsInPanic {moves : List Move}
    (h : t₀.Tracks sent (t₀.afterMoves moves).settle) (hnone : t₀.answered = [])
    (hjoined : t₀.joined = false) (hpanics : ¬ t₀.worker.Survives (beforeShutdown sent)) :
    t₀.StopsInPanic sent (t₀.afterMoves moves) := by
  let reached := t₀.afterMoves moves
  obtain ⟨receipts, w, command, later, why, hsent, hserves, hhandle, hphase, hanswered⟩ :=
    h.died (advance_settle reached) hpanics
  have hevents : reached.settle.worker.events =
      t₀.worker.events ++ receipts.flatMap (·.events) := by
    rw [Worker.events_of_halted hhandle, hserves.events_eq]
  have hclosed : reached.settle.isOpen = false := by rw [isOpen, hphase]
  refine ⟨⟨receipts, w, command, later, why, hsent, hserves, hhandle, hphase, hevents⟩, ?silent,
    ?closed, join_of_died ((t₀.joined_afterMoves moves).trans hjoined) hphase,
    refuses_of_closed hclosed⟩
  case silent =>
    rw [hevents, List.drop_left]
    exact hserves.runtimeShutdown_not_mem
  case closed =>
    intro ticket _
    rw [answerTo_of_closed hclosed, hanswered, hnone, if_neg List.not_mem_nil]

/-- Success is for one request only, whenever it is asked for. -/
theorem answered_unique (hphase : t.phase = .serving) (hnone : t.answered = [])
    {moves more : List Move} {ticket other : Ticket}
    (h : ticket ∈ (t.afterMoves moves).answered)
    (h' : other ∈ ((t.afterMoves moves).afterMoves more).answered) : ticket = other := by
  have htracks := (tracks_of_serving hphase).afterMoves moves
  have hfirst := (htracks.completed_of_answered hnone h).1
  have hother := ((htracks.afterMoves more).completed_of_answered hnone h').1
  rw [firstTicket?] at hfirst hother
  rw [List.findSome?_append, hfirst] at hother
  exact Option.some.inj hother

/-! ## The law -/

/--
**How a thread ends.** The thread serves, nobody has waited for it yet, and no request to shut down
was answered. Clients and the thread may be scheduled in any order, with any number of requests.

* If there is a request to shut down and no command before the first one panics, the thread stops in
  order; if one of them panics, it stops with the panic.
* An answer of success tells that everything before the request was handled and that the end of the
  runtime was reported. There is at most one such answer.
* A thread that has ended refuses whatever is asked, and leaves no request without an answer.
  Whoever waits once more for its end is told nothing of a panic.
-/
theorem shutdown_law (t : UiThread σ) (moves : List Move) (hphase : t.phase = .serving)
    (hnone : t.answered = []) (hjoined : t.joined = false)
    (hunique : (tickets (t.queue ++ t.channel moves)).Nodup) :
    let sent := t.queue ++ t.channel moves
    let reached := t.afterMoves moves
    (∀ before first later, sent = before ++ .shutdown first :: later →
      (∀ command ∈ before, command.ticket? = none) → t.worker.Survives before →
        t.StopsOrderly sent first later reached) ∧
    (¬ t.worker.Survives (beforeShutdown sent) → t.StopsInPanic sent reached) ∧
    (∀ ticket, reached.answerTo ticket = some (.ok ()) →
      firstTicket? sent = some ticket ∧ t.Completed sent reached.worker) ∧
    (∀ more ticket other, reached.answerTo ticket = some (.ok ()) →
      (reached.afterMoves more).answerTo other = some (.ok ()) → ticket = other) ∧
    (reached.isOpen = false → reached.Refuses) ∧
    ∀ ended, reached.join = some ended → ended.2.Refuses ∧
      ∀ more, (ended.2.afterMoves more).join = some (.ok (), ended.2.afterMoves more) := by
  intro sent reached
  have htracks : t.Tracks sent reached := (tracks_of_serving hphase).afterMoves moves
  have hsettled : t.Tracks sent reached.settle := htracks.settle
  refine ⟨fun before first later hsent => hsettled.stopsOrderly hnone hjoined hunique hsent,
    hsettled.stopsInPanic hnone hjoined, ?temporal, ?once, refuses_of_closed, ?joins⟩
  case temporal =>
    intro ticket hanswer
    exact htracks.completed_of_answered hnone (answerTo_eq_ok_iff.mp hanswer)
  case once =>
    intro more ticket other hanswer hother
    exact answered_unique hphase hnone (answerTo_eq_ok_iff.mp hanswer)
      (answerTo_eq_ok_iff.mp hother)
  case joins =>
    intro ended hjoin
    obtain ⟨hended, hclosed⟩ :=
      closed_of_join ((t.joined_afterMoves moves).trans hjoined) hjoin
    refine ⟨refuses_of_closed hclosed, fun more => join_of_joined ?_⟩
    rw [joined_afterMoves, hended]

/-- Two requests to shut down, and commands before, between and after them. -/
theorem idle_answers_one_request :
    let start : Command := .startAnimation (.mk 7 .entering (.single default))
    let moves : List Move :=
      [.post start, .requestShutdown, .advance, .post start, .requestShutdown, .post start]
    let reached := idle.afterMoves moves
    reached.settle.answerTo 0 = some (.ok ()) ∧
      reached.settle.answerTo 1 = some (.error .channelClosed) ∧
      reached.join = some (.ok (), { reached.settle with joined := true }) ∧
      reached.settle.Refuses := by
  intro start moves reached
  have hsent : idle.queue ++ idle.channel moves =
      [start] ++ .shutdown 0 :: [start, .shutdown 1, start] := rfl
  have hunique : (tickets (idle.queue ++ idle.channel moves)).Nodup :=
    nodup_tickets_channel (by simp [moves, start]) nofun List.nodup_nil
  have hstart : ∀ command ∈ [start], command.ticket? = none := by
    intro command hmem
    rw [List.mem_singleton.mp hmem]
    rfl
  have hstops := (shutdown_law idle moves rfl rfl rfl hunique).1 [start] 0
    [start, .shutdown 1, start] hsent hstart ⟨rfl, trivial⟩
  exact ⟨hstops.first_ok, hstops.later_closed 1 List.mem_cons_self, hstops.join, hstops.refuses⟩

end UiThread

end ScriptBridge
