import ScriptBridge.Proofs.Receipts
import ScriptBridge.Thread.UiThread

/-!
# Interleavings of a thread and its clients

Clients post whenever they like, and the thread advances whenever it is scheduled. A run is a list
of moves of either side in any order.

* `UiThread.Advances` — what one step of the thread can do.
* `UiThread.Move` — what can happen next to a thread: a client acts, or the thread advances.
* `UiThread.Moves` — what a move can do, and which command the channel accepts in it.
* `UiThread.advance_settle` — a thread that settles ends up where it cannot advance; it does so in
  moves of its own.
-/

namespace ScriptBridge

variable {σ : Type}

namespace UiThread

variable {t t' : UiThread σ}

/-! ## Steps of the thread -/

/-- What one step of the thread can do. -/
inductive Advances (t : UiThread σ) : UiThread σ → Prop where
  /-- No client is left, and all commands are handled. -/
  | left (hphase : t.phase = .serving) (hqueue : t.queue = []) (hclients : t.hasClients = false) :
      Advances t { t with phase := .leaving none }
  /-- A request to shut down is read. -/
  | stopped (ticket : Ticket) (rest : List Command) (hphase : t.phase = .serving)
      (hqueue : t.queue = .shutdown ticket :: rest) :
      Advances t { t with queue := rest, phase := .leaving (some ticket) }
  /-- Any other command is read and handled. -/
  | handled (command : Command) (rest : List Command) (worker : Worker σ)
      (hphase : t.phase = .serving) (hqueue : t.queue = command :: rest)
      (hticket : command.ticket? = none) (hhandle : t.worker.handle command = (none, worker)) :
      Advances t { t with worker, queue := rest }
  | panicked (command : Command) (rest : List Command) (why : Halt) (worker : Worker σ)
      (hphase : t.phase = .serving) (hqueue : t.queue = command :: rest)
      (hticket : command.ticket? = none)
      (hhandle : t.worker.handle command = (some why, worker)) :
      Advances t { t with worker, queue := [], phase := .died why }
  | reported (ticket : Option Ticket) (hphase : t.phase = .leaving ticket) :
      Advances t
        { t with
          worker := t.worker.emit (.runtimeShutdown t.worker.runtimeId)
          phase := .answering ticket }
  | answered (ticket : Option Ticket) (hphase : t.phase = .answering ticket) :
      Advances t { t with answered := t.answered ++ ticket.toList, phase := .closing }
  | closed (hphase : t.phase = .closing) : Advances t { t with queue := [], phase := .finished }

theorem advances_of_advance (h : t.advance = some t') : t.Advances t' := by
  unfold advance at h
  split at h
  · next hphase hqueue =>
    by_cases hclients : t.hasClients = true
    · rw [if_pos hclients] at h
      cases h
    · rw [if_neg hclients] at h
      obtain rfl := Option.some.inj h
      exact .left hphase hqueue (eq_false_of_ne_true hclients)
  · next ticket rest hphase hqueue =>
    obtain rfl := Option.some.inj h
    exact .stopped ticket rest hphase hqueue
  · next command rest hnot hphase hqueue =>
    have hticket : command.ticket? = none := by
      cases command with
      | shutdown ticket => exact absurd rfl (hnot ticket)
      | _ => rfl
    split at h
    · next worker hhandle =>
      obtain rfl := Option.some.inj h
      exact .handled command rest worker hphase hqueue hticket hhandle
    · next why worker hhandle =>
      obtain rfl := Option.some.inj h
      exact .panicked command rest why worker hphase hqueue hticket hhandle
  · next ticket hphase =>
    obtain rfl := Option.some.inj h
    exact .reported ticket hphase
  · next ticket hphase =>
    obtain rfl := Option.some.inj h
    exact .answered ticket hphase
  · next hphase =>
    obtain rfl := Option.some.inj h
    exact .closed hphase
  · cases h
  · cases h

/-- A thread that does not advance waits for a command, or has ended. -/
theorem phase_of_advance_eq_none (h : t.advance = none) :
    (t.phase = .serving ∧ t.queue = [] ∧ t.hasClients = true) ∨ t.phase = .finished ∨
      ∃ why, t.phase = .died why := by
  unfold advance at h
  split at h
  · next hphase hqueue =>
    by_cases hclients : t.hasClients = true
    · exact Or.inl ⟨hphase, hqueue, hclients⟩
    · rw [if_neg hclients] at h
      cases h
  · cases h
  · split at h <;> cases h
  · cases h
  · cases h
  · cases h
  · next hphase => exact Or.inr (Or.inl hphase)
  · next why hphase => exact Or.inr (Or.inr ⟨why, hphase⟩)

/-- Every step reads a command or comes closer to the end. -/
theorem Advances.remaining_lt (h : t.Advances t') :
    t'.queue.length + t'.phase.remaining < t.queue.length + t.phase.remaining := by
  cases h <;> simp_all [Phase.remaining]

/-! ## Moves -/

/-- What can happen next to a thread. -/
inductive Move where
  /-- A client posts a command. -/
  | post (command : Command)
  | requestShutdown
  /-- The last client leaves. -/
  | leave
  /-- The thread advances, if it can. -/
  | advance

/-- The thread after a move. Without a client, nobody posts. -/
def next (t : UiThread σ) : Move → UiThread σ
  | .post command => if t.hasClients then (t.post command).2 else t
  | .requestShutdown => if t.hasClients then t.requestShutdown.2 else t
  | .leave => { t with hasClients := false }
  | .advance => t.advance.getD t

/-- The command that the channel accepts in a move, if it does. -/
def accepts (t : UiThread σ) : Move → List Command
  | .post command => if t.hasClients && t.isOpen then [command] else []
  | .requestShutdown => if t.hasClients && t.isOpen then [.shutdown t.nextTicket] else []
  | _ => []

/-- What a move can do: the commands that the channel accepts in it, and the thread afterwards. -/
inductive Moves (t : UiThread σ) : List Command → UiThread σ → Prop where
  | nothing : Moves t [] t
  | accepted (command : Command) (nextTicket : Ticket) (hclients : t.hasClients = true)
      (hopen : t.isOpen = true) :
      Moves t [command] { t with queue := t.queue ++ [command], nextTicket }
  | clientsLeft : Moves t [] { t with hasClients := false }
  | advanced {t' : UiThread σ} (hadvance : t.Advances t') : Moves t [] t'

theorem requestShutdown_of_closed (h : t.isOpen = false) :
    t.requestShutdown = (.error .channelClosed, t) := by
  rw [requestShutdown, post_of_closed h]

theorem moves_next (t : UiThread σ) (move : Move) : t.Moves (t.accepts move) (t.next move) := by
  cases move with
  | post command =>
    rw [next, accepts]
    cases hclients : t.hasClients with
    | false => exact .nothing
    | true =>
      cases hopen : t.isOpen with
      | false =>
        rw [post_of_closed hopen]
        exact .nothing
      | true =>
        rw [post, hopen]
        exact .accepted command t.nextTicket hclients hopen
  | requestShutdown =>
    rw [next, accepts]
    cases hclients : t.hasClients with
    | false => exact .nothing
    | true =>
      cases hopen : t.isOpen with
      | false =>
        rw [requestShutdown_of_closed hopen]
        exact .nothing
      | true =>
        rw [requestShutdown, post, hopen]
        exact .accepted (.shutdown t.nextTicket) (t.nextTicket + 1) hclients hopen
  | leave => exact .clientsLeft
  | advance =>
    show t.Moves [] (t.advance.getD t)
    cases hadvance : t.advance with
    | none => exact .nothing
    | some t' => exact .advanced (advances_of_advance hadvance)

/-- The thread after some moves. -/
def afterMoves (t : UiThread σ) (moves : List Move) : UiThread σ := moves.foldl next t

/-- The commands that the channel accepts in some moves, in its order. -/
def channel : UiThread σ → List Move → List Command
  | _, [] => []
  | t, move :: rest => t.accepts move ++ (t.next move).channel rest

/-! ### Settling is a run of the thread alone -/

/-- A thread that cannot advance stays where it is. -/
theorem afterMoves_of_advance_eq_none (h : t.advance = none) (n : Nat) :
    t.afterMoves (List.replicate n .advance) = t := by
  induction n with
  | zero => rfl
  | succ n ih =>
    show (t.advance.getD t).afterMoves (List.replicate n .advance) = t
    rw [h]
    exact ih

theorem advanceTimes_eq_afterMoves (n : Nat) (t : UiThread σ) :
    advanceTimes n t = t.afterMoves (List.replicate n .advance) := by
  induction n generalizing t with
  | zero => rfl
  | succ n ih =>
    have hmoves : t.afterMoves (List.replicate (n + 1) .advance) =
        (t.advance.getD t).afterMoves (List.replicate n .advance) := rfl
    rw [advanceTimes, hmoves]
    cases hadvance : t.advance with
    | none => exact (afterMoves_of_advance_eq_none hadvance n).symm
    | some t' => exact ih t'

theorem settle_eq_afterMoves (t : UiThread σ) :
    t.settle =
      t.afterMoves (List.replicate (t.queue.length + t.phase.remaining) .advance) :=
  advanceTimes_eq_afterMoves _ t

theorem advance_advanceTimes {n : Nat} (h : t.queue.length + t.phase.remaining ≤ n) :
    (advanceTimes n t).advance = none := by
  induction n generalizing t with
  | zero =>
    cases hadvance : t.advance with
    | none => exact hadvance
    | some t' =>
      have hlt := (advances_of_advance hadvance).remaining_lt
      omega
  | succ n ih =>
    rw [advanceTimes]
    cases hadvance : t.advance with
    | none => exact hadvance
    | some t' =>
      have hlt := (advances_of_advance hadvance).remaining_lt
      exact ih (by omega)

/-- A settled thread cannot advance. -/
theorem advance_settle (t : UiThread σ) : t.settle.advance = none :=
  advance_advanceTimes (Nat.le_refl _)

theorem channel_advance (t : UiThread σ) (n : Nat) :
    t.channel (List.replicate n .advance) = [] := by
  induction n generalizing t with
  | zero => rfl
  | succ n ih => exact ih (t.next .advance)

theorem hasClients_advanceTimes (n : Nat) (t : UiThread σ) :
    (advanceTimes n t).hasClients = t.hasClients := by
  induction n generalizing t with
  | zero => rfl
  | succ n ih =>
    rw [advanceTimes]
    cases hadvance : t.advance with
    | none => rfl
    | some t' =>
      have hsame : t'.hasClients = t.hasClients := by cases advances_of_advance hadvance <;> rfl
      exact (ih t').trans hsame

theorem hasClients_settle (t : UiThread σ) : t.settle.hasClients = t.hasClients :=
  hasClients_advanceTimes _ t

end UiThread

end ScriptBridge
