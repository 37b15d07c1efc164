import ScriptBridge.Proofs.WorkerRun

/-!
# What runs add to a machine

A run only adds to the logs of a machine, and removes no global. So what was done before it, in the
set-up of a thread for example, comes first in whatever is observed later.

* `Machine.Extends` — a later state of a machine. Every run of a script leads to one.
* `UiThread.Tracks.extends` — a thread extends the machine that it started with, however it goes on.
-/

namespace ScriptBridge

/-! ## Runs of scripts and frames -/

namespace Machine

/-- A later state of a machine: what was logged before comes first, and no global is gone. -/
structure Extends (m m' : Machine) : Prop where
  calls : m.env.host.calls <+: m'.env.host.calls
  journal : m.env.journal <+: m'.env.journal
  runtime : m.runtime.Evolves m'.runtime

variable {m m' m'' : Machine}

theorem Extends.refl (m : Machine) : m.Extends m :=
  ⟨List.prefix_rfl, List.prefix_rfl, .refl m.runtime⟩

theorem Extends.trans (h : m.Extends m') (h' : m'.Extends m'') : m.Extends m'' :=
  ⟨h.calls.trans h'.calls, h.journal.trans h'.journal, h.runtime.trans h'.runtime⟩

theorem extends_effect (m : Machine) (op : Op) : m.Extends (m.effect op) := by
  cases op with
  | setGlobal name value =>
    exact ⟨List.prefix_rfl, List.prefix_rfl, (Runtime.Step.bind m.runtime name value).evolves⟩
  | host call =>
    refine ⟨?_, List.prefix_rfl, .refl m.runtime⟩
    show m.env.host.calls <+: (m.env.host.perform call).2.calls
    rw [RecordingHost.calls_perform]
    exact List.prefix_append _ _
  | note entry => exact ⟨List.prefix_rfl, List.prefix_append _ _, .refl m.runtime⟩
  | requestFrame callback => exact ⟨List.prefix_rfl, List.prefix_rfl, .refl m.runtime⟩
  | context | scope | call | frameTimestamp | journal => exact .refl m

theorem respected_extends : Respected fun m _ m' => m.Extends m' where
  nil := .refl
  append h h' := h.trans h'
  plain := extends_effect
  call _ _ _ h := h

theorem extends_flushFrame (m : Machine) (timestamp : Binary64) :
    m.Extends (m.flushFrame timestamp).2 := by
  rw [flushFrame_eq]
  -- The start of the frame touches neither the logs nor the runtime.
  have hrun := respected_extends.run (callEach m.env.frames.pending [.number timestamp])
    (m.beginFrame timestamp)
  exact ⟨hrun.calls, hrun.journal, hrun.runtime⟩

end Machine

/-! ## Runs of a thread -/

variable {σ : Type}

/-- Handling a command extends the machine, also when it ends in a panic. -/
theorem Worker.extends_handle (w : Worker σ) (command : Command) :
    w.machine.Extends (w.handle command).2.machine := by
  cases command with
  | startAnimation request =>
    have hrun := Machine.respected_extends.run
      (w.manager.start w.managerState request.tag request.kind request.payload.valueBag) w.machine
    show w.machine.Extends (w.startAnimation request).2.machine
    rw [startAnimation]
    split
    · next hstart =>
      rw [hstart] at hrun
      exact hrun
    · next hstart =>
      rw [hstart] at hrun
      exact hrun
  | animationFrame timestamp =>
    have hflush := w.machine.extends_flushFrame timestamp
    show w.machine.Extends (w.animationFrame timestamp).2.machine
    rw [animationFrame]
    split
    · split <;> next hframe =>
        rw [hframe] at hflush
        exact hflush
    · exact .refl w.machine
  | shutdown ticket => exact .refl w.machine

theorem Worker.Serves.extends {w w' : Worker σ} {receipts : List Receipt}
    (h : w.Serves receipts w') : w.machine.Extends w'.machine := by
  induction h with
  | done w => exact .refl w.machine
  | @next w w' w'' receipt rest hhandles _ ih =>
    have hhandle := w.extends_handle receipt.command
    rw [hhandles.handle_eq] at hhandle
    exact hhandle.trans ih

/-- Whatever a thread does, the machine that it started with is extended. -/
theorem UiThread.Tracks.extends {t₀ t : UiThread σ} {sent : List Command} (h : t₀.Tracks sent t) :
    t₀.worker.machine.Extends t.worker.machine := by
  obtain ⟨receipts, w, hserves, hstands⟩ := h
  have hserved := hserves.extends
  rw [Stands] at hstands
  cases hphase : t.phase with
  | serving | leaving | answering | closing | finished =>
    rw [hphase] at hstands
    rw [hstands.1]
    exact hserved
  | died why =>
    rw [hphase] at hstands
    obtain ⟨_, command, rest, _, _, hhandle⟩ := hstands
    have hlast := w.extends_handle command
    rw [hhandle] at hlast
    exact hserved.trans hlast

end ScriptBridge
