import GgRelay.Session.Manager.WellFormed

/-!
Terminal states of the `sessions` row.

The version check of `update_session_status` orders the writers of a row but does not look at
the status they overwrite, and the retry of `_update_status_locked` anchors a `pause` or a
`resume` to whatever version it finds.

* `TerminalGuard` is the condition: a `pause` or a `resume` writes the row only before the task
  has written its terminal status, and the task does not give up that write on a row that says
  `running` or `paused`;
* `terminal_absorbing` is the result about runs, `late_pause_overwrites` a run in which the
  retry of a `pause` turns a `cancelled` row into a `paused` one.
-/

namespace GgRelay

namespace Manager

variable {cfg : ManagerConfig} {m m' : Manager} {l : Label}

/-- The steps that leave a terminal status alone. -/
structure TerminalGuard (m : Manager) (l : Label) : Prop where
  callWrites : ∀ sid ∈ m.callWrites l, (m.sess sid).run.phase ≠ .settled
  losesWrite : ∀ sid ∈ m.losesWrite l, ∀ r ∈ (m.sess sid).row,
    r.status ≠ .running ∧ r.status ≠ .paused

instance (m : Manager) (l : Label) : Decidable (m.TerminalGuard l) :=
  decidable_of_iff
    ((∀ sid ∈ m.callWrites l, (m.sess sid).run.phase ≠ .settled) ∧
      ∀ sid ∈ m.losesWrite l, ∀ r ∈ (m.sess sid).row, r.status ≠ .running ∧ r.status ≠ .paused)
    ⟨fun h => ⟨h.1, h.2⟩, fun h => ⟨h.callWrites, h.losesWrite⟩⟩

/-- What the phase of a task says about the row of its session. -/
structure RowInv (m : Manager) : Prop where
  /-- a terminal status is the task's own, or that of an earlier process -/
  terminal : ∀ sid r, (m.sess sid).row = some r → r.status.Terminal →
    (m.sess sid).run.phase = .absent ∨ (m.sess sid).run.phase = .settled
  /-- a task that has had no slot, or has settled, leaves no live status -/
  quiet : ∀ sid r, (m.sess sid).row = some r →
    (m.sess sid).run.phase = .created ∨ (m.sess sid).run.phase = .waiting ∨
      (m.sess sid).run.phase = .settled → r.status ≠ .running ∧ r.status ≠ .paused

namespace RowInv

lemma terminal_step (hi : m.RowInv) (hw : m.WellFormed) (hg : m.TerminalGuard l)
    (h : Move cfg m l m') : ∀ sid r, (m'.sess sid).row = some r → r.status.Terminal →
      (m'.sess sid).run.phase = .absent ∨ (m'.sess sid).run.phase = .settled := by
  intro sid r
  have ht := hi.terminal sid
  have hs := hw.submitting
  have hl := hw.launched
  obtain ⟨gw, gl⟩ := hg
  cases h with
  | _ =>
    simp [Function.update_apply] <;> grind

lemma quiet_step (hi : m.RowInv) (hw : m.WellFormed) (hg : m.TerminalGuard l)
    (h : Move cfg m l m') : ∀ sid r, (m'.sess sid).row = some r →
    (m'.sess sid).run.phase = .created ∨ (m'.sess sid).run.phase = .waiting ∨
      (m'.sess sid).run.phase = .settled → r.status ≠ .running ∧ r.status ≠ .paused := by
  intro sid r
  have ht := hi.quiet sid
  have hs := hw.submitting
  have hl := hw.launched
  have he := hw.ends
  obtain ⟨gw, gl⟩ := hg
  cases h with
  | _ =>
    simp [Function.update_apply] <;> grind

/-- A step leaves a terminal status alone. -/
lemma status_step (hi : m.RowInv) (hw : m.WellFormed) (hg : m.TerminalGuard l)
    (h : Move cfg m l m') {sid : SessionId} {r : SessionRow} (hr : (m.sess sid).row = some r)
    (ht : r.status.Terminal) : ∃ r', (m'.sess sid).row = some r' ∧ r'.status = r.status := by
  have ht := hi.terminal sid
  have hs := hw.submitting
  have hs := hw.drafting
  have hl := hw.launched
  obtain ⟨gw, gl⟩ := hg
  cases h with
  | _ =>
    simp [Function.update_apply] <;> grind

theorem step (hi : m.RowInv) (hw : m.WellFormed) (hg : m.TerminalGuard l)
    (h : Move cfg m l m') : m'.RowInv where
  terminal := hi.terminal_step hw hg h
  quiet := hi.quiet_step hw hg h

end RowInv

lemma rowInv_fresh (cfg : ManagerConfig) (rows : List SessionRow) : (fresh cfg rows).RowInv where
  terminal _ _ _ _ := Or.inl rfl
  quiet _ _ _ h := by simp [fresh] at h

lemma rowInv_of_reachable (h : (managerSystem cfg).ReachableVia TerminalGuard m) : m.RowInv := by
  refine h.invariant_of (fun _ => wellFormed_of_reachable) ?_ ?_
  · rintro _ ⟨rows, rfl⟩
    exact rowInv_fresh cfg rows
  · intro s l t hw hi hg hst
    exact hi.step hw hg (step_move hst)

/-- Whatever runs meet `ok` from here on, a terminal status stays what it is; and no session
whose task is done is left `paused` or `running`. -/
def TerminalAbsorbing (cfg : ManagerConfig) (ok : Manager → Label → Prop) (m : Manager) : Prop :=
  (∀ m' sid r, (managerSystem cfg).Leads ok m m' → (m.sess sid).row = some r → r.status.Terminal →
    ∃ r', (m'.sess sid).row = some r' ∧ r'.status = r.status) ∧
  ∀ sid r, (m.sess sid).run.isDone = true → (m.sess sid).row = some r →
    r.status ≠ .paused ∧ r.status ≠ .running

/-- **Terminal states are absorbing in every run that keeps to `TerminalGuard`.** -/
theorem terminal_absorbing (h : (managerSystem cfg).ReachableVia TerminalGuard m) :
    m.TerminalAbsorbing cfg TerminalGuard := by
  refine ⟨fun m' sid r hl hr ht => ?_, fun sid r hd hr => ?_⟩
  · refine h.stable (P := fun m => ∃ r', (m.sess sid).row = some r' ∧ r'.status = r.status) ?_ hl
      ⟨r, hr, rfl⟩
    rintro s l t hs ⟨r', hr', he⟩ hg hst
    obtain ⟨r'', hr'', he'⟩ := (rowInv_of_reachable hs).status_step (wellFormed_of_reachable hs) hg
      (step_move hst) hr' (he ▸ ht)
    exact ⟨r'', hr'', he'.trans he⟩
  · have hq := (rowInv_of_reachable h).quiet sid r hr (Or.inr (Or.inr (RunPc.phase_of_isDone hd)))
    exact ⟨hq.2, hq.1⟩

/-- A session that is paused and resumed, and ends. -/
theorem terminal_absorbing_of_pause_resume :
    ∃ m, (managerSystem oneSlot).checkedRun TerminalGuard (fresh oneSlot []) (resumeRun ++ endRun)
      = some m ∧ m.TerminalAbsorbing oneSlot TerminalGuard := by
  have hrun : ((managerSystem oneSlot).checkedRun TerminalGuard (fresh oneSlot [])
      (resumeRun ++ endRun)).isSome := by decide
  obtain ⟨m, hm⟩ := Option.isSome_iff_exists.mp hrun
  exact ⟨m, hm, terminal_absorbing (reachableVia_of_run hm)⟩

/-- The session `0` runs into its timeout while the call `1` is about to write `paused`; the task
writes `cancelled` first. -/
def timeoutRun : List Label :=
  driveRun ++ [.pause 0, .call 1 .ok, .call 1 (.ack true), .run 0 (.raise .timeoutError), .run 0 .ok,
    .run 0 .ok, .runCommit 0]

/-- The call `1` does not find the version it expects, and tries again with the version it is
told. -/
def retryRun : List Label :=
  [.run 0 .ok, .run 0 .ok, .run 0 .ok, .callCommit 1, .call 1 .ok, .call 1 .ok, .callCommit 1]

/-- A `pause` that is late overwrites the terminal status, and the row of a session whose task is
done says `paused`. -/
theorem late_pause_overwrites :
    ∃ m m', (managerSystem oneSlot).run (fresh oneSlot []) timeoutRun = some m ∧
      (managerSystem oneSlot).run m retryRun = some m' ∧
      (m.sess 0).row.map (·.status) = some .cancelled ∧
      (m'.sess 0).row.map (·.status) = some .paused ∧ (m'.sess 0).run.isDone = true ∧
      ¬m.TerminalAbsorbing oneSlot (fun _ _ => True) := by
  have hrun : (((managerSystem oneSlot).run (fresh oneSlot []) timeoutRun).bind fun m =>
      ((managerSystem oneSlot).run m retryRun).map fun m' =>
        ((m.sess 0).row.map (·.status), (m'.sess 0).row.map (·.status), (m'.sess 0).run.isDone))
      = some (some .cancelled, some .paused, true) := by decide
  obtain ⟨m, hm, hrun⟩ := Option.bind_eq_some_iff.mp hrun
  obtain ⟨m', hm', he⟩ := Option.map_eq_some_iff.mp hrun
  simp only [Prod.mk.injEq] at he
  obtain ⟨h₁, h₂, h₃⟩ := he
  refine ⟨m, m', hm, hm', h₁, h₂, h₃, fun h => ?_⟩
  obtain ⟨r, hr, hc⟩ := Option.map_eq_some_iff.mp h₁
  obtain ⟨r', hr', hs⟩ := h.1 m' 0 r (.of_run hm') hr (by rw [hc]; trivial)
  rw [hr', Option.map_some, hs, hc] at h₂
  simp at h₂

end Manager

end GgRelay
