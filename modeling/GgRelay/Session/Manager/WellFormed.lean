import GgRelay.Session.Manager.Moves

/-!
What holds in every state of the manager, whatever order the coroutines run in: which numbers
are in use, who may touch a session, and what a task that has not reached its `finally` block
still has.

* `Manager.WellFormed` collects these facts;
* `WellFormed.step` is one field after the other, `wellFormed_of_reachable` the run lemma.

The facts that fail in some runs are in the modules that follow, each with its condition.
-/

namespace GgRelay

namespace Manager

/-- The coroutine is suspended at `self._sem.acquire()`. -/
def Waits (m : Manager) : Waiter → Prop
  | .run sid => (m.sess sid).run.phase = .waiting
  | .call cid => ∃ sid, (m.calls cid).phase = .queueing sid

/-- The facts that need no condition on the run. -/
structure WellFormed (m : Manager) : Prop where
  /-- nothing is held for an id that is not in use -/
  unused : ∀ sid, m.nextSid ≤ sid → m.sess sid = {}
  noCall : ∀ cid, m.nextCall ≤ cid → m.calls cid = .idle
  drafting : ∀ cid sid, (m.calls cid).phase = .drafting sid → sid < m.nextSid ∧ m.sess sid = {}
  /-- a `submit` that is not through has written the row and nothing else -/
  submitting : ∀ cid sid, (m.calls cid).phase = .submitting sid →
    sid < m.nextSid ∧ m.sess sid = { row := some .created }
  /-- no two calls of `submit` have drawn one id -/
  drawn : ∀ c c' sid, (m.calls c).phase.draws = some sid → (m.calls c').phase.draws = some sid →
    c = c'
  bridged : ∀ sid, (m.sess sid).bridge = true → (m.sess sid).run.phase = .held
  /-- `pause` and `resume` are at work only on sessions that have had a slot -/
  launched : ∀ cid sid, (m.calls cid).phase.serves = some sid → (m.sess sid).run.phase.Launched
  paused : ∀ sid, sid ∈ m.pausedSet ∨ sid ∈ m.pausedHoldsSlot → (m.sess sid).run.phase.Launched
  handed : ∀ sid, (m.sess sid).handedOver = true → (m.sess sid).run.phase.Launched
  /-- a timer that fired is in its `cancel` -/
  watched : ∀ sid c, (m.sess sid).timer = some (.fired c) → (m.calls c).phase = .watching sid
  /-- until its `finally` block a task is in `_api_key_by_session` -/
  keyed : ∀ sid, (m.sess sid).run.phase = .created ∨ (m.sess sid).run.phase = .waiting ∨
    (m.sess sid).run.phase = .held → (m.sess sid).apiKey = some (m.sess sid).submittedKey
  /-- `_api_key_by_session` holds the key of the submission -/
  entry : ∀ sid k, (m.sess sid).apiKey = some k → k = (m.sess sid).submittedKey
  /-- until it has settled a task is in `_running_tasks` -/
  tracked : ∀ sid, (m.sess sid).run.phase ≠ .absent → (m.sess sid).run.phase ≠ .settled →
    (m.sess sid).tracked = true
  ends : ∀ sid, (m.sess sid).run.EndsTerminal
  /-- nobody queues twice, and whoever queues is suspended there -/
  queue : m.sem.names.Nodup ∧ ∀ w ∈ m.sem.names, m.Waits w

lemma wellFormed_fresh (cfg : ManagerConfig) (rows : List SessionRow) :
    (fresh cfg rows).WellFormed where
  unused sid h := by
    have hr : rows[sid]? = none := List.getElem?_eq_none h
    simp [fresh, hr]
  noCall _ _ := rfl
  drafting _ _ h := by simp [fresh, Call.phase] at h
  submitting _ _ h := by simp [fresh, Call.phase] at h
  drawn _ _ _ h := by simp [fresh, Call.phase, CallPhase.draws] at h
  bridged _ h := by simp [fresh] at h
  launched _ _ h := by simp [fresh, Call.phase, CallPhase.serves] at h
  paused _ h := by simp [fresh] at h
  handed _ h := by simp [fresh] at h
  watched _ _ h := by simp [fresh] at h
  keyed _ h := by simp [fresh, RunPc.phase] at h
  entry _ _ h := by simp [fresh] at h
  tracked _ h := by simp [fresh, RunPc.phase] at h
  ends _ := trivial
  queue := ⟨by simp [fresh], by simp [fresh]⟩

namespace WellFormed

/-- A session with a task is numbered. -/
lemma sid_lt {m : Manager} (hw : m.WellFormed) {sid : SessionId}
    (h : (m.sess sid).run.phase ≠ .absent) : sid < m.nextSid := by
  by_contra hn
  exact h (by rw [hw.unused sid (Nat.le_of_not_lt hn)]; rfl)

/-- A call at work is numbered. -/
lemma cid_lt {m : Manager} (hw : m.WellFormed) {cid : CallId} (h : m.calls cid ≠ .idle) :
    cid < m.nextCall := by
  by_contra hn
  exact h (hw.noCall cid (Nat.le_of_not_lt hn))

variable {cfg : ManagerConfig} {m m' : Manager} {l : Label}

lemma unused_step (hw : m.WellFormed) (h : Move cfg m l m') :
    ∀ sid, m'.nextSid ≤ sid → m'.sess sid = {} := by
  intro sid
  have hb := hw.unused sid
  have hl := hw.launched
  have hd := hw.drafting
  have hs := hw.submitting
  cases h <;> simp [Function.update_apply] <;>
    grind [Drafts]

lemma noCall_step (hw : m.WellFormed) (h : Move cfg m l m') :
    ∀ cid, m'.nextCall ≤ cid → m'.calls cid = .idle := by
  intro cid
  have hc := hw.noCall cid
  cases h with
  | swept =>
      simp only [setCall_nextCall, setCall_calls, sweepTimers_nextCall, Function.update_apply]
      have := m.sweepTimers_calls cid
      grind [Call.cancelTask]
  | _ =>
      simp [Function.update_apply, submitRegister, resumeRollBack, cancelTimerTask_apply] <;>
        grind [Call.cancelTask]

lemma drafting_step (hw : m.WellFormed) (h : Move cfg m l m') :
    ∀ cid sid, (m'.calls cid).phase = .drafting sid → sid < m'.nextSid ∧ m'.sess sid = {} := by
  intro cid sid
  have hd := hw.drafting cid sid
  have hn := hw.unused sid
  have hl := hw.launched
  have ho := hw.drawn cid
  cases h with
  | swept =>
    simp [Function.update_apply]
    grind
  | _ =>
    simp [Function.update_apply] <;>
    grind [Drafts]

lemma submitting_step (hw : m.WellFormed) (h : Move cfg m l m') :
    ∀ cid sid, (m'.calls cid).phase = .submitting sid →
    sid < m'.nextSid ∧ m'.sess sid = { row := some .created } := by
  intro cid sid
  have hd := hw.drafting cid sid
  have hs := hw.submitting cid sid
  have hn := hw.unused sid
  have hl := hw.launched
  have ho := hw.drawn cid
  cases h with
  | swept =>
    simp [Function.update_apply]
    grind
  | _ =>
    simp [Function.update_apply] <;>
    grind [Drafts]

lemma drawn_step (hw : m.WellFormed) (h : Move cfg m l m') :
    ∀ c c' sid, (m'.calls c).phase.draws = some sid → (m'.calls c').phase.draws = some sid →
    c = c' := by
  intro c c' sid
  have hd := hw.drafting
  have hs := hw.submitting
  have ho := hw.drawn
  simp only [CallPhase.draws_eq_some] at ho ⊢
  cases h with
  | swept =>
    simp [Function.update_apply]
    grind
  | _ =>
    simp [Function.update_apply] <;>
    grind [Drafts]

lemma bridged_step (hw : m.WellFormed) (h : Move cfg m l m') :
    ∀ sid, (m'.sess sid).bridge = true → (m'.sess sid).run.phase = .held := by
  intro sid
  have hb := hw.bridged sid
  have hs := hw.submitting
  cases h with
  | _ =>
    simp [Function.update_apply] <;>
    grind

lemma launched_step (hw : m.WellFormed) (h : Move cfg m l m') :
    ∀ cid sid, (m'.calls cid).phase.serves = some sid → (m'.sess sid).run.phase.Launched := by
  intro cid sid
  have hb := hw.bridged sid
  have hs := hw.submitting
  have hl := hw.launched cid sid
  simp only [CallPhase.serves_eq_some] at hl ⊢
  cases h with
  | swept =>
    simp [Function.update_apply]
    grind
  | _ =>
    simp [Function.update_apply] <;>
    grind [Drafts]

lemma paused_step (hw : m.WellFormed) (h : Move cfg m l m') :
    ∀ sid, sid ∈ m'.pausedSet ∨ sid ∈ m'.pausedHoldsSlot → (m'.sess sid).run.phase.Launched := by
  intro sid
  have hb := hw.paused sid
  have hs := hw.submitting
  have hl := hw.launched
  cases h with
  | _ =>
    simp [Function.update_apply] <;>
    grind

lemma handed_step (hw : m.WellFormed) (h : Move cfg m l m') :
    ∀ sid, (m'.sess sid).handedOver = true → (m'.sess sid).run.phase.Launched := by
  intro sid
  have hb := hw.handed sid
  have hs := hw.submitting
  have hl := hw.launched
  cases h with
  | _ =>
    simp [Function.update_apply] <;>
    grind

lemma watched_step (hw : m.WellFormed) (h : Move cfg m l m') :
    ∀ sid c, (m'.sess sid).timer = some (.fired c) → (m'.calls c).phase = .watching sid := by
  intro sid c
  have hb := hw.watched
  have hs := hw.noCall
  have hu := hw.unused
  cases h with
  | _ =>
    simp [Function.update_apply] <;>
    grind [Drafts]

lemma keyed_step (hw : m.WellFormed) (h : Move cfg m l m') :
    ∀ sid, (m'.sess sid).run.phase = .created ∨ (m'.sess sid).run.phase = .waiting ∨
      (m'.sess sid).run.phase = .held →
        (m'.sess sid).apiKey = some (m'.sess sid).submittedKey := by
  intro sid
  have hb := hw.keyed sid
  cases h with
  | _ =>
    simp [Function.update_apply] <;>
    grind

lemma entry_step (hw : m.WellFormed) (h : Move cfg m l m') :
    ∀ sid k, (m'.sess sid).apiKey = some k → k = (m'.sess sid).submittedKey := by
  intro sid k
  have he := hw.entry sid k
  cases h with
  | _ =>
    simp [Function.update_apply] <;>
    grind

lemma tracked_step (hw : m.WellFormed) (h : Move cfg m l m') :
    ∀ sid, (m'.sess sid).run.phase ≠ .absent → (m'.sess sid).run.phase ≠ .settled →
      (m'.sess sid).tracked = true := by
  intro sid
  have hb := hw.tracked sid
  cases h with
  | _ =>
    simp [Function.update_apply] <;>
    grind [RunPc.isDone, RunPc.phase_of_isDone]

lemma ends_step (hw : m.WellFormed) (h : Move cfg m l m') :
    ∀ sid, (m'.sess sid).run.EndsTerminal := by
  intro sid
  have hb := hw.ends
  cases h with
  | _ =>
    simp [Function.update_apply] <;>
    grind [RunPc.EndsTerminal]

lemma queue_step (hw : m.WellFormed) (h : Move cfg m l m') :
    m'.sem.names.Nodup ∧ ∀ w ∈ m'.sem.names, m'.Waits w := by
  obtain ⟨hn, hq⟩ := hw.queue
  have hr : ∀ sid, .run sid ∈ m.sem.names → (m.sess sid).run.phase = .waiting := fun sid h => hq _ h
  have hc : ∀ cid, .call cid ∈ m.sem.names → ∃ sid, (m.calls cid).phase = .queueing sid :=
    fun cid h => hq _ h
  have hi := hw.noCall
  have hs := hw.submitting
  suffices m'.sem.names.Nodup ∧
      (∀ sid, .run sid ∈ m'.sem.names → (m'.sess sid).run.phase = .waiting) ∧
      ∀ cid, .call cid ∈ m'.sem.names → ∃ sid, (m'.calls cid).phase = .queueing sid by
    refine ⟨this.1, fun w hw => ?_⟩
    cases w with
    | run sid => exact this.2.1 sid hw
    | call cid => exact this.2.2 cid hw
  cases h with
  | resumeQueued hs h hc' =>
    have := Semaphore.names_acquire_false hs
    simp [Function.update_apply]
    grind [List.nodup_append]
  | resumeTook hs hc' =>
    rcases hs with ⟨hs, h⟩ | ⟨hs, h⟩
    · have := Semaphore.names_acquire_true hs
      simp [Function.update_apply]
      grind
    · have := Semaphore.names_resume hs
      simp [Function.update_apply]
      grind [List.Nodup.mem_erase_iff, List.Nodup.erase]
  | resumeDropped hl h hc' =>
    simp [Function.update_apply]
    grind [List.Nodup.mem_erase_iff, List.Nodup.erase]
  | resumeTimedOut hl h hc' =>
    simp [Function.update_apply]
    grind [List.Nodup.mem_erase_iff, List.Nodup.erase]
  | runQueued hs h hp he =>
    have := Semaphore.names_acquire_false hs
    simp [Function.update_apply]
    grind [List.nodup_append]
  | runTook hs hp he =>
    rcases hs with ⟨hs, h⟩ | ⟨hs, h⟩
    · have := Semaphore.names_acquire_true hs
      simp [Function.update_apply]
      grind
    · have := Semaphore.names_resume hs
      simp [Function.update_apply]
      grind [List.Nodup.mem_erase_iff, List.Nodup.erase]
  | runRefused h he =>
    simp [Function.update_apply]
    grind [List.Nodup.mem_erase_iff, List.Nodup.erase]
  | swept =>
    simp [Function.update_apply]
    grind
  | _ =>
    simp [Function.update_apply] <;>
    grind [Drafts, Semaphore.names_release]

/-- **A step keeps the manager well formed.** -/
theorem step (hw : m.WellFormed) (h : Move cfg m l m') : m'.WellFormed where
  unused := hw.unused_step h
  noCall := hw.noCall_step h
  drafting := hw.drafting_step h
  submitting := hw.submitting_step h
  drawn := hw.drawn_step h
  bridged := hw.bridged_step h
  launched := hw.launched_step h
  paused := hw.paused_step h
  handed := hw.handed_step h
  watched := hw.watched_step h
  keyed := hw.keyed_step h
  entry := hw.entry_step h
  tracked := hw.tracked_step h
  ends := hw.ends_step h
  queue := hw.queue_step h

end WellFormed

/-- **Every run keeps the manager well formed.** -/
theorem wellFormed_of_reachable {cfg : ManagerConfig} {m : Manager}
    {ok : Manager → Label → Prop} (h : (managerSystem cfg).ReachableVia ok m) : m.WellFormed := by
  refine h.invariant ?_ ?_
  · rintro _ ⟨rows, rfl⟩
    exact wellFormed_fresh cfg rows
  · intro s l t hs _ hst
    exact hs.step (step_move hst)

end Manager

end GgRelay
