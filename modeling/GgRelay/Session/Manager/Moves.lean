import GgRelay.Session.Manager.Phases

/-!
What one step of the manager can do.

* `Move` lists the effects a step can have, each as an explicit next state with what is known of
  the phases of the coroutine that made it;
* `Manager.step_move` says that every step of the manager is one of them.

The invariants of the manager are proved by cases on `Move` and never unfold a step function.
-/

namespace GgRelay

namespace Manager

/-- A call of `submit` as it is after the credential check: at an end, or with a fresh id. -/
def Drafts (m : Manager) (c : Call) (n : SessionId) : Prop :=
  c.phase = .idle ∧ (n = m.nextSid ∨ n = m.nextSid + 1) ∨
    c.phase = .drafting m.nextSid ∧ n = m.nextSid + 1

end Manager

open Manager in
/-- The effects of the steps of the manager. -/
inductive Move (cfg : ManagerConfig) (m : Manager) : Label → Manager → Prop
  /-- a new call that owes nothing to any session yet -/
  | entered {l : Label} {c : Call} {a : Bool} {n : SessionId} (hc : m.Drafts c n) :
      Move cfg m l ({ m with acceptingNew := a, nextSid := n }.newCall c)
  /-- `pause` of a session that is not paused -/
  | asked {l : Label} {sid : SessionId} (hb : (m.sess sid).bridge = true) (hp : sid ∉ m.pausedSet) :
      Move cfg m l (m.newCall (.pause sid .version))
  /-- `pause` of a paused session -/
  | rearmed {l : Label} {sid : SessionId} {c : Call} (hc : c.phase = .idle)
      (hb : (m.sess sid).bridge = true) (hp : sid ∈ m.pausedSet) :
      Move cfg m l ((m.armPausedTimer cfg sid none).newCall c)
  /-- `resume` of a paused session -/
  | resumeStarted {l : Label} {sid : SessionId} (hb : (m.sess sid).bridge = true)
      (hp : sid ∈ m.pausedSet) :
      Move cfg m l ((m.cancelPausedTimer sid).newCall (.resume sid .version))
  /-- a step that leaves the phase of its call alone -/
  | callQuiet {l : Label} {cid : CallId} {c : Call} (hu : m.calls cid ≠ .idle)
      (hc : c.phase = (m.calls cid).phase) :
      Move cfg m l (m.setCall cid c)
  /-- the same, with an entry of `_session_states` -/
  | callState {l : Label} {cid : CallId} {c : Call} {sid : SessionId} {st : SessionState}
      (h : (m.calls cid).phase = .recording sid ∨ (m.calls cid).phase = .resumed sid)
      (hc : c.phase = (m.calls cid).phase) :
      Move cfg m l ((m.modify sid fun s => { s with state := some st }).setCall cid c)
  /-- a call that ends and owes nothing to the timer of its session -/
  | callDropped {l : Label} {cid : CallId} {c : Call} (hu : m.calls cid ≠ .idle)
      (h : (m.calls cid).phase.settles = none ∧ ∀ sid, (m.calls cid).phase ≠ .watching sid)
      (hc : c.phase = .idle) :
      Move cfg m l (m.setCall cid c)
  /-- a `submit` after its credential lookup -/
  | lookedUp {l : Label} {cid : CallId} {c : Call} {n : SessionId}
      (h : (m.calls cid).phase = .idle) (hu : m.calls cid ≠ .idle) (hc : m.Drafts c n) :
      Move cfg m l ({ m with nextSid := n }.setCall cid c)
  /-- `create_session` -/
  | created {l : Label} {cid : CallId} {c : Call} {sid : SessionId}
      (h : (m.calls cid).phase = .drafting sid) (hc : c.phase = .submitting sid) :
      Move cfg m l ((m.modify sid fun s => { s with row := some .created }).setCall cid c)
  /-- the end of a `submit` that succeeds -/
  | registered {l : Label} {cid : CallId} {c : Call} {sid : SessionId} {args : SubmitArgs}
      (h : (m.calls cid).phase = .submitting sid) (hc : c.phase = .idle) :
      Move cfg m l ((m.submitRegister sid args).setCall cid c)
  /-- the positive ack of a `pause` -/
  | pauseAcked {l : Label} {cid : CallId} {c : Call} {sid : SessionId}
      (hl : m.pauseAck l = some sid) (h : (m.calls cid).phase = .asking sid)
      (hc : c.phase = .recording sid) :
      Move cfg m l ((m.pauseBookkeeping sid).setCall cid c)
  /-- the end of a `pause` that succeeds -/
  | pauseArmed {l : Label} {cid : CallId} {c : Call} {sid : SessionId}
      (hl : m.arms l = some sid) (h : (m.calls cid).phase = .recording sid)
      (hc : c.phase = .idle) :
      Move cfg m l ((m.armPausedTimer cfg sid none).setCall cid c)
  /-- a `pause` that fails after its ack -/
  | pauseDropped {l : Label} {cid : CallId} {c : Call} {sid : SessionId}
      (hl : l.cid? = some cid ∧ m.givesUp l = some sid) (h : (m.calls cid).phase = .recording sid)
      (hc : c.phase = .idle) :
      Move cfg m l (m.setCall cid c)
  /-- a `resume` that queues for a slot -/
  | resumeQueued {l : Label} {cid : CallId} {c : Call} {sid : SessionId} {sem : Semaphore Waiter}
      (hs : m.sem.acquire (.call cid) = (sem, false)) (h : (m.calls cid).phase = .opening sid)
      (hc : c.phase = .queueing sid) :
      Move cfg m l ({ m with sem := sem }.setCall cid c)
  /-- a `resume` that gets its slot -/
  | resumeTook {l : Label} {cid : CallId} {c : Call} {sid : SessionId} {sem : Semaphore Waiter}
      (hs : m.sem.acquire (.call cid) = (sem, true) ∧ (m.calls cid).phase = .opening sid ∨
        m.sem.resume (.call cid) = some sem ∧ (m.calls cid).phase = .queueing sid)
      (hc : c.phase = .holding sid) :
      Move cfg m l ({ m with sem := sem }.setCall cid c)
  /-- a `resume` that fails before it asks for a slot -/
  | resumeFailed {l : Label} {cid : CallId} {c : Call} {sid : SessionId}
      (hl : l.cid? = some cid ∧ m.givesUp l = some sid) (h : (m.calls cid).phase = .opening sid)
      (hc : c.phase = .idle) :
      Move cfg m l (m.setCall cid c)
  /-- a `resume` that stops waiting for a slot, but for the timeout -/
  | resumeDropped {l : Label} {cid : CallId} {c : Call} {sid : SessionId}
      (hl : l.cid? = some cid ∧ m.givesUp l = some sid) (h : (m.calls cid).phase = .queueing sid)
      (hc : c.phase = .idle) :
      Move cfg m l ({ m with sem := m.sem.abandon (.call cid) }.setCall cid c)
  /-- a `resume` that waits too long for a slot -/
  | resumeTimedOut {l : Label} {cid : CallId} {c : Call} {sid : SessionId}
      (hl : m.arms l = some sid) (h : (m.calls cid).phase = .queueing sid)
      (hc : c.phase = .idle) :
      Move cfg m l (({ m with sem := m.sem.abandon (.call cid) }.armPausedTimer cfg sid
        none).setCall cid c)
  /-- a `resume` whose request to the bridge fails -/
  | resumeRolledBack {l : Label} {cid : CallId} {c : Call} {sid : SessionId}
      (hl : m.arms l = some sid) (h : (m.calls cid).phase = .holding sid)
      (hc : c.phase = .idle) :
      Move cfg m l ((m.resumeRollBack cfg sid).setCall cid c)
  /-- the positive ack of a `resume` -/
  | resumeAcked {l : Label} {cid : CallId} {c : Call} {sid : SessionId}
      (hl : m.resumeAck l = some sid) (h : (m.calls cid).phase = .holding sid)
      (hc : c.phase = .resumed sid) :
      Move cfg m l ((m.takeSlotBack sid).setCall cid c)
  /-- a `cancel`, whoever makes it -/
  | cancelled {l : Label} {cid : CallId} {c : Call} {sid : SessionId}
      (hl : m.cancels l = some sid)
      (h : (m.calls cid).phase = .idle ∨ (m.calls cid).phase = .watching sid)
      (hu : m.calls cid ≠ .idle) (hc : c.phase = .idle) :
      Move cfg m l ((m.cancelBlock sid).setCall cid c)
  /-- a timer that is over on a paused session -/
  | fired {l : Label} {sid : SessionId} {d : Time} (ht : (m.sess sid).timer = some (.armed d))
      (hp : sid ∈ m.pausedSet) :
      Move cfg m l ((m.modify sid fun s => { s with timer := some (.fired m.nextCall) }).newCall
        (.watchdog sid false .audit))
  /-- a timer that is over on a session that is not paused -/
  | expired {l : Label} {sid : SessionId} {d : Time} (ht : (m.sess sid).timer = some (.armed d))
      (hp : sid ∉ m.pausedSet) :
      Move cfg m l (m.modify sid fun s => { s with timer := some .expired })
  /-- the last act of `shutdown` -/
  | swept {l : Label} {cid : CallId} {c : Call} (hl : m.sweeps l = true ∨ m.trackedSids = [])
      (h : (m.calls cid).phase = .idle) (hu : m.calls cid ≠ .idle) (hc : c.phase = .idle) :
      Move cfg m l (m.sweepTimers.setCall cid c)
  /-- `shutdown` cancels the tasks that are left -/
  | tasksCancelled {l : Label} {cid : CallId} {c : Call} (h : (m.calls cid).phase = .idle)
      (hu : m.calls cid ≠ .idle) (hc : c.phase = .idle) :
      Move cfg m l (m.cancelTasks.setCall cid c)
  /-- the row of a `pause` or a `resume` is written -/
  | callWrote {l : Label} {cid : CallId} {c : Call} {sid : SessionId} {f : StatusFields}
      {r : SessionRow} {v : ℕ} (hl : m.callWrites l = some sid)
      (h : (m.calls cid).phase = .recording sid ∨ (m.calls cid).phase = .resumed sid)
      (hr : (m.sess sid).row = some r) (hf : f.status = some .paused ∨ f.status = some .running)
      (hc : c.phase = (m.calls cid).phase) :
      Move cfg m l ((m.modify sid fun s => { s with row := some (f.write r v) }).setCall cid c)
  /-- a step that leaves the phase of its task alone -/
  | runQuiet {l : Label} {sid : SessionId} {pc : RunPc} {st : Option SessionState} {b q : Bool}
      (hp : pc.phase = (m.sess sid).run.phase) (ha : pc.phase ≠ .absent)
      (hb : b = true → (m.sess sid).bridge = true ∨ pc.phase = .held)
      (he : (m.sess sid).run.EndsTerminal → pc.EndsTerminal) :
      Move cfg m l (m.modify sid fun s =>
        { s with run := pc, state := st, bridge := b, cancelRequested := q })
  /-- a task that queues for a slot -/
  | runQueued {l : Label} {sid : SessionId} {pc : RunPc} {q : Bool} {sem : Semaphore Waiter}
      (hs : m.sem.acquire (.run sid) = (sem, false)) (h : (m.sess sid).run.phase = .created)
      (hp : pc.phase = .waiting) (he : pc.EndsTerminal) :
      Move cfg m l ({ m with sem := sem }.modify sid fun s =>
        { s with run := pc, cancelRequested := q })
  /-- a task that gets its slot -/
  | runTook {l : Label} {sid : SessionId} {pc : RunPc} {q : Bool} {sem : Semaphore Waiter}
      (hs : m.sem.acquire (.run sid) = (sem, true) ∧ (m.sess sid).run.phase = .created ∨
        m.sem.resume (.run sid) = some sem ∧ (m.sess sid).run.phase = .waiting)
      (hp : pc.phase = .held) (he : pc.EndsTerminal) :
      Move cfg m l ({ m with sem := sem }.modify sid fun s =>
        { s with run := pc, cancelRequested := q })
  /-- a task that never started -/
  | runNever {l : Label} {sid : SessionId} {q : Bool} (h : (m.sess sid).run.phase = .created) :
      Move cfg m l (m.modify sid fun s => { s with run := .done, cancelRequested := q })
  /-- a task that is cancelled before it has a slot -/
  | runRefused {l : Label} {sid : SessionId} {q : Bool} {e : EndState}
      (h : (m.sess sid).run.phase = .waiting) (he : e.status.Terminal) :
      Move cfg m l (({ m with sem := m.sem.abandon (.run sid) }.modify sid fun s =>
        { s with cancelRequested := q }).runFinally sid false e)
  /-- a task that gets into its `finally` block with a slot -/
  | runEnded {l : Label} {sid : SessionId} {q : Bool} {e : EndState}
      (h : (m.sess sid).run.phase = .held)
      (he : (m.sess sid).run.EndsTerminal → e.status.Terminal) :
      Move cfg m l ((m.modify sid fun s =>
        { s with cancelRequested := q }).runFinally sid true e)
  /-- a task writes `running`, or its `runtime_id` -/
  | runWrote {l : Label} {sid : SessionId} {pc : RunPc} {f : StatusFields} {r : SessionRow}
      {v : ℕ} (h : (m.sess sid).run.phase = .held) (hp : pc.phase = .held)
      (he : pc.EndsTerminal) (hr : (m.sess sid).row = some r)
      (hf : f.status = none ∨ f.status = some .running) :
      Move cfg m l (m.modify sid fun s => { s with row := some (f.write r v), run := pc })
  /-- a task writes its terminal status -/
  | runSettled {l : Label} {sid : SessionId} {pc : RunPc} {e : EndState} {t : Time}
      {r : SessionRow} {v : ℕ} (h : (m.sess sid).run.phase = .settling)
      (hp : pc.phase = .settled)
      (he : (m.sess sid).run.EndsTerminal → e.status.Terminal ∧ pc.EndsTerminal)
      (hr : (m.sess sid).row = some r) :
      Move cfg m l (m.modify sid fun s =>
        { s with row := some ((endFields e t).write r v), run := pc })
  /-- a task gives up its terminal write -/
  | runLost {l : Label} {sid : SessionId} {pc : RunPc} {q : Bool}
      (hl : m.losesWrite l = some sid) (h : (m.sess sid).run.phase = .settling)
      (hp : pc.phase = .settled) (he : (m.sess sid).run.EndsTerminal → pc.EndsTerminal) :
      Move cfg m l (m.modify sid fun s => { s with run := pc, cancelRequested := q })
  /-- the done callback -/
  | reaped {l : Label} {sid : SessionId} (h : (m.sess sid).run.isDone = true) :
      Move cfg m l (m.modify sid fun s => { s with tracked := false })
  | ticked {l : Label} : Move cfg m l { m with clock := m.clock + 1 }

namespace Manager

variable {cfg : ManagerConfig} {m m' : Manager} {cid : CallId} {sid : SessionId} {r : Reply}

/-! ### Calls -/

lemma pauseStep_move {pc : PausePc} (hc : m.calls cid = .pause sid pc)
    (h : m.pauseStep cfg cid sid pc r = some m') : Move cfg m (.call cid r) m' := by
  have hu : m.calls cid ≠ .idle := by simp [hc]
  cases pc with
  | done => simp [pauseStep] at h
  | missing =>
      cases r <;> simp [pauseStep] at h <;> subst h <;>
        exact .callQuiet hu (by simp [hc, Call.phase])
  | version =>
      have hp : (m.calls cid).phase = .asking sid := by simp [hc, Call.phase]
      cases r with
      | ok =>
          cases hr : (m.sess sid).row with
          | none =>
              simp only [pauseStep, hr, Option.some.injEq] at h
              subst h
              exact .callDropped hu (by simp [hp]) rfl
          | some row =>
              simp only [pauseStep, hr, Option.some.injEq] at h
              subst h
              exact .callQuiet hu (by rw [hp]; rfl)
      | raise e =>
          simp only [pauseStep, Option.some.injEq] at h
          subst h
          exact .callDropped hu (by simp [hp]) rfl
      | ack | credentials | started | swallowed => simp [pauseStep] at h
  | ack v =>
      have hp : (m.calls cid).phase = .asking sid := by simp [hc, Call.phase]
      cases r with
      | ack b =>
          cases b with
          | true =>
              simp only [pauseStep, Option.some.injEq] at h
              subst h
              exact .pauseAcked (by simp [pauseAck, hc]) hp rfl
          | false =>
              simp only [pauseStep, Option.some.injEq] at h
              subst h
              exact .callDropped hu (by simp [hp]) rfl
      | raise e =>
          simp only [pauseStep, Option.some.injEq] at h
          subst h
          exact .callDropped hu (by simp [hp]) rfl
      | ok | credentials | started | swallowed => simp [pauseStep] at h
  | locked t l =>
      have hp : (m.calls cid).phase = .recording sid := by simp [hc, Call.phase]
      simp only [pauseStep, Option.map_eq_some_iff] at h
      obtain ⟨x, hx, rfl⟩ := h
      cases x with
      | more l' => exact .callQuiet hu (by rw [hp]; rfl)
      | returned v => exact .callState (Or.inl hp) (by rw [hp]; rfl)
      | raised e => exact .pauseDropped ⟨rfl, by simp [givesUp, hc, hx]⟩ hp rfl
  | audit =>
      have hp : (m.calls cid).phase = .recording sid := by simp [hc, Call.phase]
      cases r with
      | ok =>
          simp only [pauseStep, Option.some.injEq] at h
          subst h
          exact .callQuiet hu (by rw [hp]; rfl)
      | raise e =>
          by_cases he : e = .cancelledError
          · simp only [pauseStep, he, if_true, Option.some.injEq] at h
            subst h
            exact .pauseDropped ⟨rfl, by simp [givesUp, hc, he]⟩ hp rfl
          · simp only [pauseStep, he, if_false, Option.some.injEq] at h
            subst h
            exact .callQuiet hu (by rw [hp]; rfl)
      | ack | credentials | started | swallowed => simp [pauseStep] at h
  | publish =>
      have hp : (m.calls cid).phase = .recording sid := by simp [hc, Call.phase]
      cases r with
      | ok =>
          simp only [pauseStep, Option.some.injEq] at h
          subst h
          exact .pauseArmed (by simp [arms, hc]) hp rfl
      | raise e =>
          simp only [pauseStep, Option.some.injEq] at h
          subst h
          exact .pauseDropped ⟨rfl, by simp [givesUp, hc]⟩ hp rfl
      | ack | credentials | started | swallowed => simp [pauseStep] at h

lemma resumeStep_move {pc : ResumePc} (hc : m.calls cid = .resume sid pc)
    (h : m.resumeStep cfg cid sid pc r = some m') : Move cfg m (.call cid r) m' := by
  have hu : m.calls cid ≠ .idle := by simp [hc]
  cases pc with
  | done => simp [resumeStep] at h
  | missing =>
      cases r <;> simp [resumeStep] at h <;> subst h <;>
        exact .callQuiet hu (by simp [hc, Call.phase])
  | version =>
      have hp : (m.calls cid).phase = .opening sid := by simp [hc, Call.phase]
      cases r with
      | ok =>
          cases hr : (m.sess sid).row with
          | none =>
              simp only [resumeStep, hr, Option.some.injEq] at h
              subst h
              exact .resumeFailed ⟨rfl, by simp [givesUp, hc, hr]⟩ hp rfl
          | some row =>
              simp only [resumeStep, hr, Option.some.injEq] at h
              subst h
              cases ha : m.sem.acquire (.call cid) with
              | mk sem atOnce =>
                  cases atOnce with
                  | true => exact .resumeTook (Or.inl ⟨ha, hp⟩) rfl
                  | false => exact .resumeQueued ha hp rfl
      | raise e =>
          simp only [resumeStep, Option.some.injEq] at h
          subst h
          exact .resumeFailed ⟨rfl, by simp [givesUp, hc]⟩ hp rfl
      | ack | credentials | started | swallowed => simp [resumeStep] at h
  | acquire v =>
      have hp : (m.calls cid).phase = .queueing sid := by simp [hc, Call.phase]
      cases r with
      | ok =>
          simp only [resumeStep, Option.map_eq_some_iff] at h
          obtain ⟨sem, hs, rfl⟩ := h
          exact .resumeTook (Or.inr ⟨hs, hp⟩) rfl
      | raise e =>
          by_cases he : e = .timeoutError
          · simp only [resumeStep, he, if_true, Option.some.injEq] at h
            subst h
            exact .resumeTimedOut (by simp [arms, hc, he]) hp rfl
          · simp only [resumeStep, he, if_false, Option.some.injEq] at h
            subst h
            exact .resumeDropped ⟨rfl, by simp [givesUp, hc, he]⟩ hp rfl
      | ack | credentials | started | swallowed => simp [resumeStep] at h
  | ack v =>
      have hp : (m.calls cid).phase = .holding sid := by simp [hc, Call.phase]
      cases r with
      | ack b =>
          cases b with
          | true =>
              simp only [resumeStep, Option.some.injEq] at h
              subst h
              exact .resumeAcked (by simp [resumeAck, hc]) hp rfl
          | false =>
              simp only [resumeStep, Option.some.injEq] at h
              subst h
              exact .resumeRolledBack (by simp [arms, hc]) hp rfl
      | raise e =>
          simp only [resumeStep, Option.some.injEq] at h
          subst h
          exact .resumeRolledBack (by simp [arms, hc]) hp rfl
      | ok | credentials | started | swallowed => simp [resumeStep] at h
  | locked l =>
      have hp : (m.calls cid).phase = .resumed sid := by simp [hc, Call.phase]
      simp only [resumeStep, Option.map_eq_some_iff] at h
      obtain ⟨x, hx, rfl⟩ := h
      cases x with
      | more l' => exact .callQuiet hu (by rw [hp]; rfl)
      | returned v => exact .callState (Or.inr hp) (by rw [hp]; rfl)
      | raised e => exact .callDropped hu (by simp [hp]) rfl
  | audit =>
      have hp : (m.calls cid).phase = .resumed sid := by simp [hc, Call.phase]
      cases r with
      | ok =>
          simp only [resumeStep, Option.some.injEq] at h
          subst h
          exact .callQuiet hu (by rw [hp]; rfl)
      | raise e =>
          by_cases he : e = .cancelledError
          · simp only [resumeStep, he, if_true, Option.some.injEq] at h
            subst h
            exact .callDropped hu (by simp [hp]) rfl
          · simp only [resumeStep, he, if_false, Option.some.injEq] at h
            subst h
            exact .callQuiet hu (by rw [hp]; rfl)
      | ack | credentials | started | swallowed => simp [resumeStep] at h
  | publish =>
      have hp : (m.calls cid).phase = .resumed sid := by simp [hc, Call.phase]
      cases r with
      | ok | raise =>
          simp only [resumeStep, Option.some.injEq] at h
          subst h
          exact .callDropped hu (by simp [hp]) rfl
      | ack | credentials | started | swallowed => simp [resumeStep] at h

lemma cancelStep_move {pc : CancelPc} (hc : m.calls cid = .cancel sid pc)
    (h : m.cancelStep cid sid pc r = some m') : Move cfg m (.call cid r) m' := by
  have hu : m.calls cid ≠ .idle := by simp [hc]
  have hp : (m.calls cid).phase = .idle := by simp [hc, Call.phase]
  cases pc with
  | done => cases r <;> simp [cancelStep] at h
  | audit =>
      cases r with
      | ok =>
          simp only [cancelStep, Option.some.injEq] at h
          subst h
          exact .cancelled (by simp [cancels, hc]) (Or.inl hp) hu rfl
      | raise e =>
          by_cases he : e = .cancelledError
          · simp only [cancelStep, he, if_true, Option.some.injEq] at h
            subst h
            exact .callQuiet hu (by rw [hp]; rfl)
          · simp only [cancelStep, he, if_false, Option.some.injEq] at h
            subst h
            exact .cancelled (by simp [cancels, hc, he]) (Or.inl hp) hu rfl
      | ack | credentials | started | swallowed => simp [cancelStep] at h

lemma watchdogStep_move {b : Bool} {pc : CancelPc} (hc : m.calls cid = .watchdog sid b pc)
    (h : m.watchdogStep cid sid b pc r = some m') : Move cfg m (.call cid r) m' := by
  have hu : m.calls cid ≠ .idle := by simp [hc]
  cases pc with
  | done => cases r <;> simp [watchdogStep] at h
  | audit =>
      cases b with
      | true =>
          have hp : (m.calls cid).phase = .idle := by simp [hc, Call.phase]
          cases r with
          | raise e =>
              simp only [watchdogStep, if_true, Option.ite_none_right_eq_some,
                Option.some.injEq] at h
              obtain ⟨-, rfl⟩ := h
              exact .callQuiet hu (by rw [hp]; rfl)
          | ok | ack | credentials | started | swallowed => simp [watchdogStep] at h
      | false =>
          have hp : (m.calls cid).phase = .watching sid := by simp [hc, Call.phase]
          cases r with
          | ok =>
              simp only [watchdogStep, Bool.false_eq_true, if_false, Option.some.injEq] at h
              subst h
              exact .cancelled (by simp [cancels, hc]) (Or.inr hp) hu rfl
          | raise e =>
              simp only [watchdogStep, Bool.false_eq_true, if_false,
                Option.ite_none_left_eq_some, Option.some.injEq] at h
              obtain ⟨he, rfl⟩ := h
              exact .cancelled (by simp [cancels, hc, he]) (Or.inr hp) hu rfl
          | ack | credentials | started | swallowed => simp [watchdogStep] at h

lemma graceLoop_move {l : Label} (hp : (m.calls cid).phase = .idle) (hu : m.calls cid ≠ .idle)
    (deadline : Time) : Move cfg m l (m.graceLoop cid deadline) := by
  rw [graceLoop]
  split
  · rename_i ht
    exact .swept (Or.inr ht) hp hu rfl
  · split
    · exact .callQuiet hu (by rw [hp]; rfl)
    · exact .tasksCancelled hp hu rfl

lemma shutdownStep_move {pc : ShutdownPc} (hc : m.calls cid = .shutdown pc)
    (h : m.shutdownStep cid pc r = some m') : Move cfg m (.call cid r) m' := by
  have hu : m.calls cid ≠ .idle := by simp [hc]
  have hp : (m.calls cid).phase = .idle := by simp [hc, Call.phase]
  have hq : ∀ pc', Move cfg m (.call cid r) (m.setCall cid (.shutdown pc')) := fun pc' =>
    .callQuiet hu (by rw [hp]; rfl)
  cases pc with
  | done => cases r <;> simp [shutdownStep] at h
  | loop rest graceS =>
      cases r with
      | ok =>
          cases rest with
          | nil =>
              simp only [shutdownStep, Option.some.injEq] at h
              subst h
              exact graceLoop_move hp hu _
          | cons sid rest =>
              simp only [shutdownStep, Option.some.injEq] at h
              subst h
              exact hq _
      | raise | ack | credentials | started | swallowed => cases rest <;> simp [shutdownStep] at h
  | cancelling sid rest graceS =>
      cases r with
      | ok =>
          simp only [shutdownStep, Option.some.injEq] at h
          subst h
          exact .cancelled (by simp [cancels, hc]) (Or.inl hp) hu rfl
      | raise e =>
          by_cases he : e = .cancelledError
          · simp only [shutdownStep, he, if_true, Option.some.injEq] at h
            subst h
            exact hq _
          · simp only [shutdownStep, he, if_false, Option.some.injEq] at h
            subst h
            exact .cancelled (by simp [cancels, hc, he]) (Or.inl hp) hu rfl
      | ack | credentials | started | swallowed => simp [shutdownStep] at h
  | grace deadline =>
      cases r with
      | ok =>
          simp only [shutdownStep, Option.some.injEq] at h
          subst h
          exact graceLoop_move hp hu _
      | raise e =>
          cases e <;> simp only [shutdownStep, Option.some.injEq, reduceCtorEq] at h
          subst h
          exact hq _
      | ack | credentials | started | swallowed => simp [shutdownStep] at h
  | gather sids =>
      cases r with
      | ok =>
          simp only [shutdownStep, Option.ite_none_right_eq_some, Option.some.injEq] at h
          obtain ⟨-, rfl⟩ := h
          exact .swept (Or.inl (by simp [sweeps, hc])) hp hu rfl
      | raise e =>
          cases e <;> simp only [shutdownStep, Option.some.injEq, reduceCtorEq] at h
          subst h
          exact hq _
      | ack | credentials | started | swallowed => simp [shutdownStep] at h

lemma submitCheck_drafts (args : SubmitArgs) :
    m.Drafts (m.submitCheck cfg args).1 (m.submitCheck cfg args).2 := by
  rw [submitCheck]
  split
  · exact Or.inl ⟨rfl, Or.inl rfl⟩
  · split
    · exact Or.inr ⟨rfl, rfl⟩
    · exact Or.inl ⟨rfl, Or.inr rfl⟩

lemma submitStep_move {args : SubmitArgs} {pc : SubmitPc} (hc : m.calls cid = .submit args pc)
    (h : m.submitStep cfg cid args pc r = some m') : Move cfg m (.call cid r) m' := by
  have hu : m.calls cid ≠ .idle := by simp [hc]
  cases pc with
  | done => simp [submitStep] at h
  | lookup =>
      have hp : (m.calls cid).phase = .idle := by simp [hc, Call.phase]
      cases r with
      | credentials rows =>
          simp only [submitStep, Option.some.injEq] at h
          subst h
          exact .lookedUp hp hu (submitCheck_drafts _)
      | raise e =>
          by_cases he : e = .cancelledError
          · simp only [submitStep, he, if_true, Option.some.injEq] at h
            subst h
            exact .callQuiet hu (by rw [hp]; rfl)
          · by_cases hs : cfg.requirePerUserCredentials = true
            · simp only [submitStep, he, hs, if_false, if_true, Option.some.injEq] at h
              subst h
              exact .callQuiet hu (by rw [hp]; rfl)
            · simp only [submitStep, he, hs, if_false, Option.some.injEq, Bool.false_eq_true] at h
              subst h
              exact .lookedUp hp hu (submitCheck_drafts _)
      | ok | ack | started | swallowed => simp [submitStep] at h
  | create sid =>
      have hp : (m.calls cid).phase = .drafting sid := by simp [hc, Call.phase]
      cases r with
      | raise e =>
          simp only [submitStep, Option.some.injEq] at h
          subst h
          exact .callDropped hu (by simp [hp]) rfl
      | ok | ack | credentials | started | swallowed => simp [submitStep] at h
  | created sid =>
      have hp : (m.calls cid).phase = .submitting sid := by simp [hc, Call.phase]
      cases r with
      | ok =>
          simp only [submitStep, Option.some.injEq] at h
          subst h
          exact .callQuiet hu (by rw [hp]; rfl)
      | raise e =>
          simp only [submitStep, Option.some.injEq] at h
          subst h
          exact .callDropped hu (by simp [hp]) rfl
      | ack | credentials | started | swallowed => simp [submitStep] at h
  | audit sid =>
      have hp : (m.calls cid).phase = .submitting sid := by simp [hc, Call.phase]
      cases r with
      | ok =>
          simp only [submitStep, Option.some.injEq] at h
          subst h
          exact .callQuiet hu (by rw [hp]; rfl)
      | raise e =>
          by_cases he : e = .cancelledError
          · simp only [submitStep, he, if_true, Option.some.injEq] at h
            subst h
            exact .callDropped hu (by simp [hp]) rfl
          · simp only [submitStep, he, if_false, Option.some.injEq] at h
            subst h
            exact .callQuiet hu (by rw [hp]; rfl)
      | ack | credentials | started | swallowed => simp [submitStep] at h
  | publish sid =>
      have hp : (m.calls cid).phase = .submitting sid := by simp [hc, Call.phase]
      cases r with
      | ok =>
          simp only [submitStep, Option.some.injEq] at h
          subst h
          exact .registered hp rfl
      | raise e =>
          simp only [submitStep, Option.some.injEq] at h
          subst h
          exact .callDropped hu (by simp [hp]) rfl
      | ack | credentials | started | swallowed => simp [submitStep] at h

lemma callStep_move (h : m.callStep cfg cid r = some m') : Move cfg m (.call cid r) m' := by
  rw [callStep] at h
  split at h
  · simp at h
  · rename_i args pc hc
    exact submitStep_move hc h
  · rename_i sid pc hc
    exact pauseStep_move hc h
  · rename_i sid pc hc
    exact resumeStep_move hc h
  · rename_i sid pc hc
    exact cancelStep_move hc h
  · rename_i sid b pc hc
    exact watchdogStep_move hc h
  · rename_i pc hc
    exact shutdownStep_move hc h

/-- A commit that fails leaves the session as it was. -/
lemma modify_row_self : (m.modify sid fun s => { s with row := (m.sess sid).row }) = m := by
  simp [modify]

lemma callCommit_move (h : m.callCommit cid = some m') : Move cfg m (.callCommit cid) m' := by
  rw [callCommit] at h
  split at h
  · rename_i args sid hc
    cases h
    exact .created (by simp [hc, Call.phase]) rfl
  · rename_i sid t l hc
    have hu : m.calls cid ≠ .idle := by simp [hc]
    obtain ⟨p, hp, rfl⟩ := Option.map_eq_some_iff.mp h
    rcases Locked.commit_row (pauseFields_isEmpty t) hp with ⟨hr, -⟩ | ⟨r, b, v, hr, hw, hv, hl, -⟩
    · rw [hr, modify_row_self]
      exact .callQuiet hu (by simp [hc, Call.phase])
    · rw [hw]
      subst hl
      exact .callWrote (by simp [callWrites, hc, hr, hv]) (Or.inl (by simp [hc, Call.phase])) hr
        (Or.inl rfl) (by simp [hc, Call.phase])
  · rename_i sid l hc
    have hu : m.calls cid ≠ .idle := by simp [hc]
    obtain ⟨p, hp, rfl⟩ := Option.map_eq_some_iff.mp h
    rcases Locked.commit_row resumeFields_isEmpty hp with ⟨hr, -⟩ | ⟨r, b, v, hr, hw, hv, hl, -⟩
    · rw [hr, modify_row_self]
      exact .callQuiet hu (by simp [hc, Call.phase])
    · rw [hw]
      subst hl
      exact .callWrote (by simp [callWrites, hc, hr, hv]) (Or.inr (by simp [hc, Call.phase])) hr
        (Or.inr rfl) (by simp [hc, Call.phase])
  · simp at h

/-! ### The task of a session -/

lemma phase_terminal {e : EndState} {t : Time} {l : Locked}
    (h : ∀ second v, l ≠ .landed second (.ok v)) :
    (RunPc.terminal e t l).phase = .settling := by
  cases l with
  | landed second result =>
      cases result with
      | ok v => exact absurd rfl (h second v)
      | error err => rfl
  | read | write | jitter | reread => rfl

lemma runDeliver_eq (m : Manager) (sid : SessionId) (r : Reply) :
    ∃ q, m.runDeliver sid r = m.modify sid fun s => { s with cancelRequested := q } := by
  rw [runDeliver]
  split
  · exact ⟨false, rfl⟩
  · exact ⟨(m.sess sid).cancelRequested, by simp [modify]⟩

section Task

variable {l : Label} {q : Bool} {pc : RunPc}

/-- A task that goes on in its phase. -/
lemma setRun_move (hp : pc.phase = (m.sess sid).run.phase) (ha : pc.phase ≠ .absent)
    (he : (m.sess sid).run.EndsTerminal → pc.EndsTerminal) :
    Move cfg m l ((m.modify sid fun s => { s with cancelRequested := q }).setRun sid pc) := by
  have h : Move cfg m l (m.modify sid fun s =>
      { s with run := pc, state := (m.sess sid).state, bridge := (m.sess sid).bridge,
               cancelRequested := q }) := .runQuiet hp ha Or.inl he
  rwa [setRun, modify_modify, m.modify_congr]
  rfl

/-- The exception ladder of a task that holds a slot. -/
lemma runExcept_move (h : (m.sess sid).run.phase = .held) (e : Exn) :
    Move cfg m l ((m.modify sid fun s => { s with cancelRequested := q }).runExcept sid true e) := by
  have hr : ∀ reason, Move cfg m l
      ((m.modify sid fun s => { s with cancelRequested := q }).setRun sid
        (.report ⟨.failed, reason⟩)) := fun reason =>
    setRun_move (by rw [h]; rfl) (by simp [RunPc.phase]) fun _ => trivial
  have hf : ∀ reason, Move cfg m l
      ((m.modify sid fun s => { s with cancelRequested := q }).runFinally sid true
        ⟨.cancelled, reason⟩) := fun reason =>
    .runEnded h fun _ => trivial
  cases e <;> first | exact hf _ | exact hr _

/-- A task that changes its bridge or its entry of `_session_states` on the way. -/
lemma modify_move {f : Session → Session} {st : Option SessionState} {b : Bool}
    (hf : f { m.sess sid with cancelRequested := q } =
      { m.sess sid with run := pc, state := st, bridge := b, cancelRequested := q })
    (hp : pc.phase = (m.sess sid).run.phase) (ha : pc.phase ≠ .absent)
    (hb : b = true → (m.sess sid).bridge = true ∨ pc.phase = .held)
    (he : (m.sess sid).run.EndsTerminal → pc.EndsTerminal) :
    Move cfg m l ((m.modify sid fun s => { s with cancelRequested := q }).modify sid f) := by
  have h : Move cfg m l (m.modify sid fun s =>
      { s with run := pc, state := st, bridge := b, cancelRequested := q }) :=
    .runQuiet hp ha hb he
  rwa [modify_modify, m.modify_congr]
  exact hf

/-- A task that asks for a slot, or gets it. -/
lemma acquire_move {sem : Semaphore Waiter}
    (h : ∀ q, Move cfg m l ({ m with sem := sem }.modify sid fun s =>
      { s with run := pc, cancelRequested := q })) :
    Move cfg m l ({ m.modify sid fun s => { s with cancelRequested := q } with
      sem := sem }.setRun sid pc) := by
  have hm : ({ m.modify sid fun s => { s with cancelRequested := q } with sem := sem } : Manager)
      = { m with sem := sem }.modify sid fun s => { s with cancelRequested := q } := rfl
  rw [hm, setRun, modify_modify]
  exact h q

lemma runResume_move (hpc : (m.sess sid).run = pc)
    (h : (m.modify sid fun s => { s with cancelRequested := q }).runResume sid pc r = some m') :
    Move cfg m (.run sid r) m' := by
  cases pc with
  | absent => simp [runResume] at h
  | done => simp [runResume] at h
  | start =>
      have hp : (m.sess sid).run.phase = .created := by rw [hpc]; rfl
      cases r with
      | ok =>
          simp only [runResume, modify_sem, Option.some.injEq] at h
          subst h
          cases ha : m.sem.acquire (.run sid) with
          | mk sem atOnce =>
              cases atOnce with
              | true => exact acquire_move fun _ => .runTook (Or.inl ⟨ha, hp⟩) rfl trivial
              | false => exact acquire_move fun _ => .runQueued ha hp rfl trivial
      | raise e =>
          cases e <;> simp only [runResume, Option.some.injEq, reduceCtorEq] at h
          subst h
          rw [setRun, modify_modify]
          exact .runNever hp
      | ack | credentials | started | swallowed => simp [runResume] at h
  | acquire =>
      have hp : (m.sess sid).run.phase = .waiting := by rw [hpc]; rfl
      cases r with
      | ok =>
          simp only [runResume, modify_sem, Option.map_eq_some_iff] at h
          obtain ⟨sem, hs, rfl⟩ := h
          exact acquire_move fun _ => .runTook (Or.inr ⟨hs, hp⟩) rfl trivial
      | raise e =>
          cases e <;> simp only [runResume, Option.some.injEq, reduceCtorEq] at h
          subst h
          exact .runRefused hp trivial
      | ack | credentials | started | swallowed => simp [runResume] at h
  | begin t l =>
      have hp : (m.sess sid).run.phase = .held := by rw [hpc]; rfl
      simp only [runResume, Option.map_eq_some_iff] at h
      obtain ⟨x, hx, rfl⟩ := h
      split
      · exact setRun_move hp.symm (by simp [RunPc.phase]) fun _ => trivial
      · exact setRun_move hp.symm (by simp [RunPc.phase]) fun _ => trivial
      · exact setRun_move hp.symm (by simp [RunPc.phase]) fun _ => trivial
      · exact runExcept_move hp _
  | announce =>
      have hp : (m.sess sid).run.phase = .held := by rw [hpc]; rfl
      cases r with
      | ok =>
          simp only [runResume, Option.some.injEq] at h
          subst h
          exact modify_move rfl hp.symm (by simp [RunPc.phase]) (fun _ => Or.inr rfl) fun _ => trivial
      | raise e =>
          simp only [runResume, Option.some.injEq] at h
          subst h
          exact runExcept_move hp _
      | ack | credentials | started | swallowed => simp [runResume] at h
  | prepare =>
      have hp : (m.sess sid).run.phase = .held := by rw [hpc]; rfl
      cases r with
      | ok =>
          simp only [runResume, Option.some.injEq] at h
          subst h
          exact setRun_move hp.symm (by simp [RunPc.phase]) fun _ => trivial
      | raise e =>
          cases e <;> simp only [runResume, Option.some.injEq, reduceCtorEq] at h <;> subst h <;>
            exact runExcept_move hp _
      | ack | credentials | started | swallowed => simp [runResume] at h
  | startExecutor =>
      have hp : (m.sess sid).run.phase = .held := by rw [hpc]; rfl
      cases r with
      | started i =>
          simp only [runResume, Option.some.injEq] at h
          subst h
          exact modify_move rfl hp.symm (by simp [RunPc.phase]) (fun _ => Or.inr rfl) fun _ => trivial
      | raise e =>
          simp only [runResume, Option.some.injEq] at h
          subst h
          exact runExcept_move hp _
      | ok | ack | credentials | swallowed => simp [runResume] at h
  | runtime i l =>
      have hp : (m.sess sid).run.phase = .held := by rw [hpc]; rfl
      simp only [runResume, Option.map_eq_some_iff] at h
      obtain ⟨x, hx, rfl⟩ := h
      split
      · exact setRun_move hp.symm (by simp [RunPc.phase]) fun _ => trivial
      · exact modify_move rfl hp.symm (by simp [RunPc.phase]) (fun _ => Or.inr rfl) fun _ => trivial
      · exact modify_move rfl hp.symm (by simp [RunPc.phase]) (fun _ => Or.inr rfl) fun _ => trivial
      · exact setRun_move hp.symm (by simp [RunPc.phase]) fun _ => trivial
  | drive =>
      have hp : (m.sess sid).run.phase = .held := by rw [hpc]; rfl
      cases r with
      | ok | raise =>
          simp only [runResume, Option.some.injEq] at h
          subst h
          exact setRun_move hp.symm (by simp [RunPc.phase]) fun _ => trivial
      | ack | credentials | started | swallowed => simp [runResume] at h
  | stop pending =>
      have hp : (m.sess sid).run.phase = .held := by rw [hpc]; rfl
      have hf : Move cfg m (.run sid r) ((m.modify sid fun s =>
          { s with cancelRequested := q }).runFinally sid true ⟨.completed, none⟩) :=
        .runEnded hp fun _ => trivial
      simp only [runResume] at h
      split at h
      all_goals simp only [Option.some.injEq, reduceCtorEq] at h
      all_goals subst h
      · exact runExcept_move hp _
      · exact runExcept_move hp _
      · exact runExcept_move hp _
      · exact runExcept_move hp _
      · exact hf
      · exact hf
      · exact hf
  | report e =>
      have hp : (m.sess sid).run.phase = .held := by rw [hpc]; rfl
      cases r with
      | ok | raise =>
          simp only [runResume, Option.some.injEq] at h
          subst h
          exact .runEnded hp (by rw [hpc]; exact id)
      | ack | credentials | started | swallowed => simp [runResume] at h
  | terminal e t l =>
      simp only [runResume, Option.map_eq_some_iff, modify_sess, Function.update_self] at h
      obtain ⟨x, hx, rfl⟩ := h
      cases x with
      | more l' =>
          obtain ⟨hl, hl'⟩ := Locked.resume_more hx
          have hp' : (RunPc.terminal e t l').phase = .settling := phase_terminal fun _ _ => hl' _ _
          exact setRun_move (by rw [hpc, hp', phase_terminal hl]) (by simp [hp'])
            (by rw [hpc]; exact id)
      | returned v =>
          obtain ⟨second, rfl⟩ := Locked.resume_returned hx
          refine setRun_move (by rw [hpc]; split <;> rfl) (by split <;> simp [RunPc.phase]) ?_
          rw [hpc]
          split <;> exact id
      | raised x =>
          have hgo : ∀ pc', pc'.phase = .settled →
              ((m.sess sid).run.EndsTerminal → pc'.EndsTerminal) →
              Move cfg m (.run sid r)
                ((m.modify sid fun s => { s with cancelRequested := q }).setRun sid pc') := by
            intro pc' hp' he
            by_cases hs : (RunPc.terminal e t l).phase = .settled
            · exact setRun_move (by rw [hpc, hs, hp']) (by simp [hp']) he
            · have hl : ∀ second v, l ≠ .landed second (.ok v) := fun _ _ hl => hs (by rw [hl]; rfl)
              rw [setRun, modify_modify]
              exact .runLost (by simp [losesWrite, hpc, hs, hx]) (by rw [hpc, phase_terminal hl])
                hp' he
          split
          · contradiction
          · contradiction
          · exact hgo _ (by split <;> rfl) (by rw [hpc]; split <;> exact id)
          · exact hgo _ (by split <;> rfl) (by rw [hpc]; split <;> exact id)
          · exact hgo _ rfl fun _ => trivial
  | aggregates e =>
      have hp : (m.sess sid).run.phase = .settled := by rw [hpc]; rfl
      cases r with
      | ok =>
          simp only [runResume, Option.some.injEq] at h
          subst h
          exact setRun_move hp.symm (by simp [RunPc.phase]) (by rw [hpc]; exact id)
      | raise x =>
          by_cases hc : x = .cancelledError
          · simp only [runResume, hc, if_true, Option.some.injEq] at h
            subst h
            exact setRun_move hp.symm (by simp [RunPc.phase]) fun _ => trivial
          · simp only [runResume, hc, if_false, Option.some.injEq] at h
            subst h
            exact setRun_move hp.symm (by simp [RunPc.phase]) (by rw [hpc]; exact id)
      | ack | credentials | started | swallowed => simp [runResume] at h
  | final e =>
      have hp : (m.sess sid).run.phase = .settled := by rw [hpc]; rfl
      cases r with
      | ok | raise =>
          simp only [runResume, Option.some.injEq] at h
          subst h
          exact setRun_move hp.symm (by simp [RunPc.phase]) fun _ => trivial
      | ack | credentials | started | swallowed => simp [runResume] at h

lemma runStep_move (h : m.runStep sid r = some m') : Move cfg m (.run sid r) m' := by
  rw [runStep] at h
  split at h
  · simp at h
  · obtain ⟨q, hq⟩ := runDeliver_eq m sid r
    rw [hq] at h
    exact runResume_move rfl h

lemma runCommit_move (h : m.runCommit sid = some m') : Move cfg m (.runCommit sid) m' := by
  have hkeep : ∀ pc', pc'.phase = (m.sess sid).run.phase → pc'.phase ≠ .absent →
      ((m.sess sid).run.EndsTerminal → pc'.EndsTerminal) →
      Move cfg m (.runCommit sid)
        (m.modify sid fun s => { s with row := (m.sess sid).row, run := pc' }) := by
    intro pc' hp ha he
    have hm : Move cfg m (.runCommit sid) (m.modify sid fun s =>
        { s with run := pc', state := (m.sess sid).state, bridge := (m.sess sid).bridge,
                 cancelRequested := (m.sess sid).cancelRequested }) :=
      .runQuiet hp ha Or.inl he
    rwa [m.modify_congr]
    rfl
  rw [runCommit] at h
  split at h
  · rename_i t l hpc
    have hp : (m.sess sid).run.phase = .held := by rw [hpc]; rfl
    obtain ⟨p, hc, rfl⟩ := Option.map_eq_some_iff.mp h
    rcases Locked.commit_row (beginFields_isEmpty t) hc with ⟨hr, -⟩ | ⟨r, _, v, hr, hw, -⟩
    · rw [hr]
      exact hkeep _ hp.symm (by simp [RunPc.phase]) fun _ => trivial
    · rw [hw]
      exact .runWrote hp rfl trivial hr (Or.inr rfl)
  · rename_i i l hpc
    have hp : (m.sess sid).run.phase = .held := by rw [hpc]; rfl
    obtain ⟨p, hc, rfl⟩ := Option.map_eq_some_iff.mp h
    rcases Locked.commit_row (runtimeFields_isEmpty i) hc with ⟨hr, -⟩ | ⟨r, _, v, hr, hw, -⟩
    · rw [hr]
      exact hkeep _ hp.symm (by simp [RunPc.phase]) fun _ => trivial
    · rw [hw]
      exact .runWrote hp rfl trivial hr (Or.inl rfl)
  · rename_i e t l hpc
    obtain ⟨p, hc, rfl⟩ := Option.map_eq_some_iff.mp h
    rcases Locked.commit_row (endFields_isEmpty e t) hc with
      ⟨hr, second, v, err, hl, hl', -⟩ | ⟨r, second, v, hr, hw, -, hl, hl'⟩
    · rw [hr, hl']
      exact hkeep _ (by rw [hpc, hl]; rfl) (by simp [RunPc.phase]) (by rw [hpc]; exact id)
    · rw [hw, hl']
      exact .runSettled (by rw [hpc, hl]; rfl) rfl (by rw [hpc]; exact fun he => ⟨he, he⟩) hr
  · simp at h

end Task

/-! ### The manager -/

/-- **Every step of the manager is a `Move`.** -/
theorem step_move {l : Label} (h : m.step cfg l = some m') : Move cfg m l m' := by
  cases l with
  | submit args =>
      cases h
      rw [submitEntry]
      split
      · exact .entered (Or.inl ⟨rfl, Or.inl rfl⟩)
      · split
        · exact .entered (Or.inl ⟨rfl, Or.inl rfl⟩)
        · exact .entered (submitCheck_drafts args)
  | pause sid =>
      cases h
      rw [pauseEntry]
      split
      · exact .entered (Or.inl ⟨rfl, Or.inl rfl⟩)
      · rename_i hb
        have hb : (m.sess sid).bridge = true := by simpa using hb
        split
        · rename_i hp
          exact .rearmed rfl hb hp
        · rename_i hp
          split
          · exact .asked hb hp
          · exact .entered (Or.inl ⟨rfl, Or.inl rfl⟩)
  | resume sid =>
      cases h
      rw [resumeEntry]
      split
      · exact .entered (Or.inl ⟨rfl, Or.inl rfl⟩)
      · rename_i h
        simp only [not_or, not_not, Bool.not_eq_false] at h
        exact .resumeStarted h.2 h.1
  | cancel sid =>
      cases h
      exact .entered (Or.inl ⟨rfl, Or.inl rfl⟩)
  | shutdown cancelPaused graceS =>
      cases h
      rw [shutdownEntry]
      split
      · exact .entered (Or.inl ⟨rfl, Or.inl rfl⟩)
      · exact .entered (Or.inl ⟨rfl, Or.inl rfl⟩)
  | call cid r => exact callStep_move h
  | callCommit cid => exact callCommit_move h
  | run sid r => exact runStep_move h
  | runCommit sid => exact runCommit_move h
  | reap sid =>
      simp only [step, reap, Option.ite_none_right_eq_some, Option.some.injEq] at h
      obtain ⟨hd, rfl⟩ := h
      exact .reaped hd
  | fire sid =>
      simp only [step, fire] at h
      split at h
      · rename_i d ht
        split at h
        · split at h
          · rename_i hp
            cases h
            exact .fired ht hp
          · rename_i hp
            cases h
            exact .expired ht hp
        · simp at h
      · simp at h
  | tick =>
      cases h
      exact .ticked

end Manager

end GgRelay
