import GgRelay.Session.Manager.Frame
import GgRelay.Session.Manager.WellFormed
import GgRelay.Subscribers.AlertRouter

/-!
The reason a session is cancelled for: on its way from the call of `cancel` through the task of the
session into the row, the last event and the alert rules.

* `Traced` is the manager with a record of who asked for each cancellation, and of whose request
  got a task out of its work;
* `Fate` is what a task has come to, `fate_step` what one step of it can do;
* `reasons_survive_iff`: the reasons survive exactly where they are the `cancelled` that the ladder
  of `_run` writes for every one of them.
-/

namespace GgRelay

/-- Who asks for the cancellation of a task. -/
inductive Canceller where
  /-- a call of `cancel` with this `reason` -/
  | caller (reason : String)
  /-- `_paused_timeout_watchdog` -/
  | watchdog
  /-- `shutdown`, of a paused session -/
  | shutdownPaused
  /-- `shutdown`, of the tasks that outlive its grace period -/
  | shutdownGrace
  deriving DecidableEq, Repr

/-- The `reason` handed to `cancel`; at the end of its grace period `shutdown` does not go through
`cancel`. -/
def Canceller.reason : Canceller → Option String
  | .caller reason => some reason
  | .watchdog => some "paused_timeout"
  | .shutdownPaused => some "shutdown_during_pause"
  | .shutdownGrace => none

/-- What the ladder of `_run` makes of a `CancelledError`. -/
def cancelledEnd : EndState := ⟨.cancelled, some "cancelled"⟩

/-! ### The alert -/

namespace AlertRouter

/-- `_TERMINAL_TO_EVENT_TYPE`. -/
def terminalToEventType : SessionState → Option String
  | .failed => some "session_failed"
  | .cancelled => some "session_cancelled"
  | .completed => some "session_completed"
  | _ => none

/-- `_USER_INITIATED_CANCEL_REASONS`. -/
def userInitiatedCancelReasons : List String := ["user_cancel", "user_request"]

/-- `FailureSubscriber.handle`: the `event_type` and the `end_reason` the router is asked about. -/
def forwarded (e : EndState) : Option (String × String) :=
  (terminalToEventType e.status).bind fun eventType =>
    let endReason := (e.reason.filter (· ≠ "")).getD "unknown"
    if eventType = "session_cancelled" ∧ endReason ∈ userInitiatedCancelReasons then none
    else some (eventType, endReason)

/-- A condition of the `cancel` rule holds of the end of a session with these tags. -/
def cancelRuleHolds (cond : String) (tags : List String) (e : EndState) : Bool :=
  match forwarded e with
  | some (eventType, endReason) =>
      decide (eventTypeToRuleKey eventType = some "cancel") && conditionHolds endReason tags cond
  | none => false

end AlertRouter

/-! ### Who asked for what -/

namespace Manager

variable (m : Manager)

/-- The canceller whose requests a step makes. -/
def canceller (reasonOf : CallId → String) : Label → Option Canceller
  | .call cid _ =>
      match m.calls cid with
      | .cancel _ _ => some (.caller (reasonOf cid))
      | .watchdog _ _ _ => some .watchdog
      | .shutdown (.cancelling _ _ _) => some .shutdownPaused
      | .shutdown _ => some .shutdownGrace
      | _ => none
  | _ => none

/-- The session whose task a `CancelledError` gets out of its work. -/
def cancelEnds : Label → Option SessionId
  | .run sid (.raise .cancelledError) =>
      match (m.sess sid).run with
      | .stop (some .cancelledError) => none
      | .report _ | .terminal _ _ _ | .aggregates _ | .final _ => none
      | _ => some sid
  | _ => none

/-- The session whose `finally` block publishes its `SessionStateChanged`, with the end it
publishes. -/
def publishes : Label → Option (SessionId × EndState)
  | .run sid _ =>
      match (m.sess sid).run with
      | .final e => some (sid, e)
      | _ => none
  | _ => none

end Manager

/-- The manager with the history of its cancellations. -/
structure Traced where
  manager : Manager
  /-- who asked first for the cancellation that a task has not received yet -/
  requestedBy : SessionId → Option Canceller
  /-- whose request got the task of the session out of its work -/
  endedBy : SessionId → Option Canceller
  /-- the terminal events, oldest first -/
  published : List (SessionId × EndState)

namespace Traced

/-- A step of the manager, recorded. -/
def record (reasonOf : CallId → String) (a : Traced) (l : Label) (m' : Manager) : Traced where
  manager := m'
  requestedBy sid :=
    if (m'.sess sid).cancelRequested then
      if (a.manager.sess sid).cancelRequested then a.requestedBy sid
      else a.manager.canceller reasonOf l
    else none
  endedBy sid := if a.manager.cancelEnds l = some sid then a.requestedBy sid else a.endedBy sid
  published := a.published ++ (a.manager.publishes l).toList

end Traced

/-- The manager, where the call `cid` of `cancel` is made with the reason `reasonOf cid`. -/
def tracedSystem (cfg : ManagerConfig) (reasonOf : CallId → String) : System Traced Label where
  init a := ∃ rows, a = ⟨.fresh cfg rows, fun _ => none, fun _ => none, []⟩
  step a l := (a.manager.step cfg l).map (a.record reasonOf l)

/-- The history does not get in the way of the manager. -/
lemma Traced.reachable {cfg : ManagerConfig} {reasonOf : CallId → String} {a : Traced}
    (h : (tracedSystem cfg reasonOf).Reachable a) : (managerSystem cfg).Reachable a.manager := by
  induction h with
  | init h =>
      obtain ⟨rows, rfl⟩ := h
      exact .init ⟨rows, rfl⟩
  | step _ _ hstep ih =>
      obtain ⟨m', hm', rfl⟩ := Option.map_eq_some_iff.mp hstep
      exact .step ih trivial hm'

/-! ### What is to hold -/

namespace Traced

/-- The session has a terminal row, or its terminal event is out. -/
def Settled (a : Traced) (sid : SessionId) : Prop :=
  (∃ r, (a.manager.sess sid).row = some r ∧ r.status.Terminal) ∨ ∃ e, (sid, e) ∈ a.published

/-- A session that was cancelled for a reason says so in its terminal row and in its terminal
event, and the alert rule for `paused_timeout` picks out those the watchdog ended. -/
structure ReasonsSurvive (a : Traced) : Prop where
  row : ∀ sid c reason r, a.endedBy sid = some c → c.reason = some reason →
    (a.manager.sess sid).row = some r → r.status.Terminal → r.endReason = some reason
  event : ∀ sid c reason e, a.endedBy sid = some c → c.reason = some reason →
    (sid, e) ∈ a.published → e.reason = some reason
  alert : ∀ sid e tags, (sid, e) ∈ a.published →
    (AlertRouter.cancelRuleHolds "paused_timeout" tags e = true ↔ a.endedBy sid = some .watchdog)

end Traced

/-! ### What a task can come to -/

/-- What the task of a session has come to. -/
inductive Fate where
  | absent
  | working
  /-- an exception is on its way out, past `executor.stop` -/
  | thrown (e : Exn)
  /-- the end is known -/
  | settled (e : EndState)
  | done

/-- What a task has come to where it is suspended. -/
def RunPc.fate : RunPc → Fate
  | .absent => .absent
  | .stop (some e) => .thrown e
  | .report e | .terminal e _ _ | .aggregates e | .final e => .settled e
  | .done => .done
  | _ => .working

/-- The end of a task that an exception gets out of its work. -/
def ladder : Exn → EndState
  | .timeoutError => ⟨.cancelled, some "timeout"⟩
  | .cancelledError => cancelledEnd
  | .pluginInstall code => ⟨.failed, some s!"install:{code}"⟩
  | e => ⟨.failed, some (sdkReason e)⟩

/-- An end that no cancellation brought about. -/
structure EndState.Other (e : EndState) : Prop where
  uncancelled : e ≠ cancelledEnd
  unnamed : e.reason ≠ some "paused_timeout"

/-- The task is on its way out, or out, because of a cancellation. -/
def Fate.Cancelled : Fate → Prop
  | .absent | .working => False
  | .thrown e => e = .cancelledError
  | .settled e => e = cancelledEnd
  | .done => True

/-- What one step can make of a task, with the reply to its `await`. -/
inductive Fate.Step (r : Reply) : Fate → Fate → Prop
  | work (hr : r ≠ .raise .cancelledError) : Step r .working .working
  | throw {e : Exn} (hr : r ≠ .raise .cancelledError) (he : e ≠ .cancelledError) :
      Step r .working (.thrown e)
  | settle {e : EndState} (hr : r ≠ .raise .cancelledError) (he : e.Other) :
      Step r .working (.settled e)
  | cancel {f : Fate} (hr : r = .raise .cancelledError) (hf : f.Cancelled) : Step r .working f
  | caught {x : Exn} (hr : r ≠ .raise .cancelledError) : Step r (.thrown x) (.settled (ladder x))
  | replaced {x : Exn} (hr : r = .raise .cancelledError) :
      Step r (.thrown x) (.settled cancelledEnd)
  | keep {e : EndState} : Step r (.settled e) (.settled e)
  | finish {e : EndState} : Step r (.settled e) .done

lemma ladder_other {e : Exn} (h : e ≠ .cancelledError) : (ladder e).Other := by
  refine ⟨by cases e <;> simp_all [ladder, cancelledEnd], fun hreason => ?_⟩
  have hcolon : ':' ∉ "paused_timeout".toList := by decide
  cases e with
  | cancelledError => exact h rfl
  | timeoutError => simp [ladder] at hreason
  | pluginInstall code =>
      rw [← Option.some.inj hreason] at hcolon
      simp [toString] at hcolon
  | other category httpStatus =>
      rw [← Option.some.inj hreason] at hcolon
      simp [sdkReason, toString] at hcolon
  | _ => simp [ladder, sdkReason] at hreason

namespace Fate.Step

variable {r : Reply}

/-- An exception gets the task out of its work. -/
lemma raised {e : Exn} (hr : r = .raise .cancelledError ↔ e = .cancelledError) :
    Step r .working (.settled (ladder e)) := by
  by_cases he : e = .cancelledError
  · subst he
    exact .cancel (hr.mpr rfl) rfl
  · exact .settle (fun h => he (hr.mp h)) (ladder_other he)

lemma thrown {e : Exn} (hr : r = .raise .cancelledError ↔ e = .cancelledError) :
    Step r .working (.thrown e) := by
  by_cases he : e = .cancelledError
  · exact .cancel (hr.mpr he) he
  · exact .throw (fun h => he (hr.mp h)) he

variable {f f' : Fate}

/-- What is on its way out because of a cancellation stays so. -/
lemma cancelled (h : Step r f f') (hf : f.Cancelled) : f'.Cancelled := by
  cases h with
  | work | throw | settle | cancel => exact hf.elim
  | caught => exact congrArg ladder hf
  | replaced => rfl
  | keep => exact hf
  | finish => trivial

/-- A `CancelledError` gets a task out of its work, and takes the place of another exception. -/
lemma delivered (h : Step (.raise .cancelledError) f f') (hf : ∀ e, f ≠ .settled e) :
    f'.Cancelled := by
  cases h with
  | work hr | throw hr | settle hr | caught hr => exact absurd rfl hr
  | cancel _ hf' => exact hf'
  | replaced => rfl
  | keep => exact absurd rfl (hf _)
  | finish => trivial

/-- A task whose work is over stays so. -/
lemma finished (h : Step r f f') (hf : f ≠ .working) (hf' : ∀ e, f ≠ .thrown e) :
    f' ≠ .working ∧ ∀ e, f' ≠ .thrown e := by
  cases h with
  | work | throw | settle | cancel => exact absurd rfl hf
  | caught | replaced => exact absurd rfl (hf' _)
  | keep | finish => exact ⟨nofun, nofun⟩

/-- The end of a task is that of a cancellation, or another one. -/
lemma ends {e : EndState} (h : Step r f (.settled e))
    (hf : f = .settled e → e = cancelledEnd ∨ e.Other) : e = cancelledEnd ∨ e.Other := by
  cases h with
  | settle _ he => exact .inr he
  | cancel _ he => exact .inl he
  | @caught x =>
      by_cases hx : x = .cancelledError
      · exact .inl (congrArg ladder hx)
      · exact .inr (ladder_other hx)
  | replaced => exact .inl rfl
  | keep => exact hf rfl

/-- Where an end of a cancellation comes from. -/
lemma asked (h : Step r f f') (hf' : f' = .thrown .cancelledError ∨ f' = .settled cancelledEnd) :
    f = .thrown .cancelledError ∨ f = .settled cancelledEnd ∨
      r = .raise .cancelledError ∧ (f = .working ∨ ∃ e, f = .thrown e) := by
  cases h with
  | work => simp at hf'
  | throw _ he => simp [he] at hf'
  | settle _ he => simp [he.uncancelled] at hf'
  | cancel hr => exact .inr (.inr ⟨hr, .inl rfl⟩)
  | @caught x =>
      by_cases hx : x = .cancelledError
      · exact .inl (by rw [hx])
      · simp [(ladder_other hx).uncancelled] at hf'
  | replaced hr => exact .inr (.inr ⟨hr, .inr ⟨_, rfl⟩⟩)
  | keep => exact .inr (.inl (hf'.resolve_left nofun))
  | finish => simp at hf'

end Fate.Step

namespace Manager

variable {cfg : ManagerConfig} {m m' : Manager} {sid : SessionId} {r : Reply}

/-- The task is at its next `await`, and everything else is as it was. -/
structure GoesTo (m m' : Manager) (sid : SessionId) (r : Reply) : Prop where
  fate : Fate.Step r (m.sess sid).run.fate (m'.sess sid).run.fate
  row : (m'.sess sid).row = (m.sess sid).row
  requested : (m'.sess sid).cancelRequested = true → (m.sess sid).cancelRequested = true
  others : ∀ s ≠ sid, m'.sess s = m.sess s

/-- The task has not looked at the semaphore. -/
lemma GoesTo.of_sem {sem : Semaphore Waiter} (h : GoesTo { m with sem := sem } m' sid r) :
    m.GoesTo m' sid r :=
  ⟨h.fate, h.row, h.requested, h.others⟩

lemma modify_goesTo {f : Session → Session} (hrow : (f (m.sess sid)).row = (m.sess sid).row)
    (hrequested : (f (m.sess sid)).cancelRequested = (m.sess sid).cancelRequested)
    (h : Fate.Step r (m.sess sid).run.fate (f (m.sess sid)).run.fate) :
    m.GoesTo (m.modify sid f) sid r where
  fate := by simpa using h
  row := by simp [hrow]
  requested := by simp [hrequested]
  others s hs := by simp [hs]

lemma setRun_goesTo {pc : RunPc} (h : Fate.Step r (m.sess sid).run.fate pc.fate) :
    m.GoesTo (m.setRun sid pc) sid r :=
  modify_goesTo rfl rfl h

lemma runFinally_goesTo {acquired : Bool} {e : EndState}
    (h : Fate.Step r (m.sess sid).run.fate (.settled e)) :
    m.GoesTo (m.runFinally sid acquired e) sid r where
  fate := by simpa [RunPc.fate] using h
  row := by simp
  requested := by simp
  others s hs := by simp [hs]

lemma runExcept_goesTo {acquired : Bool} {e : Exn}
    (h : Fate.Step r (m.sess sid).run.fate (.settled (ladder e))) :
    m.GoesTo (m.runExcept sid acquired e) sid r := by
  cases e <;> first | exact runFinally_goesTo h | exact setRun_goesTo h

lemma Locked.resume_cancelled {row : Option SessionRow} {l : Locked} {x : LockedStep}
    (h : l.resume row r = some x) : r = .raise .cancelledError ↔ x = .raised .cancelledError := by
  fun_cases Locked.resume row l r <;> simp_all [Locked.resume] <;> simp [← h]

lemma runResume_goesTo (h : m.runResume sid (m.sess sid).run r = some m') : m.GoesTo m' sid r := by
  cases hpc : (m.sess sid).run with
  | absent | done => simp [hpc, runResume] at h
  | start =>
      cases r with
      | ok =>
          simp only [hpc, runResume, Option.some.injEq] at h
          subst h
          refine .of_sem (setRun_goesTo ?_)
          rw [hpc]
          split <;> exact .work (by simp)
      | raise e =>
          cases e <;> simp [hpc, runResume] at h
          subst h
          exact setRun_goesTo (by rw [hpc]; exact .cancel rfl trivial)
      | ack | credentials | started | swallowed => simp [hpc, runResume] at h
  | acquire =>
      cases r with
      | ok =>
          simp only [hpc, runResume, Option.map_eq_some_iff] at h
          obtain ⟨sem, -, rfl⟩ := h
          exact .of_sem (setRun_goesTo (by rw [hpc]; exact .work (by simp)))
      | raise e =>
          cases e <;> simp [hpc, runResume] at h
          subst h
          refine .of_sem (runExcept_goesTo (e := .cancelledError) ?_)
          rw [hpc]
          exact .cancel rfl rfl
      | ack | credentials | started | swallowed => simp [hpc, runResume] at h
  | «begin» t l =>
      simp only [hpc, runResume, Option.map_eq_some_iff] at h
      obtain ⟨x, hx, rfl⟩ := h
      have hr := Locked.resume_cancelled hx
      have hwork {pc : RunPc} (hne : x ≠ .raised .cancelledError) (hf : pc.fate = .working) :
          m.GoesTo (m.setRun sid pc) sid r :=
        setRun_goesTo (by rw [hpc, hf]; exact .work fun h => hne (hr.mp h))
      cases x with
      | more l' => exact hwork (by simp) rfl
      | returned v => exact hwork (by simp) rfl
      | raised e =>
          by_cases he : e = .concurrency
          · subst he
            exact hwork (by simp) rfl
          · have hexcept : m.GoesTo (m.runExcept sid true e) sid r :=
              runExcept_goesTo (by rw [hpc]; exact .raised (by simpa using hr))
            cases e <;> first | exact hexcept | exact absurd rfl he
  | announce =>
      cases r with
      | ok =>
          simp only [hpc, runResume, Option.some.injEq] at h
          subst h
          exact modify_goesTo rfl rfl (by rw [hpc]; exact .work (by simp))
      | raise e =>
          simp only [hpc, runResume, Option.some.injEq] at h
          subst h
          exact runExcept_goesTo (by rw [hpc]; exact .raised (by simp))
      | ack | credentials | started | swallowed => simp [hpc, runResume] at h
  | prepare =>
      cases r with
      | ok =>
          simp only [hpc, runResume, Option.some.injEq] at h
          subst h
          exact setRun_goesTo (by rw [hpc]; exact .work (by simp))
      | raise e =>
          have hexcept : m.GoesTo (m.runExcept sid true e) sid (.raise e) :=
            runExcept_goesTo (by rw [hpc]; exact .raised (by simp))
          cases e <;> simp [hpc, runResume] at h <;> exact h ▸ hexcept
      | ack | credentials | started | swallowed => simp [hpc, runResume] at h
  | startExecutor =>
      cases r with
      | started i =>
          simp only [hpc, runResume, Option.some.injEq] at h
          subst h
          exact modify_goesTo rfl rfl (by rw [hpc]; exact .work (by simp))
      | raise e =>
          simp only [hpc, runResume, Option.some.injEq] at h
          subst h
          exact runExcept_goesTo (by rw [hpc]; exact .raised (by simp))
      | ok | ack | credentials | swallowed => simp [hpc, runResume] at h
  | runtime i l =>
      simp only [hpc, runResume, Option.map_eq_some_iff] at h
      obtain ⟨x, hx, rfl⟩ := h
      have hr := Locked.resume_cancelled hx
      have hwork (hne : x ≠ .raised .cancelledError) {f : Session → Session}
          (hrow : (f (m.sess sid)).row = (m.sess sid).row)
          (hrequested : (f (m.sess sid)).cancelRequested = (m.sess sid).cancelRequested)
          (hf : (f (m.sess sid)).run.fate = .working) : m.GoesTo (m.modify sid f) sid r :=
        modify_goesTo hrow hrequested (by rw [hpc, hf]; exact .work fun h => hne (hr.mp h))
      cases x with
      | more l' => exact hwork (by simp) rfl rfl rfl
      | returned v => exact hwork (by simp) rfl rfl rfl
      | raised e =>
          by_cases he : e = .concurrency
          · subst he
            exact hwork (by simp) rfl rfl rfl
          · have hstop : m.GoesTo (m.setRun sid (.stop (some e))) sid r :=
              setRun_goesTo (by rw [hpc]; exact .thrown (by simpa using hr))
            cases e <;> first | exact hstop | exact absurd rfl he
  | drive =>
      cases r with
      | ok =>
          simp only [hpc, runResume, Option.some.injEq] at h
          subst h
          exact setRun_goesTo (by rw [hpc]; exact .work (by simp))
      | raise e =>
          simp only [hpc, runResume, Option.some.injEq] at h
          subst h
          exact setRun_goesTo (by rw [hpc]; exact .thrown (by simp))
      | ack | credentials | started | swallowed => simp [hpc, runResume] at h
  | stop pending =>
      cases pending with
      | none =>
          have hdone (hr : r ≠ .raise .cancelledError) :
              m.GoesTo (m.runFinally sid true ⟨.completed, none⟩) sid r :=
            runFinally_goesTo (by rw [hpc]; exact .settle hr ⟨by simp [cancelledEnd], by simp⟩)
          have hcancel (hr : r = .raise .cancelledError) :
              m.GoesTo (m.runExcept sid true .cancelledError) sid r :=
            runExcept_goesTo (by rw [hpc]; exact .cancel hr rfl)
          cases r with
          | ok | swallowed =>
              simp only [hpc, runResume, Option.some.injEq] at h
              exact h ▸ hdone (by simp)
          | raise x =>
              cases x <;> simp only [hpc, runResume, Option.some.injEq] at h <;>
                first | exact h ▸ hcancel rfl | exact h ▸ hdone (by simp)
          | ack | credentials | started => simp [hpc, runResume] at h
      | some e =>
          have hcaught (hr : r ≠ .raise .cancelledError) :
              m.GoesTo (m.runExcept sid true e) sid r :=
            runExcept_goesTo (by rw [hpc]; exact .caught hr)
          have hcancel (hr : r = .raise .cancelledError) :
              m.GoesTo (m.runExcept sid true .cancelledError) sid r :=
            runExcept_goesTo (by rw [hpc]; exact .replaced hr)
          cases r with
          | ok | swallowed =>
              simp only [hpc, runResume, Option.some.injEq] at h
              exact h ▸ hcaught (by simp)
          | raise x =>
              cases x <;> simp only [hpc, runResume, Option.some.injEq] at h <;>
                first | exact h ▸ hcancel rfl | exact h ▸ hcaught (by simp)
          | ack | credentials | started => simp [hpc, runResume] at h
  | report e =>
      cases r <;> simp [hpc, runResume] at h <;>
        exact h ▸ runFinally_goesTo (by rw [hpc]; exact .keep)
  | terminal e t l =>
      simp only [hpc, runResume, Option.map_eq_some_iff] at h
      obtain ⟨x, -, rfl⟩ := h
      have hkeep {pc : RunPc} (hf : pc.fate = .settled e ∨ pc.fate = .done) :
          m.GoesTo (m.setRun sid pc) sid r := by
        refine setRun_goesTo ?_
        rw [hpc]
        rcases hf with hf | hf
        · exact hf ▸ .keep
        · exact hf ▸ .finish
      have hnext : (if (m.sess sid).metrics then RunPc.aggregates e else .final e).fate
          = .settled e := by
        split <;> rfl
      cases x with
      | more l' => exact hkeep (.inl rfl)
      | returned v => exact hkeep (.inl hnext)
      | raised x => cases x <;> first | exact hkeep (.inl hnext) | exact hkeep (.inr rfl)
  | aggregates e =>
      cases r with
      | ok =>
          simp only [hpc, runResume, Option.some.injEq] at h
          subst h
          exact setRun_goesTo (by rw [hpc]; exact .keep)
      | raise x =>
          simp only [hpc, runResume] at h
          split at h <;> cases h
          · exact setRun_goesTo (by rw [hpc]; exact .finish)
          · exact setRun_goesTo (by rw [hpc]; exact .keep)
      | ack | credentials | started | swallowed => simp [hpc, runResume] at h
  | final e =>
      cases r <;> simp [hpc, runResume] at h <;>
        exact h ▸ setRun_goesTo (by rw [hpc]; exact .finish)

lemma runStep_goesTo (h : m.runStep sid r = some m') : m.GoesTo m' sid r := by
  rw [runStep] at h
  split at h
  · simp at h
  · have hrun : ((m.runDeliver sid r).sess sid).run = (m.sess sid).run := by
      rw [runDeliver]
      split <;> simp
    rw [← hrun] at h
    have hgo := runResume_goesTo h
    rw [runDeliver] at hgo
    split at hgo
    · exact ⟨by simpa using hgo.fate, by simpa using hgo.row,
        fun hq => absurd (hgo.requested hq) (by simp),
        fun s hs => by simpa [hs] using hgo.others s hs⟩
    · exact hgo

/-! ### What the steps of others leave of a session -/

/-- What the history depends on in a session. -/
def view (m : Manager) (sid : SessionId) : RunPc × Option SessionRow × Bool :=
  ((m.sess sid).run, (m.sess sid).row, (m.sess sid).cancelRequested)

lemma view_modify {f : Session → Session} (hrun : (f (m.sess sid)).run = (m.sess sid).run)
    (hrow : (f (m.sess sid)).row = (m.sess sid).row)
    (hrequested : (f (m.sess sid)).cancelRequested = (m.sess sid).cancelRequested) :
    (m.modify sid f).view = m.view := by
  funext s
  by_cases hs : s = sid
  · subst hs
    simp [view, hrun, hrow, hrequested]
  · simp [view, hs]

lemma view_sem (sem : Semaphore Waiter) : ({ m with sem := sem }).view = m.view := rfl

@[simp] lemma view_setCall (cid : CallId) (c : Call) : (m.setCall cid c).view = m.view := rfl

@[simp] lemma view_newCall (c : Call) : (m.newCall c).view = m.view := rfl

@[simp] lemma view_semRelease : m.semRelease.view = m.view := rfl

@[simp] lemma view_cancelPausedTimer : (m.cancelPausedTimer sid).view = m.view :=
  view_modify (f := fun s => { s with timer := none }) rfl rfl rfl

@[simp] lemma view_armPausedTimer (cfg : ManagerConfig) (d : Option ℕ) :
    (m.armPausedTimer cfg sid d).view = m.view :=
  (view_modify rfl rfl rfl).trans view_cancelPausedTimer

@[simp] lemma view_pauseBookkeeping : (m.pauseBookkeeping sid).view = m.view := by
  funext s
  by_cases hs : s = sid
  · subst hs
    simp [view]
  · simp [view, hs]

@[simp] lemma view_takeSlotBack : (m.takeSlotBack sid).view = m.view := by
  funext s
  by_cases hs : s = sid
  · subst hs
    simp [view]
  · simp [view, hs]

lemma view_sweepTimers : m.sweepTimers.view = m.view :=
  m.foldl_cancelPausedTimer_eq view (fun _ _ => view_cancelPausedTimer) _

lemma view_submitLookedUp (cid : CallId) (args : SubmitArgs) :
    (m.submitLookedUp cfg cid args).view = m.view := rfl

/-- What a request for a cancellation leaves of a session. -/
def outcome (m : Manager) (sid : SessionId) : RunPc × Option SessionRow :=
  ((m.sess sid).run, (m.sess sid).row)

lemma outcome_setCall (cid : CallId) (c : Call) : (m.setCall cid c).outcome = m.outcome := rfl

lemma outcome_sweepTimers : m.sweepTimers.outcome = m.outcome :=
  m.foldl_cancelPausedTimer_eq outcome (fun m s => funext fun t =>
    congrArg (fun v => (v.1, v.2.1)) (congrFun (@view_cancelPausedTimer m s) t)) _

lemma outcome_cancelBlock : (m.cancelBlock sid).outcome = m.outcome := by
  funext s
  by_cases hs : s = sid
  · subst hs
    simp [outcome]
  · simp [outcome, hs]

lemma outcome_cancelTasks : m.cancelTasks.outcome = m.outcome := rfl

section Calls

variable {cid : CallId}

lemma pauseStep_view {pc : PausePc} (h : m.pauseStep cfg cid sid pc r = some m') :
    m'.view = m.view := by
  fun_cases pauseStep cfg m cid sid pc r
  all_goals simp only [pauseStep, reduceCtorEq, Option.some.injEq, Option.map_eq_some_iff] at h
  all_goals first
    | obtain ⟨x, -, rfl⟩ := h
      cases x <;> first | rfl | simp [view_modify]
    | grind [view_setCall, view_armPausedTimer, view_pauseBookkeeping]

lemma resumeStep_view {pc : ResumePc} (h : m.resumeStep cfg cid sid pc r = some m') :
    m'.view = m.view := by
  fun_cases resumeStep cfg m cid sid pc r
  all_goals
    simp only [resumeStep, resumeRollBack, reduceCtorEq, Option.some.injEq,
      Option.map_eq_some_iff] at h
  all_goals first
    | obtain ⟨x, -, rfl⟩ := h
      cases x <;> first | rfl | simp [view_modify]
    | grind [view_setCall, view_armPausedTimer, view_takeSlotBack, view_sem, view_semRelease]

/-- A `submit` that succeeds starts the task of its session. -/
lemma submitStep_view {args : SubmitArgs} {pc : SubmitPc}
    (h : m.submitStep cfg cid args pc r = some m') : m'.view = m.view ∨ ∃ sid, pc = .publish sid ∧
      m'.view = Function.update m.view sid
        (.start, (m.sess sid).row, (m.sess sid).cancelRequested) := by
  cases pc with
  | publish sid =>
      cases r <;> simp only [submitStep, reduceCtorEq, Option.some.injEq] at h <;> subst h
      · refine .inr ⟨sid, rfl, ?_⟩
        funext s
        by_cases hs : s = sid
        · subst hs
          simp [view]
        · simp [view, hs]
      · exact .inl rfl
  | lookup | create | created | audit | done =>
      left
      cases r <;> grind [submitStep, view_submitLookedUp, view_setCall]

lemma cancelStep_outcome {pc : CancelPc} (h : m.cancelStep cid sid pc r = some m') :
    m'.outcome = m.outcome := by
  fun_cases cancelStep m cid sid pc r
  all_goals grind [cancelStep, outcome_setCall, outcome_cancelBlock]

lemma watchdogStep_outcome {b : Bool} {pc : CancelPc}
    (h : m.watchdogStep cid sid b pc r = some m') : m'.outcome = m.outcome := by
  fun_cases watchdogStep m cid sid b pc r
  all_goals grind [watchdogStep, outcome_setCall, outcome_cancelBlock]

lemma shutdownStep_outcome {pc : ShutdownPc} (h : m.shutdownStep cid pc r = some m') :
    m'.outcome = m.outcome := by
  fun_cases shutdownStep m cid pc r
  all_goals grind [shutdownStep, graceLoop, outcome_setCall, outcome_cancelBlock,
    outcome_sweepTimers, outcome_cancelTasks]

end Calls

/-- What a step of anybody else leaves of a session. -/
structure Spares (m : Manager) (l : Label) (m' : Manager) (sid : SessionId) : Prop where
  run : (m'.sess sid).run = (m.sess sid).run
  row : (m'.sess sid).row = (m.sess sid).row ∨
    ∃ r, (m'.sess sid).row = some r ∧ ¬r.status.Terminal
  requested : (m'.sess sid).cancelRequested = true → (m.sess sid).cancelRequested = true ∨
    ∀ reasonOf, m.canceller reasonOf l ≠ none

variable {l : Label}

lemma Spares.of_view (h : m'.view sid = m.view sid) : m.Spares l m' sid where
  run := congrArg Prod.fst h
  row := .inl (congrArg (·.2.1) h)
  requested hq := .inl ((congrArg (·.2.2) h).symm.trans hq)

lemma Spares.of_outcome (h : m'.outcome sid = m.outcome sid)
    (hl : ∀ reasonOf, m.canceller reasonOf l ≠ none) : m.Spares l m' sid where
  run := congrArg Prod.fst h
  row := .inl (congrArg Prod.snd h)
  requested _ := .inr hl

lemma Spares.setCall (h : m.Spares l m' sid) (cid : CallId) (c : Call) :
    m.Spares l (m'.setCall cid c) sid :=
  ⟨h.run, h.row, h.requested⟩

/-- The session is being submitted, and its task starts. -/
structure Starts (m m' : Manager) (sid : SessionId) : Prop where
  sess : m.sess sid = { row := some .created }
  run : (m'.sess sid).run = .start
  row : (m'.sess sid).row = some .created
  requested : (m'.sess sid).cancelRequested = false

/-- The step is one of the task of `sid`. -/
def tasks (sid : SessionId) : Label → Bool
  | .run s _ | .runCommit s => s = sid
  | _ => false

lemma callStep_spares (hw : m.WellFormed) {cid : CallId} (h : m.callStep cfg cid r = some m') :
    m.Spares (.call cid r) m' sid ∨ m.Starts m' sid := by
  rw [callStep] at h
  split at h
  · simp at h
  · rename_i args pc hc
    rcases submitStep_view h with hview | ⟨s, rfl, hview⟩
    · exact .inl (.of_view (congrFun hview sid))
    · by_cases hs : sid = s
      · subst hs
        have hsess := (hw.submitting cid sid (by rw [hc]; rfl)).2
        rw [hsess] at hview
        have hv := (congrFun hview sid).trans (Function.update_self ..)
        exact .inr ⟨hsess, congrArg Prod.fst hv, congrArg (·.2.1) hv, congrArg (·.2.2) hv⟩
      · exact .inl (.of_view ((congrFun hview sid).trans (Function.update_of_ne hs ..)))
  · exact .inl (.of_view (congrFun (pauseStep_view h) sid))
  · exact .inl (.of_view (congrFun (resumeStep_view h) sid))
  · rename_i hc
    exact .inl (.of_outcome (congrFun (cancelStep_outcome h) sid) (by simp [canceller, hc]))
  · rename_i hc
    exact .inl (.of_outcome (congrFun (watchdogStep_outcome h) sid) (by simp [canceller, hc]))
  · rename_i pc hc
    refine .inl (.of_outcome (congrFun (shutdownStep_outcome h) sid) fun reasonOf => ?_)
    cases pc <;> simp [canceller, hc]

/-- The writes of `pause` and `resume` leave no terminal status. -/
lemma commit_spares {f : StatusFields} (hf : f.isEmpty = false)
    (hstatus : ∃ status, f.status = some status ∧ ¬status.Terminal) {row row' : Option SessionRow}
    {l l' : Locked} (h : Locked.commit f row l = some (row', l')) :
    row' = row ∨ ∃ r, row' = some r ∧ ¬r.status.Terminal := by
  obtain ⟨status, hs, hterminal⟩ := hstatus
  rcases Locked.commit_row hf h with ⟨hrow, -⟩ | ⟨r, -, v, -, hrow, -⟩
  · exact .inl hrow
  · exact .inr ⟨_, hrow, by simpa [hs] using hterminal⟩

lemma modify_spares {row' : Option SessionRow} {s : SessionId}
    (hrow : row' = (m.sess s).row ∨ ∃ r, row' = some r ∧ ¬r.status.Terminal) :
    m.Spares l (m.modify s fun x => { x with row := row' }) sid := by
  by_cases hs : sid = s
  · subst hs
    exact ⟨by simp, by simpa using hrow, fun hq => .inl (by simpa using hq)⟩
  · exact .of_view (by simp [view, hs])

lemma callCommit_spares {cid : CallId} (h : m.callCommit cid = some m') :
    m.Spares l m' sid := by
  rw [callCommit] at h
  split at h
  · cases h
    exact (modify_spares (.inr ⟨.created, rfl, id⟩)).setCall _ _
  · obtain ⟨p, hp, rfl⟩ := Option.map_eq_some_iff.mp h
    exact (modify_spares (commit_spares (pauseFields_isEmpty _) ⟨_, rfl, id⟩ hp)).setCall _ _
  · obtain ⟨p, hp, rfl⟩ := Option.map_eq_some_iff.mp h
    exact (modify_spares (commit_spares resumeFields_isEmpty ⟨_, rfl, id⟩ hp)).setCall _ _
  · simp at h

/-- Nobody else's step ends a task or writes a terminal row. -/
lemma step_spares (hw : m.WellFormed) (h : m.step cfg l = some m') (hl : tasks sid l = false) :
    m.Spares l m' sid ∨ m.Starts m' sid := by
  cases l with
  | submit args =>
      cases h
      refine .inl (.of_view ?_)
      rw [submitEntry]
      split <;> [skip; split] <;> rfl
  | pause s =>
      cases h
      refine .inl (.of_view ?_)
      rw [pauseEntry]
      split <;> [skip; split <;> [skip; split]] <;> simp
  | resume s =>
      cases h
      refine .inl (.of_view ?_)
      rw [resumeEntry]
      split <;> simp
  | cancel s =>
      cases h
      exact .inl (.of_view rfl)
  | shutdown cancelPaused graceS =>
      cases h
      refine .inl (.of_view ?_)
      rw [shutdownEntry]
      split <;> rfl
  | call cid r => exact callStep_spares hw h
  | callCommit cid => exact .inl (callCommit_spares h)
  | run s r =>
      have hs : sid ≠ s := fun hs => by simp [tasks, hs] at hl
      exact .inl (.of_view (by rw [view, view, (runStep_goesTo h).others sid hs]))
  | runCommit s =>
      have hs : sid ≠ s := fun hs => by simp [tasks, hs] at hl
      simp only [step, runCommit] at h
      split at h
      all_goals simp only [reduceCtorEq, Option.map_eq_some_iff] at h
      all_goals
        obtain ⟨p, -, rfl⟩ := h
        exact .inl (.of_view (by simp [view, hs]))
  | reap s =>
      simp only [step, reap] at h
      split at h
      · cases h
        exact .inl (.of_view (by simp [view_modify]))
      · simp at h
  | fire s =>
      simp only [step, fire] at h
      split at h
      · split at h
        · split at h <;> cases h <;> exact .inl (.of_view (by simp [view_modify]))
        · simp at h
      · simp at h
  | tick =>
      cases h
      exact .inl (.of_view rfl)

/-- A write of the task leaves its fate, and a terminal status is that of its end. -/
structure Writes (m m' : Manager) (sid : SessionId) : Prop where
  fate : (m'.sess sid).run.fate = (m.sess sid).run.fate
  requested : (m'.sess sid).cancelRequested = (m.sess sid).cancelRequested
  row : ∀ r', (m'.sess sid).row = some r' → r'.status.Terminal →
    (∃ r, (m.sess sid).row = some r ∧ r.status.Terminal ∧ r'.endReason = r.endReason) ∨
      ∃ e, (m.sess sid).run.fate = .settled e ∧ (e.reason ≠ none → r'.endReason = e.reason)

/-- The write of `running` or of the runtime id. -/
lemma commit_working {f : StatusFields} (hf : f.isEmpty = false) (hreason : f.endReason = none)
    (hstatus : f.status = none ∨ f.status = some .running) {row row' : Option SessionRow}
    {l l' : Locked} (h : Locked.commit f row l = some (row', l')) :
    ∀ r', row' = some r' → r'.status.Terminal →
      ∃ r, row = some r ∧ r.status.Terminal ∧ r'.endReason = r.endReason := by
  rintro r' rfl hterminal
  rcases Locked.commit_row hf h with ⟨hrow, -⟩ | ⟨r, -, v, hr, hrow, -⟩
  · exact ⟨r', hrow.symm, hterminal, rfl⟩
  · obtain rfl := Option.some.inj hrow
    rcases hstatus with hs | hs
    · exact ⟨r, hr, by simpa [hs] using hterminal, by simp [StatusFields.write, hreason]⟩
    · exact absurd hterminal (by simp [hs, SessionState.Terminal])

lemma runCommit_writes (h : m.runCommit sid = some m') : m.Writes m' sid := by
  rw [runCommit] at h
  split at h
  · rename_i t x hpc
    obtain ⟨p, hp, rfl⟩ := Option.map_eq_some_iff.mp h
    exact ⟨by simp [hpc, RunPc.fate], by simp, fun r' hr' ht =>
      .inl (commit_working rfl rfl (.inr rfl) hp r' (by simpa using hr') ht)⟩
  · rename_i i x hpc
    obtain ⟨p, hp, rfl⟩ := Option.map_eq_some_iff.mp h
    exact ⟨by simp [hpc, RunPc.fate], by simp, fun r' hr' ht =>
      .inl (commit_working rfl rfl (.inl rfl) hp r' (by simpa using hr') ht)⟩
  · rename_i e t x hpc
    obtain ⟨p, hp, rfl⟩ := Option.map_eq_some_iff.mp h
    refine ⟨by simp [hpc, RunPc.fate], by simp, fun r' hr' ht => ?_⟩
    have hr' : p.1 = some r' := by simpa using hr'
    rcases Locked.commit_row (endFields_isEmpty e t) hp with ⟨hrow, -⟩ | ⟨r, -, v, -, hrow, -⟩
    · exact .inl ⟨r', by rw [← hrow, hr'], ht, rfl⟩
    · obtain rfl := Option.some.inj (hr'.symm.trans hrow)
      refine .inr ⟨e, by rw [hpc]; rfl, fun hreason => ?_⟩
      cases hre : e.reason with
      | none => exact absurd hre hreason
      | some reason => simp [StatusFields.write, endFields, hre]
  · simp at h

end Manager

/-! ### The invariant -/

namespace Traced

open Manager

variable {cfg : ManagerConfig} {reasonOf : CallId → String} {a : Traced} {m' : Manager}
  {l : Label} {sid : SessionId}

/-- What the history of a session and the state of its task have to do with one another. -/
structure Sound (a : Traced) (sid : SessionId) : Prop where
  cancelled : a.endedBy sid ≠ none → (a.manager.sess sid).run.fate.Cancelled
  live : ∀ r, (a.manager.sess sid).row = some r → r.status.Terminal →
    (a.manager.sess sid).run.fate ≠ .working ∧ ∀ e, (a.manager.sess sid).run.fate ≠ .thrown e
  row : a.endedBy sid ≠ none → ∀ r, (a.manager.sess sid).row = some r → r.status.Terminal →
    r.endReason = some "cancelled"
  ends : ∀ e, (a.manager.sess sid).run.fate = .settled e → e = cancelledEnd ∨ e.Other
  published : ∀ e, (sid, e) ∈ a.published → (a.manager.sess sid).run.fate = .done ∧
    (e = cancelledEnd ∨ e.Other) ∧ (a.endedBy sid ≠ none ↔ e = cancelledEnd)
  requested : (a.manager.sess sid).cancelRequested = true → a.requestedBy sid ≠ none
  asked : (a.manager.sess sid).run.fate = .thrown .cancelledError ∨
    (a.manager.sess sid).run.fate = .settled cancelledEnd → a.endedBy sid ≠ none

lemma cancelEnds_tasks {m : Manager} (h : m.cancelEnds l = some sid) : tasks sid l = true := by
  cases l with
  | run s r =>
      rw [cancelEnds.eq_def] at h
      split at h
      · split at h <;> simp_all [tasks]
      · simp at h
  | _ => simp [cancelEnds] at h

lemma publishes_tasks {m : Manager} {e : EndState} (h : m.publishes l = some (sid, e)) :
    tasks sid l = true := by
  cases l with
  | run s r =>
      rw [publishes] at h
      split at h <;> simp_all [tasks]
  | _ => simp [publishes] at h

lemma endedBy_record (hl : a.manager.cancelEnds l ≠ some sid) :
    (a.record reasonOf l m').endedBy sid = a.endedBy sid :=
  if_neg hl

lemma mem_published_record {e : EndState} : (sid, e) ∈ (a.record reasonOf l m').published ↔
    (sid, e) ∈ a.published ∨ a.manager.publishes l = some (sid, e) := by
  rw [record, List.mem_append, Option.mem_toList]

lemma mem_published_of_other {e : EndState} (hl : tasks sid l = false) :
    (sid, e) ∈ (a.record reasonOf l m').published ↔ (sid, e) ∈ a.published := by
  rw [mem_published_record, or_iff_left fun h => by simp [publishes_tasks h] at hl]

lemma endedBy_of_other (hl : tasks sid l = false) :
    (a.record reasonOf l m').endedBy sid = a.endedBy sid :=
  endedBy_record fun h => by simp [cancelEnds_tasks h] at hl

lemma requestedBy_record (hq : (m'.sess sid).cancelRequested = true) :
    (a.record reasonOf l m').requestedBy sid = if (a.manager.sess sid).cancelRequested then
      a.requestedBy sid else a.manager.canceller reasonOf l :=
  if_pos hq

/-- A request that is recorded has somebody who made it. -/
lemma requested_record (h : a.Sound sid) (hl : (m'.sess sid).cancelRequested = true →
      (a.manager.sess sid).cancelRequested = true ∨ a.manager.canceller reasonOf l ≠ none)
    (hq : (m'.sess sid).cancelRequested = true) :
    (a.record reasonOf l m').requestedBy sid ≠ none := by
  rw [requestedBy_record hq]
  split
  · exact h.requested ‹_›
  · exact (hl hq).resolve_left ‹_›

lemma Sound.spared (h : a.Sound sid) (hl : tasks sid l = false)
    (hspares : a.manager.Spares l m' sid) : (a.record reasonOf l m').Sound sid := by
  have hended : (a.record reasonOf l m').endedBy sid = a.endedBy sid := endedBy_of_other hl
  have hrow : ∀ r, (m'.sess sid).row = some r → r.status.Terminal →
      (a.manager.sess sid).row = some r := by
    intro r hr hterminal
    rcases hspares.row with hrow | ⟨r', hr', hne⟩
    · exact hrow ▸ hr
    · obtain rfl := Option.some.inj (hr'.symm.trans hr)
      exact absurd hterminal hne
  exact {
    cancelled := by
      rw [hended]
      exact fun hne => (congrArg (·.fate.Cancelled) hspares.run).mpr (h.cancelled hne)
    live := by
      intro r hr hterminal
      have := h.live r (hrow r hr hterminal) hterminal
      rwa [← hspares.run] at this
    row := by
      rw [hended]
      exact fun hne r hr hterminal => h.row hne r (hrow r hr hterminal) hterminal
    ends := fun e he => h.ends e (by rwa [← hspares.run])
    published := by
      intro e he
      rw [mem_published_of_other hl] at he
      have := h.published e he
      rw [hended]
      rwa [← hspares.run] at this
    requested := requested_record h fun hq => (hspares.requested hq).imp_right (· reasonOf)
    asked := by
      rw [hended]
      exact fun hf => h.asked (by rwa [← hspares.run]) }

lemma Sound.started (h : a.Sound sid) (hl : tasks sid l = false)
    (hstarts : a.manager.Starts m' sid) : (a.record reasonOf l m').Sound sid := by
  have hfate : (a.manager.sess sid).run.fate = .absent := by rw [hstarts.sess]; rfl
  have hfate' : (m'.sess sid).run.fate = .working := by rw [hstarts.run]; rfl
  have hended : (a.record reasonOf l m').endedBy sid = none := by
    rw [endedBy_of_other hl]
    by_contra hne
    have := h.cancelled hne
    rw [hfate] at this
    exact this
  exact {
    cancelled := fun hne => absurd hended hne
    live := by
      intro r hr hterminal
      obtain rfl := Option.some.inj (hstarts.row.symm.trans hr)
      exact hterminal.elim
    row := fun hne => absurd hended hne
    ends := fun e he => by simp [record, hfate'] at he
    published := by
      intro e he
      rw [mem_published_of_other hl] at he
      have := (h.published e he).1
      simp [hfate] at this
    requested := fun hq => by simp [record, hstarts.requested] at hq
    asked := fun hf => by simp [record, hfate'] at hf }

lemma Sound.wrote (h : a.Sound sid) (hwrites : a.manager.Writes m' sid) :
    (a.record reasonOf (.runCommit sid) m').Sound sid := by
  have hended : (a.record reasonOf (.runCommit sid) m').endedBy sid = a.endedBy sid :=
    endedBy_record nofun
  exact {
    cancelled := by
      rw [hended]
      exact fun hne => (congrArg Fate.Cancelled hwrites.fate).mpr (h.cancelled hne)
    live := by
      intro r' hr' hterminal
      show (m'.sess sid).run.fate ≠ .working ∧ ∀ e, (m'.sess sid).run.fate ≠ .thrown e
      rw [hwrites.fate]
      rcases hwrites.row r' hr' hterminal with ⟨r, hr, ht, -⟩ | ⟨e, he, -⟩
      · exact h.live r hr ht
      · simp [he]
    row := by
      rw [hended]
      intro hne r' hr' hterminal
      rcases hwrites.row r' hr' hterminal with ⟨r, hr, ht, hreason⟩ | ⟨e, he, hreason⟩
      · rw [hreason, h.row hne r hr ht]
      · have hcancelled := h.cancelled hne
        rw [he] at hcancelled
        obtain rfl := hcancelled
        exact hreason nofun
    ends := fun e he => h.ends e (hwrites.fate.symm.trans he)
    published := by
      intro e he
      rw [mem_published_record, or_iff_left nofun] at he
      rw [hended]
      exact ⟨hwrites.fate.trans (h.published e he).1, (h.published e he).2⟩
    requested := requested_record h fun hq => .inl (hwrites.requested.symm.trans hq)
    asked := by
      rw [hended]
      exact fun hf => h.asked (hf.imp hwrites.fate.symm.trans hwrites.fate.symm.trans) }

lemma cancelEnds_run {m : Manager} {r : Reply} : m.cancelEnds (.run sid r) = some sid ↔
    r = .raise .cancelledError ∧ (∀ e, (m.sess sid).run.fate ≠ .settled e) ∧
      (m.sess sid).run.fate ≠ .thrown .cancelledError := by
  by_cases hr : r = .raise .cancelledError
  · subst hr
    cases hpc : (m.sess sid).run with
    | stop pending => cases pending with
      | none => simp [cancelEnds, hpc, RunPc.fate]
      | some e => cases e <;> simp [cancelEnds, hpc, RunPc.fate]
    | _ => simp [cancelEnds, hpc, RunPc.fate]
  · refine iff_of_false (fun h => ?_) fun h => hr h.1
    rw [cancelEnds.eq_def] at h
    split at h
    · rename_i heq
      cases heq
      exact hr rfl
    · simp at h

lemma publishes_run {m : Manager} {r : Reply} {e : EndState}
    (h : m.publishes (.run sid r) = some (sid, e)) : (m.sess sid).run = .final e := by
  rw [publishes] at h
  split at h
  · cases h
    assumption
  · simp at h

/-- A cancellation is delivered to a task it was requested for. -/
lemma cancelRequested_of_delivered {m : Manager}
    (h : m.runStep sid (.raise .cancelledError) = some m') :
    (m.sess sid).cancelRequested = true := by
  by_contra hq
  have hrefuses : runRefuses (m.sess sid) (.raise .cancelledError) = true := by
    rw [runRefuses]
    split <;> simp_all
  simp [runStep, hrefuses] at h

/-- After the last event the task is done. -/
lemma done_of_final {m : Manager} {r : Reply} {e : EndState} (hpc : (m.sess sid).run = .final e)
    (h : m.runStep sid r = some m') : (m'.sess sid).run.fate = .done := by
  rw [runStep, hpc] at h
  split at h
  · simp at h
  · cases r <;> simp only [runResume, reduceCtorEq, Option.some.injEq] at h <;> subst h <;>
      simp [setRun, RunPc.fate]

lemma Sound.ran (h : a.Sound sid) {r : Reply} (hstep : a.manager.runStep sid r = some m') :
    (a.record reasonOf (.run sid r) m').Sound sid := by
  have hgo := runStep_goesTo hstep
  have hrow : ∀ x, (m'.sess sid).row = some x → (a.manager.sess sid).row = some x :=
    fun x hx => hgo.row ▸ hx
  by_cases hends : a.manager.cancelEnds (.run sid r) = some sid
  · obtain ⟨rfl, hsettled, hthrown⟩ := cancelEnds_run.mp hends
    have hended : (a.record reasonOf (.run sid (.raise .cancelledError)) m').endedBy sid
        = a.requestedBy sid := if_pos hends
    have hne := h.requested (cancelRequested_of_delivered hstep)
    have hcancelled : (m'.sess sid).run.fate.Cancelled := hgo.fate.delivered hsettled
    have hterminal : ∀ x, (m'.sess sid).row = some x → ¬x.status.Terminal := by
      intro x hx ht
      have hlive := h.live x (hrow x hx) ht
      cases hf : (a.manager.sess sid).run.fate with
      | absent | done => have := hgo.fate; rw [hf] at this; cases this
      | working => exact hlive.1 hf
      | thrown e => exact hlive.2 e hf
      | settled e => exact hsettled e hf
    exact {
      cancelled := fun _ => hcancelled
      live := fun x hx ht => absurd ht (hterminal x hx)
      row := fun _ x hx ht => absurd ht (hterminal x hx)
      ends := by
        intro e he
        change (m'.sess sid).run.fate = .settled e at he
        rw [he] at hcancelled
        exact .inl hcancelled
      published := by
        intro e he
        rw [mem_published_record] at he
        rcases he with he | he
        · have := hgo.fate
          rw [(h.published e he).1] at this
          cases this
        · exact absurd (by rw [publishes_run he]; rfl) (hsettled e)
      requested := requested_record h fun hq => .inl (hgo.requested hq)
      asked := fun _ => hended ▸ hne }
  · have hended : (a.record reasonOf (.run sid r) m').endedBy sid = a.endedBy sid :=
      endedBy_record hends
    exact {
      cancelled := by
        rw [hended]
        exact fun hne => hgo.fate.cancelled (h.cancelled hne)
      live := by
        intro x hx ht
        have hlive := h.live x (hrow x hx) ht
        exact hgo.fate.finished hlive.1 hlive.2
      row := by
        rw [hended]
        exact fun hne x hx ht => h.row hne x (hrow x hx) ht
      ends := fun e he => by
        have hstep' := hgo.fate
        rw [show (m'.sess sid).run.fate = .settled e from he] at hstep'
        exact hstep'.ends (h.ends e)
      published := by
        intro e he
        rw [hended]
        rw [mem_published_record] at he
        rcases he with he | he
        · have hstep' := hgo.fate
          rw [(h.published e he).1] at hstep'
          cases hstep'
        · have hpc := publishes_run he
          have hf : (a.manager.sess sid).run.fate = .settled e := by rw [hpc]; rfl
          refine ⟨done_of_final hpc hstep, h.ends e hf, fun hne => ?_, fun he => ?_⟩
          · have := h.cancelled hne
            rwa [hf] at this
          · exact h.asked (.inr (by rw [hf, he]))
      requested := requested_record h fun hq => .inl (hgo.requested hq)
      asked := by
        rw [hended]
        intro hf'
        rcases hgo.fate.asked hf' with hf | hf | ⟨hr, hf⟩
        · exact h.asked (.inl hf)
        · exact h.asked (.inr hf)
        · by_cases hthrown : (a.manager.sess sid).run.fate = .thrown .cancelledError
          · exact h.asked (.inl hthrown)
          · refine absurd (cancelEnds_run.mpr ⟨hr, fun e he => ?_, hthrown⟩) hends
            rcases hf with hf | ⟨x, hf⟩ <;> simp [hf] at he }

lemma sound_fresh (cfg : ManagerConfig) (rows : List SessionRow) :
    (⟨.fresh cfg rows, fun _ => none, fun _ => none, []⟩ : Traced).Sound sid where
  cancelled := fun hne => absurd rfl hne
  live _ _ _ := ⟨nofun, nofun⟩
  row := fun hne => absurd rfl hne
  ends := nofun
  published := by simp
  requested := by simp [fresh]
  asked := nofun

/-- The history of every session is sound in every run. -/
theorem sound_of_reachable (h : (tracedSystem cfg reasonOf).Reachable a) : a.Sound sid := by
  refine h.invariant_of (I := fun a => a.Sound sid)
    (fun _ ha => wellFormed_of_reachable (Traced.reachable ha)) ?_ ?_
  · rintro _ ⟨rows, rfl⟩
    exact sound_fresh cfg rows
  · intro a l a' hw hi _ hstep
    obtain ⟨m', hm', rfl⟩ := Option.map_eq_some_iff.mp hstep
    by_cases hl : tasks sid l = true
    · cases l with
      | run s r =>
          obtain rfl : s = sid := by simpa [tasks] using hl
          exact hi.ran hm'
      | runCommit s =>
          obtain rfl : s = sid := by simpa [tasks] using hl
          exact hi.wrote (runCommit_writes hm')
      | _ => simp [tasks] at hl
    · rcases step_spares hw hm' (Bool.eq_false_of_not_eq_true hl) with hspares | hstarts
      · exact hi.spared (Bool.eq_false_of_not_eq_true hl) hspares
      · exact hi.started (Bool.eq_false_of_not_eq_true hl) hstarts

/-! ### The result -/

/-- No end but one with that reason matches the alert rule for `paused_timeout`. -/
lemma cancelRuleHolds_paused_timeout {e : EndState} (h : e.reason ≠ some "paused_timeout")
    (tags : List String) : AlertRouter.cancelRuleHolds "paused_timeout" tags e = false := by
  have hcond (endReason : String) : AlertRouter.conditionHolds endReason tags "paused_timeout"
      = decide ("paused_timeout" = endReason) := by
    rw [AlertRouter.conditionHolds, if_neg (by decide), if_neg (by simp [String.isPrefixOf])]
  rw [AlertRouter.cancelRuleHolds]
  split
  · rename_i eventType endReason hforwarded
    rw [hcond, Bool.and_eq_false_iff, decide_eq_false_iff_not (p := "paused_timeout" = endReason)]
    refine .inr ?_
    rintro rfl
    obtain ⟨t, -, ht⟩ := Option.bind_eq_some_iff.mp hforwarded
    simp only at ht
    split at ht
    · simp at ht
    · have hreason := (Prod.mk.inj (Option.some.inj ht)).2
      cases hr : e.reason.filter (· ≠ "") with
      | none =>
          rw [hr] at hreason
          simp at hreason
      | some reason =>
          rw [hr, Option.getD_some] at hreason
          exact h ((Option.filter_eq_some_iff.mp hr).1.trans (congrArg some hreason))
  · rfl

/-- **The reasons survive exactly where they are `cancelled`**: of the sessions that a call of
`cancel` ended, those that have recorded their end carry the reason they were cancelled for if and
only if it is the one the ladder writes for all of them. -/
theorem reasons_survive_iff (h : (tracedSystem cfg reasonOf).Reachable a) :
    a.ReasonsSurvive ↔ ∀ sid c reason, a.endedBy sid = some c → c.reason = some reason →
      a.Settled sid → reason = "cancelled" := by
  have hsound sid : a.Sound sid := sound_of_reachable h
  have hevent : ∀ sid c e, a.endedBy sid = some c → (sid, e) ∈ a.published → e = cancelledEnd :=
    fun sid c e hc he => ((hsound sid).published e he).2.2.mp (by simp [hc])
  constructor
  · intro hs sid c reason hc hreason hsettled
    rcases hsettled with ⟨r, hr, hterminal⟩ | ⟨e, he⟩
    · have hrow := (hsound sid).row (by simp [hc]) r hr hterminal
      exact Option.some.inj ((hs.row sid c reason r hc hreason hr hterminal).symm.trans hrow)
    · have := hs.event sid c reason e hc hreason he
      rw [hevent sid c e hc he] at this
      exact (Option.some.inj this).symm
  · intro hcancelled
    refine ⟨?_, ?_, ?_⟩
    · intro sid c reason r hc hreason hr hterminal
      rw [hcancelled sid c reason hc hreason (.inl ⟨r, hr, hterminal⟩)]
      exact (hsound sid).row (by simp [hc]) r hr hterminal
    · intro sid c reason e hc hreason he
      rw [hcancelled sid c reason hc hreason (.inr ⟨e, he⟩), hevent sid c e hc he]
      rfl
    · intro sid e tags he
      have hreason : e.reason ≠ some "paused_timeout" := by
        rcases ((hsound sid).published e he).2.1 with rfl | hother
        · simp [cancelledEnd]
        · exact hother.unnamed
      rw [cancelRuleHolds_paused_timeout hreason]
      refine iff_of_false Bool.false_ne_true fun hc => ?_
      have := hcancelled sid .watchdog _ hc rfl (.inr ⟨e, he⟩)
      simp at this

/-! ### Two runs -/

/-- A manager whose paused sessions are cancelled after a second. -/
def oneSecond : ManagerConfig := { oneSlot with pausedTimeoutS := 1 }

/-- The task of the session `0`, from the `CancelledError` to its last event. -/
def cancelledRun : List Label :=
  [.run 0 (.raise .cancelledError), .run 0 .ok, .run 0 .ok, .runCommit 0, .run 0 .ok, .run 0 .ok,
    .run 0 .ok]

/-- The session `0` is paused for longer than it may be, and the watchdog cancels it. -/
def watchdogRun : List Label := pauseRun ++ [.tick, .fire 0, .call 2 .ok] ++ cancelledRun

/-- The session `0` is cancelled by the call `1`. -/
def callerRun : List Label := driveRun ++ [.cancel 0, .call 1 .ok] ++ cancelledRun

/-- What is left of the session `0`. -/
structure Remains where
  endedBy : Option Canceller
  status : Option SessionState
  endReason : Option String
  published : List (SessionId × EndState)
  deriving DecidableEq

def remains (a : Traced) : Remains where
  endedBy := a.endedBy 0
  status := (a.manager.sess 0).row.map (·.status)
  endReason := (a.manager.sess 0).row.bind (·.endReason)
  published := a.published

/-- The start of a run of the manager. -/
def start (cfg : ManagerConfig) : Traced := ⟨.fresh cfg [], fun _ => none, fun _ => none, []⟩

/-- The watchdog cancels a session for `paused_timeout`; its row and its last event say `cancelled`,
and no alert goes out. -/
theorem paused_timeout_is_lost :
    ∃ a, (tracedSystem oneSecond fun _ => "user_request").Reachable a ∧
      a.remains = ⟨some .watchdog, some .cancelled, some "cancelled", [(0, cancelledEnd)]⟩ ∧
      AlertRouter.cancelRuleHolds "paused_timeout" [] cancelledEnd = false ∧
      ¬a.ReasonsSurvive := by
  have hrun : ((tracedSystem oneSecond fun _ => "user_request").run (start oneSecond)
      watchdogRun).map remains
        = some ⟨some .watchdog, some .cancelled, some "cancelled", [(0, cancelledEnd)]⟩ := by
    decide
  obtain ⟨a, ha, hremains⟩ := Option.map_eq_some_iff.mp hrun
  obtain ⟨hended, -, -, hpublished⟩ := Remains.mk.inj hremains
  refine ⟨a, .of_run (.init ⟨[], rfl⟩) ha, hremains,
    cancelRuleHolds_paused_timeout (by decide) [], fun hs => ?_⟩
  have := hs.event 0 .watchdog _ cancelledEnd hended rfl (by rw [hpublished]; simp)
  exact absurd this (by decide)

/-- A caller who asks for the reason the ladder writes gets it. -/
theorem reasons_survive_of_cancelled :
    ∃ a, (tracedSystem oneSlot fun _ => "cancelled").run (start oneSlot) callerRun = some a ∧
      a.endedBy 0 = some (.caller "cancelled") ∧ a.Settled 0 ∧ a.ReasonsSurvive := by
  have hrun : ((tracedSystem oneSlot fun _ => "cancelled").run (start oneSlot) callerRun).map
      (fun a => (a.endedBy 0, a.manager.nextSid, a.published))
        = some (some (.caller "cancelled"), 1, [(0, cancelledEnd)]) := by
    decide
  obtain ⟨a, ha, hremains⟩ := Option.map_eq_some_iff.mp hrun
  simp only [Prod.mk.injEq] at hremains
  obtain ⟨hended, hnext, hpublished⟩ := hremains
  have hreachable : (tracedSystem oneSlot fun _ => "cancelled").Reachable a :=
    .of_run (.init ⟨[], rfl⟩) ha
  refine ⟨a, ha, hended, .inr ⟨cancelledEnd, by rw [hpublished]; simp⟩,
    (reasons_survive_iff hreachable).mpr fun sid c reason hc hreason _ => ?_⟩
  cases sid with
  | zero =>
      obtain rfl := Option.some.inj (hended.symm.trans hc)
      exact (Option.some.inj hreason).symm
  | succ sid =>
      -- no other session is there
      have hsound : a.Sound (sid + 1) := sound_of_reachable hreachable
      have hcancelled := hsound.cancelled (by simp [hc])
      have hunused := (wellFormed_of_reachable (Traced.reachable hreachable)).unused (sid + 1)
        (hnext ▸ Nat.le_add_left 1 sid)
      rw [hunused] at hcancelled
      exact hcancelled.elim

end Traced

end GgRelay
