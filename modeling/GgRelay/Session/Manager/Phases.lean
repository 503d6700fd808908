import GgRelay.Session.Manager.Transition

/-!
The phases of the coroutines, and the steps that decide something about a session.

* `Call.phase` and `RunPc.phase` forget which `await` a coroutine is suspended at, but for what
  it still owes to a session: every invariant of the manager is about phases only;
* `pauseAck`, `resumeAck`, `cancels`, `arms`, `givesUp`, `sweeps`, `callWrites` and `losesWrite`
  read off a state and a label which session a step is about to do something to.  The
  conditions on runs are stated with them.
-/

namespace GgRelay

/-! ### Phases -/

/-- What a call is doing about a session. -/
inductive CallPhase where
  | idle
  /-- a `submit` that has drawn its id and not inserted the row -/
  | drafting (sid : SessionId)
  /-- a `submit` that has inserted the row and not created the task -/
  | submitting (sid : SessionId)
  /-- a `pause` before its ack -/
  | asking (sid : SessionId)
  /-- a `pause` after its ack -/
  | recording (sid : SessionId)
  /-- a `resume` that has not asked for a slot yet -/
  | opening (sid : SessionId)
  /-- a `resume` that waits for a slot -/
  | queueing (sid : SessionId)
  /-- a `resume` that holds a slot -/
  | holding (sid : SessionId)
  /-- a `resume` that has given its slot to the session -/
  | resumed (sid : SessionId)
  /-- the `cancel` of a timer that fired, not cancelled itself -/
  | watching (sid : SessionId)
  deriving DecidableEq

/-- The phase of a call. -/
def Call.phase : Call → CallPhase
  | .submit _ (.create sid) => .drafting sid
  | .submit _ (.created sid) | .submit _ (.audit sid) | .submit _ (.publish sid) =>
      .submitting sid
  | .pause sid .version | .pause sid (.ack _) => .asking sid
  | .pause sid (.locked _ _) | .pause sid .audit | .pause sid .publish => .recording sid
  | .resume sid .version => .opening sid
  | .resume sid (.acquire _) => .queueing sid
  | .resume sid (.ack _) => .holding sid
  | .resume sid (.locked _) | .resume sid .audit | .resume sid .publish => .resumed sid
  | .watchdog sid false .audit => .watching sid
  | _ => .idle

/-- The phase of a call that may be a watchdog, after `task.cancel()` on it. -/
def CallPhase.stopped : CallPhase → CallPhase
  | .watching _ => .idle
  | p => p

@[grind .]
lemma CallPhase.stopped_cases (p : CallPhase) :
    p.stopped = p ∨ (∃ sid, p = .watching sid) ∧ p.stopped = .idle := by
  cases p with
  | watching sid => exact Or.inr ⟨⟨sid, rfl⟩, rfl⟩
  | _ => exact Or.inl rfl

/-- The session a `submit` has drawn the id of. -/
def CallPhase.draws : CallPhase → Option SessionId
  | .drafting sid | .submitting sid => some sid
  | _ => none

@[grind =]
lemma CallPhase.draws_eq_some {p : CallPhase} {sid : SessionId} :
    p.draws = some sid ↔ p = .drafting sid ∨ p = .submitting sid := by
  cases p <;> simp [draws]

/-- The session a `pause` or a `resume` is at work on. -/
def CallPhase.serves : CallPhase → Option SessionId
  | .asking sid | .recording sid | .opening sid | .queueing sid | .holding sid
  | .resumed sid => some sid
  | _ => none

@[grind =]
lemma CallPhase.serves_eq_some {p : CallPhase} {sid : SessionId} :
    p.serves = some sid ↔ p = .asking sid ∨ p = .recording sid ∨ p = .opening sid ∨
      p = .queueing sid ∨ p = .holding sid ∨ p = .resumed sid := by
  cases p <;> simp [serves]

/-- The session whose timer a call is going to see to: a `pause` after its ack, or a `resume`
before its own. -/
def CallPhase.settles : CallPhase → Option SessionId
  | .recording sid | .opening sid | .queueing sid | .holding sid => some sid
  | .idle | .drafting _ | .submitting _ | .asking _ | .resumed _ | .watching _ => none

namespace CallPhase

variable (sid : SessionId)

@[simp, grind =] lemma settles_idle : idle.settles = none := rfl

@[simp, grind =] lemma settles_drafting : (drafting sid).settles = none := rfl

@[simp, grind =] lemma settles_submitting : (submitting sid).settles = none := rfl

@[simp, grind =] lemma settles_asking : (asking sid).settles = none := rfl

@[simp, grind =] lemma settles_recording : (recording sid).settles = some sid := rfl

@[simp, grind =] lemma settles_opening : (opening sid).settles = some sid := rfl

@[simp, grind =] lemma settles_queueing : (queueing sid).settles = some sid := rfl

@[simp, grind =] lemma settles_holding : (holding sid).settles = some sid := rfl

@[simp, grind =] lemma settles_resumed : (resumed sid).settles = none := rfl

@[simp, grind =] lemma settles_watching : (watching sid).settles = none := rfl

lemma settles_stopped (p : CallPhase) : p.stopped.settles = p.settles := by
  cases p <;> rfl

end CallPhase

lemma Call.phase_cancelTask (c : Call) : c.cancelTask.phase = c.phase.stopped := by
  cases c with
  | watchdog sid b pc => cases pc <;> cases b <;> rfl
  | submit a pc => cases pc <;> rfl
  | pause sid pc => cases pc <;> rfl
  | resume sid pc => cases pc <;> rfl
  | idle | cancel | shutdown => rfl

@[simp, grind =] lemma Call.phase_idle : Call.idle.phase = .idle := rfl

@[simp, grind =] lemma Call.phase_pause_version (sid : SessionId) :
    (Call.pause sid .version).phase = .asking sid := by rw [Call.phase]

@[simp, grind =] lemma Call.phase_resume_version (sid : SessionId) :
    (Call.resume sid .version).phase = .opening sid := rfl

@[simp, grind =] lemma Call.phase_watchdog_audit (sid : SessionId) :
    (Call.watchdog sid false .audit).phase = .watching sid := rfl

/-- What the task of a session has behind it. -/
inductive RunPhase where
  | absent
  /-- not started -/
  | created
  /-- waiting for a slot -/
  | waiting
  /-- from the acquisition of the slot to the `finally` block -/
  | held
  /-- in the `finally` block, its terminal write not executed -/
  | settling
  /-- its terminal write executed, or lost -/
  | settled
  deriving DecidableEq

/-- The phase of the task of a session. -/
def RunPc.phase : RunPc → RunPhase
  | .absent => .absent
  | .start => .created
  | .acquire => .waiting
  | .begin _ _ | .announce | .prepare | .startExecutor | .runtime _ _ | .drive | .stop _
  | .report _ => .held
  | .terminal _ _ (.landed _ (.ok _)) => .settled
  | .terminal _ _ _ => .settling
  | .aggregates _ | .final _ | .done => .settled

namespace RunPc

@[simp, grind =] lemma phase_absent : absent.phase = .absent := rfl

@[simp, grind =] lemma phase_start : start.phase = .created := rfl

@[simp, grind =] lemma phase_done : done.phase = .settled := rfl

@[simp, grind =] lemma phase_terminal_read (e : EndState) (t : Time) :
    (terminal e t .read).phase = .settling := rfl

end RunPc

namespace RunPhase

/-- The task has had its slot. -/
@[grind =]
def Launched : RunPhase → Prop
  | .absent | .created | .waiting => False
  | .held | .settling | .settled => True

instance : DecidablePred Launched := fun p => by
  cases p <;> first | exact isTrue trivial | exact isFalse id

@[simp] lemma launched_held : Launched .held := trivial

@[simp] lemma launched_settling : Launched .settling := trivial

@[simp] lemma launched_settled : Launched .settled := trivial

@[simp] lemma not_launched_created : ¬Launched .created := id

@[simp] lemma not_launched_waiting : ¬Launched .waiting := id

@[simp] lemma not_launched_absent : ¬Launched .absent := id

end RunPhase

/-- A task that is done has settled. -/
lemma RunPc.phase_of_isDone {pc : RunPc} (h : pc.isDone) : pc.phase = .settled := by
  cases pc <;> first | rfl | cases h

/-- The status a task is about to record, or has recorded, is a terminal one. -/
def RunPc.EndsTerminal : RunPc → Prop
  | .report e | .terminal e _ _ | .aggregates e | .final e => e.status.Terminal
  | _ => True

namespace Manager

/-- `task.cancel()` on the task of a timer stops the watchdog of that timer. -/
@[grind =]
lemma phase_cancelTimerTask (calls : CallId → Call) (t : Option Timer) (cid : CallId) :
    (cancelTimerTask calls t cid).phase
      = if t = some (.fired cid) then (calls cid).phase.stopped else (calls cid).phase := by
  rw [cancelTimerTask_apply]
  split
  · exact Call.phase_cancelTask _
  · rfl

@[simp, grind =]
lemma settles_cancelTimerTask (calls : CallId → Call) (t : Option Timer) (cid : CallId) :
    (cancelTimerTask calls t cid).phase.settles = (calls cid).phase.settles := by
  rw [phase_cancelTimerTask]
  split
  · exact CallPhase.settles_stopped _
  · rfl

@[grind .]
lemma phase_sweepTimers (m : Manager) (cid : CallId) :
    (m.sweepTimers.calls cid).phase = (m.calls cid).phase ∨
      (∃ sid, (m.calls cid).phase = .watching sid) ∧ (m.sweepTimers.calls cid).phase = .idle := by
  rcases m.sweepTimers_calls cid with h | h
  · exact Or.inl (by rw [h])
  · rw [h, Call.phase_cancelTask]
    exact CallPhase.stopped_cases _

/-! ### What a step is about to do -/

variable (m : Manager)

/-- The session whose `pause` this step goes on after a positive ack. -/
def pauseAck : Label → Option SessionId
  | .call cid (.ack true) =>
      match m.calls cid with
      | .pause sid (.ack _) => some sid
      | _ => none
  | _ => none

/-- The session whose `resume` this step goes on after a positive ack. -/
def resumeAck : Label → Option SessionId
  | .call cid (.ack true) =>
      match m.calls cid with
      | .resume sid (.ack _) => some sid
      | _ => none
  | _ => none

/-- The session that this step cancels: `cancel`, the watchdog or `shutdown`, past the audit
record. -/
def cancels : Label → Option SessionId
  | .call cid r =>
      if r = .raise .cancelledError then none
      else
        match m.calls cid with
        | .cancel sid .audit | .watchdog sid _ .audit | .shutdown (.cancelling sid _ _) => some sid
        | _ => none
  | _ => none

/-- The session whose timer this step arms at the end of a call: a `pause` that is complete, or
a `resume` that is rolled back. -/
def arms : Label → Option SessionId
  | .call cid r =>
      match m.calls cid, r with
      | .pause sid .publish, .ok => some sid
      | .resume sid (.acquire _), .raise .timeoutError => some sid
      | .resume sid (.ack _), .ack false => some sid
      | .resume sid (.ack _), .raise _ => some sid
      | _, _ => none
  | _ => none

/-- The session whose `pause`, after its ack, or `resume`, before it has a slot, fails at this
step without arming the timer. -/
def givesUp : Label → Option SessionId
  | .call cid r =>
      match m.calls cid with
      | .pause sid (.locked _ l) =>
          match l.resume (m.sess sid).row r with
          | some (.raised _) => some sid
          | _ => none
      | .pause sid .audit => if r = .raise .cancelledError then some sid else none
      | .pause sid .publish => if r = .ok then none else some sid
      | .resume sid .version =>
          if r = .ok ∧ (m.sess sid).row.isSome then none else some sid
      | .resume sid (.acquire _) =>
          if r = .ok ∨ r = .raise .timeoutError then none else some sid
      | _ => none
  | _ => none

/-- The `shutdown` whose last sweep this step makes after waiting for the tasks it cancelled. -/
def sweeps : Label → Bool
  | .call cid .ok =>
      match m.calls cid with
      | .shutdown (.gather _) => true
      | _ => false
  | _ => false

/-- The session whose row this step writes on behalf of a `pause` or a `resume`. -/
def callWrites : Label → Option SessionId
  | .callCommit cid =>
      match m.calls cid with
      | .pause sid (.locked _ (.write _ v)) | .resume sid (.locked (.write _ v)) =>
          if (m.sess sid).row.any (·.version = v) then some sid else none
      | _ => none
  | _ => none

/-- The session whose task gives up its terminal write at this step. -/
def losesWrite : Label → Option SessionId
  | .run sid r =>
      match (m.sess sid).run with
      | .terminal e t l =>
          if (RunPc.terminal e t l).phase = .settled then none
          else
            match l.resume (m.sess sid).row r with
            | some (.raised _) => some sid
            | _ => none
      | _ => none
  | _ => none

end Manager

end GgRelay
