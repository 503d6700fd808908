import GgRelay.Lib.Semaphore
import GgRelay.Lib.Table
import GgRelay.Store.SessionRow

/-!
The state of a `SessionManager` (`session/manager.py`) and of the coroutines that run on it.

A coroutine of the event loop runs undisturbed from one `await` to the next, so its state
between two steps is the `await` it is suspended at: `RunPc` for the task of a session,
`PausePc`, `ResumePc`, `CancelPc`, `ShutdownPc`, `SubmitPc` for the calls into the manager, and
`Locked` for the helper `_update_status_locked` they share.  A write to the store is committed
by a step of its own (`Locked.commit`), so that other coroutines, and a cancellation, can come
between the commit and the coroutine that asked for it.

* `Session` is what the dictionaries keyed by a session id hold for one id, with the row of the
  `sessions` table; `Manager` is the rest.
* `submittedKey` and `handedOver` are history: the program does not read them.
* `armPausedTimer`, `cancelPausedTimer` and `releasePauseBookkeeping` are the helpers of the
  source, as functions of the state.
-/

namespace GgRelay

/-- A session id: `uuid4().hex`, taken to be fresh; numbered in the order of creation. -/
abbrev SessionId := ℕ

/-- The per-tenant identifier `api_key_id`. -/
abbrev ApiKeyId := ℕ

/-- A call of one of the manager's coroutines, numbered in the order of the calls. -/
abbrev CallId := ℕ

/-- The manager's constructor arguments that its session lifecycle reads. -/
structure ManagerConfig where
  maxConcurrent : ℕ
  pausedTimeoutS : ℕ
  maxPaused : ℕ
  maxPausedPerApiKey : ℕ
  hasCredentialsStore : Bool := false
  requirePerUserCredentials : Bool := false

/-- The exceptions the lifecycle code tells apart. -/
inductive Exn where
  | cancelledError
  | timeoutError
  /-- `_PluginInstallSummary`, with the class name of the assembler's exception -/
  | pluginInstall (code : String)
  /-- any other exception, with its class in the taxonomy of `classify_sdk_error` -/
  | other (category : String) (httpStatus : ℕ)
  | concurrency
  | sessionNotFound
  | sessionNotRunning
  | sessionNotPaused
  | maxPausedExceeded
  /-- the bridge answered with a negative ack (`RuntimeError`) -/
  | ackRefused
  | resumeQueueTimeout
  | shuttingDown
  | missingCredentials
  | credentialsLookupUnavailable
  deriving DecidableEq, Repr

/-- What an `await` comes back with. -/
inductive Reply where
  | ok
  /-- the `ControlAck` of `bridge.pause` or `bridge.resume` -/
  | ack (ok : Bool)
  /-- the rows of `user_credentials_store.get_for_user` -/
  | credentials (rows : List (String × String))
  /-- the `RuntimeHandle` of `executor.start` -/
  | started (runtimeId : String)
  /-- the awaited code caught the `CancelledError` thrown into it -/
  | swallowed
  | raise (e : Exn)
  deriving DecidableEq, Repr

/-! ### The coroutines -/

/-- `_update_status_locked`; `second` marks the retry. -/
inductive Locked where
  /-- `get_session`, when the caller has no anchor -/
  | read
  /-- `update_session_status`, not executed yet -/
  | write (second : Bool) (expected : ℕ)
  /-- `update_session_status`, executed: the new version, or the `ConcurrencyError` -/
  | landed (second : Bool) (result : Except ConcurrencyError ℕ)
  /-- the jitter before the retry -/
  | jitter (actual : Option ℕ)
  /-- `get_session` again, when the error carried no version -/
  | reread

/-- The outcome `_run` is about to record. -/
structure EndState where
  status : SessionState
  reason : Option String
  deriving DecidableEq, Repr

/-- Where the task of a session, `_run`, is suspended. -/
inductive RunPc where
  /-- there is no such task -/
  | absent
  /-- created, not started -/
  | start
  /-- `self._sem.acquire()` -/
  | acquire
  /-- the write of `queued → running` -/
  | begin (startedAt : Time) (l : Locked)
  /-- the publication of that change -/
  | announce
  /-- `_prepare_plugins` -/
  | prepare
  /-- `executor.start` -/
  | startExecutor
  /-- the write of `runtime_id` -/
  | runtime (runtimeId : String) (l : Locked)
  /-- `_drive_session` under `asyncio.timeout` -/
  | drive
  /-- `executor.stop`, with the exception that is on its way out -/
  | stop (pending : Option Exn)
  /-- the publication of `InstallError` in an exception handler -/
  | report (e : EndState)
  /-- the terminal write -/
  | terminal (e : EndState) (endedAt : Time) (l : Locked)
  /-- `update_session_aggregates` -/
  | aggregates (e : EndState)
  /-- the publication of the last state change -/
  | final (e : EndState)
  /-- the task is done -/
  | done

/-- `task.done()`. -/
def RunPc.isDone : RunPc → Bool
  | .done => true
  | _ => false

/-- Where a call of `pause` is suspended. -/
inductive PausePc where
  /-- `get_session`, when the session has no bridge -/
  | missing
  /-- `get_session`, for the anchor of the write -/
  | version
  /-- `bridge.pause`, with the anchor -/
  | ack (v : ℕ)
  /-- the write of `paused` -/
  | locked (pausedAt : Time) (l : Locked)
  | audit
  | publish
  | done (r : Except Exn Unit)

/-- Where a call of `resume` is suspended. -/
inductive ResumePc where
  /-- `get_session`, when the session is not paused -/
  | missing
  /-- `get_session`, for the anchor of the write -/
  | version
  /-- `self._sem.acquire()` under `asyncio.wait_for` -/
  | acquire (v : ℕ)
  /-- `bridge.resume`, with the anchor -/
  | ack (v : ℕ)
  /-- the write of `running` -/
  | locked (l : Locked)
  | audit
  | publish
  | done (r : Except Exn Unit)

/-- Where a call of `cancel` is suspended. -/
inductive CancelPc where
  | audit
  | done (r : Except Exn Unit)

/-- Where a call of `shutdown` is suspended. -/
inductive ShutdownPc where
  /-- before the next turn of the loop over the paused sessions, with those still to cancel -/
  | loop (rest : List SessionId) (graceS : ℕ)
  /-- the audit record of `cancel(sid)` in that loop -/
  | cancelling (sid : SessionId) (rest : List SessionId) (graceS : ℕ)
  /-- `asyncio.sleep` in the grace period -/
  | grace (deadline : Time)
  /-- `asyncio.gather` over the tasks of these sessions -/
  | gather (sids : List SessionId)
  | done

/-- The arguments of `submit` that its control flow depends on. -/
structure SubmitArgs where
  apiKeyId : Option ApiKeyId := none
  owner : Option String := none
  actorLabel : Option String := none
  actorRole : Option String := none
  /-- `runtime_ctx.credentials` -/
  credentials : List (String × String) := []
  /-- `spec.executor` is `docker` or `k8s_job` -/
  wire : Bool := false
  /-- `redact_dict(spec.to_json_safe())` returns on this spec -/
  redactable : Bool := true
  deriving DecidableEq, Repr

/-- Where a call of `submit` is suspended. -/
inductive SubmitPc where
  /-- `user_credentials_store.get_for_user` -/
  | lookup
  /-- `create_session`, not executed yet -/
  | create (sid : SessionId)
  /-- `create_session`, executed -/
  | created (sid : SessionId)
  | audit (sid : SessionId)
  | publish (sid : SessionId)
  /-- the result, with the id the call drew -/
  | done (drawn : Option SessionId) (r : Except Exn SessionId)

/-- A call into the manager. -/
inductive Call where
  /-- the number is not in use -/
  | idle
  | submit (args : SubmitArgs) (pc : SubmitPc)
  | pause (sid : SessionId) (pc : PausePc)
  | resume (sid : SessionId) (pc : ResumePc)
  | cancel (sid : SessionId) (pc : CancelPc)
  /-- the `cancel` a fired paused-timeout timer makes, in the timer's task -/
  | watchdog (sid : SessionId) (cancelRequested : Bool) (pc : CancelPc)
  | shutdown (pc : ShutdownPc)

/-- `task.cancel()` on the task of a timer; one that is done ignores the request. -/
def Call.cancelTask : Call → Call
  | .watchdog sid _ .audit => .watchdog sid true .audit
  | c => c

@[simp] lemma Call.cancelTask_cancelTask (c : Call) : c.cancelTask.cancelTask = c.cancelTask := by
  cases c with
  | watchdog sid b pc => cases pc <;> rfl
  | idle | submit | pause | resume | cancel | shutdown => rfl

/-- A paused-timeout timer in `_paused_timers`. -/
inductive Timer where
  /-- asleep until the deadline -/
  | armed (deadline : Time)
  /-- its task is running, or has run, the `cancel` with this number -/
  | fired (call : CallId)
  /-- fired on a session that was not paused -/
  | expired
  deriving DecidableEq, Repr

/-! ### The state -/

/-- What the manager's dictionaries hold for one session id, and its `sessions` row. -/
structure Session where
  /-- the task of the session -/
  run : RunPc := .absent
  /-- `task.cancel()` was called and has not been delivered -/
  cancelRequested : Bool := false
  /-- history: `pause` has released the slot of this task, and no `resume` has given it back -/
  handedOver : Bool := false
  /-- `_running_tasks` -/
  tracked : Bool := false
  /-- `spec.executor` of the session is a wire backend -/
  wire : Bool := false
  /-- `_bridges` -/
  bridge : Bool := false
  /-- `_api_key_by_session` -/
  apiKey : Option (Option ApiKeyId) := none
  /-- `_owner_by_session` -/
  owner : Option (Option String) := none
  /-- `_session_states` -/
  state : Option SessionState := none
  /-- `_metrics` -/
  metrics : Bool := false
  /-- `_paused_at` -/
  pausedAt : Option Time := none
  /-- `_paused_timers` -/
  timer : Option Timer := none
  row : Option SessionRow := none
  /-- history: the `api_key_id` the session was submitted with -/
  submittedKey : Option ApiKeyId := none

/-- The task is in `_running_tasks` and not done. -/
@[grind =]
def Session.cancellable (s : Session) : Bool := s.tracked && !s.run.isDone

/-- `task.cancel()`, unless the task is done or gone. -/
@[simps, grind =]
def Session.cancelTask (s : Session) : Session :=
  { s with cancelRequested := s.cancelRequested || s.cancellable }

/-- Who can wait for a slot: the task of a session, or a call of `resume`. -/
inductive Waiter where
  | run (sid : SessionId)
  | call (cid : CallId)
  deriving DecidableEq, Repr

/-- The state of a `SessionManager` with its store and its event loop. -/
structure Manager where
  /-- `_sem` -/
  sem : Semaphore Waiter
  /-- `_accepting_new` -/
  acceptingNew : Bool
  sess : SessionId → Session
  /-- `_paused_set` -/
  pausedSet : Finset SessionId
  /-- `_paused_holds_slot` -/
  pausedHoldsSlot : Finset SessionId
  /-- `_paused_by_key` -/
  pausedByKey : ApiKeyId → Option ℕ
  calls : CallId → Call
  /-- the session ids in use are those below -/
  nextSid : SessionId
  /-- the call numbers in use are those below -/
  nextCall : CallId
  clock : Time

namespace Manager

/-- A fresh manager over a store that holds the rows `rows` of earlier processes. -/
def fresh (cfg : ManagerConfig) (rows : List SessionRow) : Manager where
  sem := .new cfg.maxConcurrent
  acceptingNew := true
  sess := fun sid => { row := rows[sid]? }
  pausedSet := ∅
  pausedHoldsSlot := ∅
  pausedByKey := fun _ => none
  calls := fun _ => .idle
  nextSid := rows.length
  nextCall := 0
  clock := 0

variable (m : Manager)

/-! ### Rewriting one coroutine or one session -/

/-- Suspend the call `cid` at `c`. -/
@[simps -fullyApplied]
def setCall (cid : CallId) (c : Call) : Manager :=
  { m with calls := Function.update m.calls cid c }

/-- Rewrite what is held for the session `sid`. -/
@[simps -fullyApplied]
def modify (sid : SessionId) (f : Session → Session) : Manager :=
  { m with sess := Function.update m.sess sid (f (m.sess sid)) }

/-- Suspend the task of `sid` at `pc`. -/
def setRun (sid : SessionId) (pc : RunPc) : Manager :=
  m.modify sid fun s => { s with run := pc }

/-- Register a new call. -/
@[simps -fullyApplied]
def newCall (c : Call) : Manager :=
  { m with calls := Function.update m.calls m.nextCall c, nextCall := m.nextCall + 1 }

/-- `self._sem.release()`. -/
@[simps -fullyApplied]
def semRelease : Manager := { m with sem := m.sem.release }

/-- A rewriting matters only at the session it is applied to. -/
lemma modify_congr {sid : SessionId} {f g : Session → Session}
    (h : f (m.sess sid) = g (m.sess sid)) : m.modify sid f = m.modify sid g := by
  simp [modify, h]

/-- Two rewritings of one session are one. -/
lemma modify_modify (sid : SessionId) (f g : Session → Session) :
    (m.modify sid f).modify sid g = m.modify sid fun s => g (f s) := by
  simp [modify]

/-! ### The helpers of the source -/

/-- `timer.cancel()`: the task of a timer that has fired is making a call. -/
def cancelTimerTask (calls : CallId → Call) : Option Timer → CallId → Call
  | some (.fired cid) => Function.update calls cid (calls cid).cancelTask
  | _ => calls

lemma cancelTimerTask_apply (calls : CallId → Call) (t : Option Timer) (cid : CallId) :
    cancelTimerTask calls t cid
      = if t = some (.fired cid) then (calls cid).cancelTask else calls cid := by
  cases t with
  | none => rfl
  | some t =>
      cases t with
      | fired c =>
          by_cases h : cid = c
          · simp [cancelTimerTask, h]
          · simp [cancelTimerTask, h, Ne.symm h]
      | armed | expired => simp [cancelTimerTask]

/-- `_cancel_paused_timer`: pop the timer and cancel its task. -/
@[simps -fullyApplied sem acceptingNew pausedSet pausedHoldsSlot pausedByKey calls nextSid
  nextCall clock]
def cancelPausedTimer (sid : SessionId) : Manager :=
  { m with
    sess := Function.update m.sess sid { m.sess sid with timer := none }
    calls := cancelTimerTask m.calls (m.sess sid).timer }

@[simp] lemma cancelPausedTimer_sess (sid : SessionId) :
    (m.cancelPausedTimer sid).sess
      = Function.update m.sess sid { m.sess sid with timer := none } := rfl

/-- `_arm_paused_timer`; `remaining` overrides the configured timeout. -/
def armPausedTimer (cfg : ManagerConfig) (sid : SessionId) (remaining : Option ℕ) : Manager :=
  (m.cancelPausedTimer sid).modify sid fun s =>
    { s with timer := some (.armed (m.clock + remaining.getD cfg.pausedTimeoutS)) }

section ArmPausedTimer

variable (cfg : ManagerConfig) (sid : SessionId) (remaining : Option ℕ)

@[simp] lemma armPausedTimer_sess :
    (m.armPausedTimer cfg sid remaining).sess = Function.update m.sess sid
      { m.sess sid with
        timer := some (.armed (m.clock + remaining.getD cfg.pausedTimeoutS)) } := by
  simp [armPausedTimer]

@[simp] lemma armPausedTimer_sem : (m.armPausedTimer cfg sid remaining).sem = m.sem := rfl

@[simp] lemma armPausedTimer_pausedSet :
    (m.armPausedTimer cfg sid remaining).pausedSet = m.pausedSet := rfl

@[simp] lemma armPausedTimer_pausedHoldsSlot :
    (m.armPausedTimer cfg sid remaining).pausedHoldsSlot = m.pausedHoldsSlot := rfl

@[simp] lemma armPausedTimer_pausedByKey :
    (m.armPausedTimer cfg sid remaining).pausedByKey = m.pausedByKey := rfl

@[simp] lemma armPausedTimer_calls :
    (m.armPausedTimer cfg sid remaining).calls = cancelTimerTask m.calls (m.sess sid).timer := rfl

@[simp] lemma armPausedTimer_nextSid :
    (m.armPausedTimer cfg sid remaining).nextSid = m.nextSid := rfl

@[simp] lemma armPausedTimer_nextCall :
    (m.armPausedTimer cfg sid remaining).nextCall = m.nextCall := rfl

end ArmPausedTimer

/-- The increment of `_paused_by_key`, for the entry `_api_key_by_session.get(sid)`. -/
def incrementKey (byKey : ApiKeyId → Option ℕ) : Option (Option ApiKeyId) → ApiKeyId → Option ℕ
  | some (some k) => Function.update byKey k (some ((byKey k).getD 0 + 1))
  | _ => byKey

/-- The decrement of `_paused_by_key`; an entry that would drop to zero is popped. -/
def decrementKey (byKey : ApiKeyId → Option ℕ) : Option (Option ApiKeyId) → ApiKeyId → Option ℕ
  | some (some k) =>
      let remaining := (byKey k).getD 0 - 1
      Function.update byKey k (if remaining = 0 then none else some remaining)
  | _ => byKey

/-- `_release_pause_bookkeeping`. -/
@[simps -fullyApplied sem acceptingNew pausedSet pausedHoldsSlot pausedByKey calls nextSid
  nextCall clock]
def releasePauseBookkeeping (sid : SessionId) (keepHolds : Bool) : Manager :=
  { m with
    pausedSet := m.pausedSet.erase sid
    pausedHoldsSlot := if keepHolds then m.pausedHoldsSlot else m.pausedHoldsSlot.erase sid
    sess := Function.update m.sess sid { m.sess sid with pausedAt := none }
    pausedByKey :=
      if sid ∈ m.pausedSet then decrementKey m.pausedByKey (m.sess sid).apiKey
      else m.pausedByKey }

@[simp] lemma releasePauseBookkeeping_sess (sid : SessionId) (keepHolds : Bool) :
    (m.releasePauseBookkeeping sid keepHolds).sess
      = Function.update m.sess sid { m.sess sid with pausedAt := none } := rfl

/-- `_check_paused_caps`: neither cap would be exceeded by pausing `sid`. -/
def checkPausedCaps (cfg : ManagerConfig) (sid : SessionId) : Bool :=
  if m.pausedSet.card ≥ cfg.maxPaused then false
  else
    match (m.sess sid).apiKey with
    | some (some k) => (m.pausedByKey k).getD 0 < cfg.maxPausedPerApiKey
    | _ => true

end Manager

end GgRelay
