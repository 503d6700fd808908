import GgRelay.Session.Manager.Locked

/-!
The task of a session, `SessionManager._run`, as a step function: from the acquisition of a
slot through the executor's life to the `finally` block that settles the row.

`runFinally` is the part of the `finally` block before its first `await`; every way out of the
`try` leads there, through `runExcept` for the exceptions.  A cancellation of the task is
delivered at the next `await` (`runRefuses`): only inside `_drive_session` and `executor.stop`
can it come late, or be caught on its way.
-/

namespace GgRelay

/-- `end_reason` of an exception that is classified by `classify_sdk_error`. -/
def sdkReason : Exn → String
  | .other category httpStatus => s!"{category}:{httpStatus}"
  | _ => "unknown:500"

namespace Manager

variable (m : Manager)

/-- The `finally` block of `_run` up to its first `await`; `acquired` is `acquired_slot`. -/
def runFinally (sid : SessionId) (acquired : Bool) (e : EndState) : Manager :=
  let m' := if acquired ∧ sid ∉ m.pausedHoldsSlot then m.semRelease else m
  let m' := m'.cancelPausedTimer sid
  (m'.releasePauseBookkeeping sid false).modify sid fun s =>
    { s with
      bridge := false
      apiKey := none
      owner := none
      state := none
      run := .terminal e m.clock .read }

section RunFinally

variable (sid : SessionId) (acquired : Bool) (e : EndState)

@[simp] lemma runFinally_sem :
    (m.runFinally sid acquired e).sem
      = if acquired ∧ sid ∉ m.pausedHoldsSlot then m.sem.release else m.sem := by
  simp only [runFinally]
  split <;> simp

@[simp] lemma runFinally_sess :
    (m.runFinally sid acquired e).sess = Function.update m.sess sid
      { m.sess sid with
        timer := none
        pausedAt := none
        bridge := false
        apiKey := none
        owner := none
        state := none
        run := .terminal e m.clock .read } := by
  simp only [runFinally]
  split <;> simp

@[simp] lemma runFinally_pausedSet :
    (m.runFinally sid acquired e).pausedSet = m.pausedSet.erase sid := by
  simp only [runFinally]
  split <;> simp

@[simp] lemma runFinally_pausedHoldsSlot :
    (m.runFinally sid acquired e).pausedHoldsSlot = m.pausedHoldsSlot.erase sid := by
  simp only [runFinally]
  split <;> simp

@[simp] lemma runFinally_pausedByKey :
    (m.runFinally sid acquired e).pausedByKey
      = if sid ∈ m.pausedSet then decrementKey m.pausedByKey (m.sess sid).apiKey
        else m.pausedByKey := by
  simp only [runFinally]
  split <;> simp

@[simp] lemma runFinally_calls :
    (m.runFinally sid acquired e).calls = cancelTimerTask m.calls (m.sess sid).timer := by
  simp only [runFinally]
  split <;> simp

@[simp] lemma runFinally_nextSid : (m.runFinally sid acquired e).nextSid = m.nextSid := by
  simp only [runFinally]
  split <;> simp

@[simp] lemma runFinally_nextCall : (m.runFinally sid acquired e).nextCall = m.nextCall := by
  simp only [runFinally]
  split <;> simp

end RunFinally

/-- The exception ladder of `_run`. -/
def runExcept (sid : SessionId) (acquired : Bool) : Exn → Manager
  | .timeoutError => m.runFinally sid acquired ⟨.cancelled, some "timeout"⟩
  | .cancelledError => m.runFinally sid acquired ⟨.cancelled, some "cancelled"⟩
  | .pluginInstall code => m.setRun sid (.report ⟨.failed, some s!"install:{code}"⟩)
  | e => m.setRun sid (.report ⟨.failed, some (sdkReason e)⟩)

/-- The `await` of the task does not come back with this reply: a cancellation is delivered if
and only if it was requested, but for the two `await`s that can hold it up. -/
def runRefuses (s : Session) (r : Reply) : Bool :=
  match s.run with
  | .drive => r == .raise .cancelledError && !s.cancelRequested
  | .stop _ => (r == .raise .cancelledError || r == .swallowed) && !s.cancelRequested
  | _ => (r == .raise .cancelledError) != s.cancelRequested

/-- A delivered cancellation is not requested any more. -/
def runDeliver (sid : SessionId) (r : Reply) : Manager :=
  if r = .raise .cancelledError ∨ r = .swallowed then
    m.modify sid fun s => { s with cancelRequested := false }
  else m

/-- `_run` runs on from its `await`. -/
def runResume (sid : SessionId) : RunPc → Reply → Option Manager
  | .absent, _ => none
  | .done, _ => none
  -- a task cancelled before it starts never enters its body
  | .start, .raise .cancelledError => some (m.setRun sid .done)
  | .start, .ok =>
      let (sem, atOnce) := m.sem.acquire (.run sid)
      some ({ m with sem := sem }.setRun sid (if atOnce then .begin m.clock .read else .acquire))
  | .acquire, .ok =>
      (m.sem.resume (.run sid)).map fun sem =>
        { m with sem := sem }.setRun sid (.begin m.clock .read)
  | .acquire, .raise .cancelledError =>
      some ({ m with sem := m.sem.abandon (.run sid) }.runExcept sid false .cancelledError)
  | .begin t l, r =>
      (l.resume (m.sess sid).row r).map fun
        | .more l' => m.setRun sid (.begin t l')
        | .returned _ | .raised .concurrency => m.setRun sid .announce
        | .raised e => m.runExcept sid true e
  | .announce, .ok =>
      some (m.modify sid fun s => { s with state := some .running, run := .prepare })
  | .prepare, .ok => some (m.setRun sid .startExecutor)
  | .prepare, .raise e =>
      match e with
      | .cancelledError | .pluginInstall _ => some (m.runExcept sid true e)
      | _ => none
  | .startExecutor, .started runtimeId =>
      some (m.modify sid fun s =>
        { s with bridge := s.bridge || !s.wire, run := .runtime runtimeId .read })
  | .runtime i l, r =>
      (l.resume (m.sess sid).row r).map fun
        | .more l' => m.setRun sid (.runtime i l')
        | .returned _ | .raised .concurrency =>
            m.modify sid fun s => { s with bridge := s.bridge || s.wire, run := .drive }
        | .raised e => m.setRun sid (.stop (some e))
  | .drive, .ok => some (m.setRun sid (.stop none))
  | .drive, .raise e => some (m.setRun sid (.stop (some e)))
  | .stop pending, r =>
      match r, pending with
      | .raise .cancelledError, _ => some (m.runExcept sid true .cancelledError)
      | .ok, some e | .swallowed, some e | .raise _, some e => some (m.runExcept sid true e)
      | .ok, none | .swallowed, none | .raise _, none =>
          some (m.runFinally sid true ⟨.completed, none⟩)
      | _, _ => none
  | .report e, .ok => some (m.runFinally sid true e)
  | .report e, .raise _ => some (m.runFinally sid true e)
  | .announce, .raise e => some (m.runExcept sid true e)
  | .startExecutor, .raise e => some (m.runExcept sid true e)
  | .terminal e t l, r =>
      (l.resume (m.sess sid).row r).map fun
        | .more l' => m.setRun sid (.terminal e t l')
        | .returned _ | .raised .concurrency | .raised .sessionNotFound =>
            m.setRun sid (if (m.sess sid).metrics then .aggregates e else .final e)
        | .raised _ => m.setRun sid .done
  | .aggregates e, .ok => some (m.setRun sid (.final e))
  | .aggregates e, .raise x =>
      if x = .cancelledError then some (m.setRun sid .done) else some (m.setRun sid (.final e))
  | .final _, .ok => some (m.setRun sid .done)
  | .final _, .raise _ => some (m.setRun sid .done)
  | _, _ => none

/-- The task of `sid` takes a step. -/
def runStep (sid : SessionId) (r : Reply) : Option Manager :=
  if runRefuses (m.sess sid) r then none
  else (m.runDeliver sid r).runResume sid (m.sess sid).run r

/-- The database executes the statement the task of `sid` is waiting for. -/
def runCommit (sid : SessionId) : Option Manager :=
  match (m.sess sid).run with
  | .begin t l =>
      (l.commit (beginFields t) (m.sess sid).row).map fun p =>
        m.modify sid fun s => { s with row := p.1, run := .begin t p.2 }
  | .runtime i l =>
      (l.commit (runtimeFields i) (m.sess sid).row).map fun p =>
        m.modify sid fun s => { s with row := p.1, run := .runtime i p.2 }
  | .terminal e t l =>
      (l.commit (endFields e t) (m.sess sid).row).map fun p =>
        m.modify sid fun s => { s with row := p.1, run := .terminal e t p.2 }
  | _ => none

/-- `_on_task_done`: the done callback drops the task from `_running_tasks`. -/
def reap (sid : SessionId) : Option Manager :=
  if (m.sess sid).run.isDone then some (m.modify sid fun s => { s with tracked := false })
  else none

end Manager

end GgRelay
