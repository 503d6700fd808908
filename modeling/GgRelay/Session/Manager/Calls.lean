import GgRelay.Session.Credentials
import GgRelay.Session.Manager.Locked

/-!
The calls into the manager as step functions: `SessionManager.pause`, `resume`, `cancel` (with
the paused-timeout watchdog, which is a `cancel` in a task of its own), `shutdown` and `submit`.

Each coroutine has an entry, which runs up to its first `await` and registers the call, and a
step, which runs from the `await` the call is suspended at to the next one.  The step is `none`
where the reply does not fit the `await`.  The publications, audit rows and HITL cancellations
leave the state below alone: only their replies matter here.
-/

namespace GgRelay

namespace Manager

variable (cfg : ManagerConfig) (m : Manager)

/-! ### `pause` -/

/-- `pause`, up to its first `await`. -/
def pauseEntry (sid : SessionId) : Manager :=
  if (m.sess sid).bridge = false then m.newCall (.pause sid .missing)
  else if sid ∈ m.pausedSet then
    -- pausing a paused session only re-arms its timer
    (m.armPausedTimer cfg sid none).newCall (.pause sid (.done (.ok ())))
  else if m.checkPausedCaps cfg sid then m.newCall (.pause sid .version)
  else m.newCall (.pause sid (.done (.error .maxPausedExceeded)))

/-- `self._paused_holds_slot.add(sid); self._sem.release()`, unless `sid` is accounted for. -/
def handOverSlot (sid : SessionId) : Manager :=
  if sid ∈ m.pausedHoldsSlot then m
  else
    { m with
      sem := m.sem.release
      pausedHoldsSlot := insert sid m.pausedHoldsSlot
      sess := Function.update m.sess sid { m.sess sid with handedOver := true } }

/-- What `pause` records after a positive ack, up to the write of the row. -/
def pauseBookkeeping (sid : SessionId) : Manager :=
  { m with
    pausedSet := insert sid m.pausedSet
    sess := Function.update m.sess sid { m.sess sid with pausedAt := some m.clock }
    pausedByKey := incrementKey m.pausedByKey (m.sess sid).apiKey }.handOverSlot sid

section PauseBookkeeping

variable (sid : SessionId)

@[simp] lemma pauseBookkeeping_sem :
    (m.pauseBookkeeping sid).sem = if sid ∈ m.pausedHoldsSlot then m.sem else m.sem.release := by
  by_cases h : sid ∈ m.pausedHoldsSlot <;> simp [pauseBookkeeping, handOverSlot, h]

@[simp] lemma pauseBookkeeping_sess :
    (m.pauseBookkeeping sid).sess = Function.update m.sess sid
      { m.sess sid with
        pausedAt := some m.clock
        handedOver := (m.sess sid).handedOver || decide (sid ∉ m.pausedHoldsSlot) } := by
  by_cases h : sid ∈ m.pausedHoldsSlot <;> simp [pauseBookkeeping, handOverSlot, h]

@[simp] lemma pauseBookkeeping_pausedSet :
    (m.pauseBookkeeping sid).pausedSet = insert sid m.pausedSet := by
  by_cases h : sid ∈ m.pausedHoldsSlot <;> simp [pauseBookkeeping, handOverSlot, h]

@[simp] lemma pauseBookkeeping_pausedHoldsSlot :
    (m.pauseBookkeeping sid).pausedHoldsSlot = insert sid m.pausedHoldsSlot := by
  by_cases h : sid ∈ m.pausedHoldsSlot <;> simp [pauseBookkeeping, handOverSlot, h]

@[simp] lemma pauseBookkeeping_pausedByKey :
    (m.pauseBookkeeping sid).pausedByKey = incrementKey m.pausedByKey (m.sess sid).apiKey := by
  by_cases h : sid ∈ m.pausedHoldsSlot <;> simp [pauseBookkeeping, handOverSlot, h]

@[simp] lemma pauseBookkeeping_calls : (m.pauseBookkeeping sid).calls = m.calls := by
  by_cases h : sid ∈ m.pausedHoldsSlot <;> simp [pauseBookkeeping, handOverSlot, h]

@[simp] lemma pauseBookkeeping_nextSid : (m.pauseBookkeeping sid).nextSid = m.nextSid := by
  by_cases h : sid ∈ m.pausedHoldsSlot <;> simp [pauseBookkeeping, handOverSlot, h]

@[simp] lemma pauseBookkeeping_nextCall : (m.pauseBookkeeping sid).nextCall = m.nextCall := by
  by_cases h : sid ∈ m.pausedHoldsSlot <;> simp [pauseBookkeeping, handOverSlot, h]

end PauseBookkeeping

/-- `pause` runs on from its `await`. -/
def pauseStep (cid : CallId) (sid : SessionId) : PausePc → Reply → Option Manager
  | .done _, _ => none
  | .missing, .ok =>
      let e := if (m.sess sid).row.isNone then Exn.sessionNotFound else .sessionNotRunning
      some (m.setCall cid (.pause sid (.done (.error e))))
  | .version, .ok =>
      match (m.sess sid).row with
      | none => some (m.setCall cid (.pause sid (.done (.error .sessionNotFound))))
      | some r => some (m.setCall cid (.pause sid (.ack r.version)))
  | .ack v, .ack true =>
      some ((m.pauseBookkeeping sid).setCall cid (.pause sid (.locked m.clock (.write false v))))
  | .ack _, .ack false => some (m.setCall cid (.pause sid (.done (.error .ackRefused))))
  | .locked t l, r =>
      (l.resume (m.sess sid).row r).map fun
        | .more l' => m.setCall cid (.pause sid (.locked t l'))
        | .returned _ =>
            (m.modify sid fun s => { s with state := some .paused }).setCall cid (.pause sid .audit)
        | .raised e => m.setCall cid (.pause sid (.done (.error e)))
  | .audit, .ok => some (m.setCall cid (.pause sid .publish))
  | .audit, .raise e =>
      -- `_audit_record` swallows every `Exception`
      if e = .cancelledError then some (m.setCall cid (.pause sid (.done (.error e))))
      else some (m.setCall cid (.pause sid .publish))
  | .publish, .ok =>
      some ((m.armPausedTimer cfg sid none).setCall cid (.pause sid (.done (.ok ()))))
  | _, .raise e => some (m.setCall cid (.pause sid (.done (.error e))))
  | _, _ => none

/-! ### `resume` -/

/-- `resume`, up to its first `await`. -/
def resumeEntry (sid : SessionId) : Manager :=
  if sid ∉ m.pausedSet ∨ (m.sess sid).bridge = false then m.newCall (.resume sid .missing)
  else (m.cancelPausedTimer sid).newCall (.resume sid .version)

/-- The slot a `resume` holds becomes the task's, and the session is not paused any more. -/
def takeSlotBack (sid : SessionId) : Manager :=
  { m with pausedHoldsSlot := m.pausedHoldsSlot.erase sid }.releasePauseBookkeeping sid true
    |>.modify sid fun s => { s with handedOver := false }

section TakeSlotBack

variable (sid : SessionId)

@[simp] lemma takeSlotBack_sem : (m.takeSlotBack sid).sem = m.sem := rfl

@[simp] lemma takeSlotBack_sess :
    (m.takeSlotBack sid).sess = Function.update m.sess sid
      { m.sess sid with pausedAt := none, handedOver := false } := by
  simp [takeSlotBack]

@[simp] lemma takeSlotBack_pausedSet :
    (m.takeSlotBack sid).pausedSet = m.pausedSet.erase sid := rfl

@[simp] lemma takeSlotBack_pausedHoldsSlot :
    (m.takeSlotBack sid).pausedHoldsSlot = m.pausedHoldsSlot.erase sid := rfl

@[simp] lemma takeSlotBack_pausedByKey :
    (m.takeSlotBack sid).pausedByKey
      = if sid ∈ m.pausedSet then decrementKey m.pausedByKey (m.sess sid).apiKey
        else m.pausedByKey := rfl

@[simp] lemma takeSlotBack_calls : (m.takeSlotBack sid).calls = m.calls := rfl

@[simp] lemma takeSlotBack_nextSid : (m.takeSlotBack sid).nextSid = m.nextSid := rfl

@[simp] lemma takeSlotBack_nextCall : (m.takeSlotBack sid).nextCall = m.nextCall := rfl

end TakeSlotBack

/-- The roll-back of a `resume` that holds a slot: release it and re-arm the timer. -/
@[simp]
def resumeRollBack (sid : SessionId) : Manager := m.semRelease.armPausedTimer cfg sid none

/-- `resume` runs on from its `await`. -/
def resumeStep (cid : CallId) (sid : SessionId) : ResumePc → Reply → Option Manager
  | .done _, _ => none
  | .missing, .ok =>
      let e := if (m.sess sid).row.isNone then Exn.sessionNotFound else .sessionNotPaused
      some (m.setCall cid (.resume sid (.done (.error e))))
  | .version, .ok =>
      match (m.sess sid).row with
      | none => some (m.setCall cid (.resume sid (.done (.error .sessionNotFound))))
      | some r =>
          let (sem, atOnce) := m.sem.acquire (.call cid)
          let pc := if atOnce then ResumePc.ack r.version else .acquire r.version
          some ({ m with sem := sem }.setCall cid (.resume sid pc))
  | .acquire v, .ok =>
      (m.sem.resume (.call cid)).map fun sem =>
        { m with sem := sem }.setCall cid (.resume sid (.ack v))
  | .acquire _, .raise e =>
      let m' := { m with sem := m.sem.abandon (.call cid) }
      -- only the timeout re-arms the timer: any other exception is not caught here
      if e = .timeoutError then
        some ((m'.armPausedTimer cfg sid none).setCall cid
          (.resume sid (.done (.error .resumeQueueTimeout))))
      else some (m'.setCall cid (.resume sid (.done (.error e))))
  | .ack v, .ack true =>
      some ((m.takeSlotBack sid).setCall cid (.resume sid (.locked (.write false v))))
  | .ack _, .ack false =>
      some ((m.resumeRollBack cfg sid).setCall cid (.resume sid (.done (.error .ackRefused))))
  | .ack _, .raise e =>
      some ((m.resumeRollBack cfg sid).setCall cid (.resume sid (.done (.error e))))
  | .locked l, r =>
      (l.resume (m.sess sid).row r).map fun
        | .more l' => m.setCall cid (.resume sid (.locked l'))
        | .returned _ =>
            (m.modify sid fun s => { s with state := some .running }).setCall cid
              (.resume sid .audit)
        | .raised e => m.setCall cid (.resume sid (.done (.error e)))
  | .audit, .ok => some (m.setCall cid (.resume sid .publish))
  | .audit, .raise e =>
      if e = .cancelledError then some (m.setCall cid (.resume sid (.done (.error e))))
      else some (m.setCall cid (.resume sid .publish))
  | .publish, .ok => some (m.setCall cid (.resume sid (.done (.ok ()))))
  | _, .raise e => some (m.setCall cid (.resume sid (.done (.error e))))
  | _, _ => none

/-! ### `cancel` and the watchdog -/

/-- `cancel` after its audit record: no `await` suspends it from here on. -/
def cancelBlock (sid : SessionId) : Manager :=
  let m' := m.cancelPausedTimer sid
  let m' := if sid ∈ m'.pausedSet then m'.releasePauseBookkeeping sid false else m'
  m'.modify sid Session.cancelTask

section CancelBlock

variable (sid : SessionId)

@[simp] lemma cancelBlock_sem : (m.cancelBlock sid).sem = m.sem := by
  simp only [cancelBlock]
  split <;> simp

@[simp] lemma cancelBlock_sess :
    (m.cancelBlock sid).sess = Function.update m.sess sid
      { m.sess sid with
        timer := none
        pausedAt := if sid ∈ m.pausedSet then none else (m.sess sid).pausedAt }.cancelTask := by
  by_cases h : sid ∈ m.pausedSet <;> simp [cancelBlock, h]

@[simp] lemma cancelBlock_pausedSet :
    (m.cancelBlock sid).pausedSet = m.pausedSet.erase sid := by
  by_cases h : sid ∈ m.pausedSet <;> simp [cancelBlock, h]

@[simp] lemma cancelBlock_pausedHoldsSlot :
    (m.cancelBlock sid).pausedHoldsSlot
      = if sid ∈ m.pausedSet then m.pausedHoldsSlot.erase sid else m.pausedHoldsSlot := by
  by_cases h : sid ∈ m.pausedSet <;> simp [cancelBlock, h]

@[simp] lemma cancelBlock_pausedByKey :
    (m.cancelBlock sid).pausedByKey
      = if sid ∈ m.pausedSet then decrementKey m.pausedByKey (m.sess sid).apiKey
        else m.pausedByKey := by
  by_cases h : sid ∈ m.pausedSet <;> simp [cancelBlock, h]

@[simp] lemma cancelBlock_calls :
    (m.cancelBlock sid).calls = cancelTimerTask m.calls (m.sess sid).timer := by
  by_cases h : sid ∈ m.pausedSet <;> simp [cancelBlock, h]

@[simp] lemma cancelBlock_nextSid : (m.cancelBlock sid).nextSid = m.nextSid := by
  by_cases h : sid ∈ m.pausedSet <;> simp [cancelBlock, h]

@[simp] lemma cancelBlock_nextCall : (m.cancelBlock sid).nextCall = m.nextCall := by
  by_cases h : sid ∈ m.pausedSet <;> simp [cancelBlock, h]

end CancelBlock

/-- `cancel` runs on from the audit record. -/
def cancelStep (cid : CallId) (sid : SessionId) : CancelPc → Reply → Option Manager
  | .audit, .ok => some ((m.cancelBlock sid).setCall cid (.cancel sid (.done (.ok ()))))
  | .audit, .raise e =>
      if e = .cancelledError then some (m.setCall cid (.cancel sid (.done (.error e))))
      else some ((m.cancelBlock sid).setCall cid (.cancel sid (.done (.ok ()))))
  | _, _ => none

/-- `_paused_timeout_watchdog` when its sleep is over. -/
def fire (sid : SessionId) : Option Manager :=
  match (m.sess sid).timer with
  | some (.armed deadline) =>
      if deadline ≤ m.clock then
        if sid ∈ m.pausedSet then
          some ((m.modify sid fun s => { s with timer := some (.fired m.nextCall) }).newCall
            (.watchdog sid false .audit))
        else some (m.modify sid fun s => { s with timer := some .expired })
      else none
  | _ => none

/-- The watchdog's `cancel` runs on; a cancellation of the timer's task is delivered first. -/
def watchdogStep (cid : CallId) (sid : SessionId) (cancelRequested : Bool) :
    CancelPc → Reply → Option Manager
  | .audit, .ok =>
      if cancelRequested then none
      else some ((m.cancelBlock sid).setCall cid (.watchdog sid false (.done (.ok ()))))
  | .audit, .raise e =>
      if cancelRequested then
        if e = .cancelledError then
          some (m.setCall cid (.watchdog sid true (.done (.error e))))
        else none
      else if e = .cancelledError then none
      else some ((m.cancelBlock sid).setCall cid (.watchdog sid false (.done (.ok ()))))
  | _, _ => none

/-! ### `shutdown` -/

/-- The sessions in `_running_tasks`. -/
def trackedSids : List SessionId := (List.range m.nextSid).filter fun sid => (m.sess sid).tracked

/-- `task.cancel()` on every task of `_running_tasks` that is not done. -/
@[simps -fullyApplied]
def cancelTasks : Manager :=
  { m with sess := fun sid => (m.sess sid).cancelTask }

/-- Cancel every timer that is left. -/
def sweepTimers : Manager := (List.range m.nextSid).foldl cancelPausedTimer m

section SweepTimers

lemma foldl_cancelPausedTimer_sess (sids : List SessionId) (sid : SessionId) :
    (sids.foldl cancelPausedTimer m).sess sid
      = if sid ∈ sids then { m.sess sid with timer := none } else m.sess sid := by
  induction sids generalizing m with
  | nil => simp
  | cons s sids ih =>
      rw [List.foldl_cons, ih]
      by_cases hs : sid = s
      · subst hs
        by_cases hm : sid ∈ sids <;> simp [hm]
      · simp [hs]

@[simp] lemma sweepTimers_sess :
    m.sweepTimers.sess
      = fun sid => if sid < m.nextSid then { m.sess sid with timer := none } else m.sess sid := by
  funext sid
  simp [sweepTimers, foldl_cancelPausedTimer_sess]

/-- The sweep stops some of the watchdogs and leaves the other calls alone. -/
lemma sweepTimers_calls (cid : CallId) :
    m.sweepTimers.calls cid = m.calls cid ∨ m.sweepTimers.calls cid = (m.calls cid).cancelTask := by
  rw [sweepTimers]
  generalize List.range m.nextSid = sids
  induction sids generalizing m with
  | nil => exact Or.inl rfl
  | cons s sids ih =>
      have hs : (m.cancelPausedTimer s).calls cid = m.calls cid ∨
          (m.cancelPausedTimer s).calls cid = (m.calls cid).cancelTask := by
        rw [cancelPausedTimer_calls, cancelTimerTask_apply]
        split
        · exact Or.inr rfl
        · exact Or.inl rfl
      rw [List.foldl_cons]
      rcases ih (m.cancelPausedTimer s) with h | h <;> rcases hs with h' | h' <;>
        simp [h, h']

/-- What `_cancel_paused_timer` leaves alone, the sweep leaves alone. -/
lemma foldl_cancelPausedTimer_eq {α : Type} (g : Manager → α)
    (hg : ∀ m sid, g (cancelPausedTimer m sid) = g m) (sids : List SessionId) :
    g (sids.foldl cancelPausedTimer m) = g m := by
  induction sids generalizing m with
  | nil => rfl
  | cons s sids ih => rw [List.foldl_cons, ih, hg]

@[simp] lemma sweepTimers_nextSid : m.sweepTimers.nextSid = m.nextSid :=
  m.foldl_cancelPausedTimer_eq _ (fun _ _ => rfl) _

@[simp] lemma sweepTimers_nextCall : m.sweepTimers.nextCall = m.nextCall :=
  m.foldl_cancelPausedTimer_eq _ (fun _ _ => rfl) _

@[simp] lemma sweepTimers_sem : m.sweepTimers.sem = m.sem :=
  m.foldl_cancelPausedTimer_eq _ (fun _ _ => rfl) _

@[simp] lemma sweepTimers_pausedSet : m.sweepTimers.pausedSet = m.pausedSet :=
  m.foldl_cancelPausedTimer_eq _ (fun _ _ => rfl) _

@[simp] lemma sweepTimers_pausedHoldsSlot :
    m.sweepTimers.pausedHoldsSlot = m.pausedHoldsSlot :=
  m.foldl_cancelPausedTimer_eq _ (fun _ _ => rfl) _

@[simp] lemma sweepTimers_pausedByKey : m.sweepTimers.pausedByKey = m.pausedByKey :=
  m.foldl_cancelPausedTimer_eq _ (fun _ _ => rfl) _

end SweepTimers

/-- The grace loop of `shutdown`, from the test of its condition to the next `await`. -/
def graceLoop (cid : CallId) (deadline : Time) : Manager :=
  if m.trackedSids = [] then m.sweepTimers.setCall cid (.shutdown .done)
  else if m.clock < deadline then m.setCall cid (.shutdown (.grace deadline))
  else m.cancelTasks.setCall cid (.shutdown (.gather m.trackedSids))

/-- `shutdown`, up to its first `await`; `cancelPaused` is `paused_action="cancel"`. -/
def shutdownEntry (cancelPaused : Bool) (graceS : ℕ) : Manager :=
  if m.acceptingNew = false ∧ m.trackedSids = [] then m.newCall (.shutdown .done)
  else
    let paused := (List.range m.nextSid).filter (· ∈ m.pausedSet)
    { m with acceptingNew := false }.newCall
      (.shutdown (.loop (if cancelPaused then paused else []) graceS))

/-- The tasks of the list are all done. -/
def allDone (sids : List SessionId) : Bool :=
  sids.all fun sid => (m.sess sid).run.isDone

/-- `shutdown` runs on from its `await`. -/
def shutdownStep (cid : CallId) : ShutdownPc → Reply → Option Manager
  | .loop [] graceS, .ok => some (m.graceLoop cid (m.clock + graceS))
  | .loop (sid :: rest) graceS, .ok =>
      some (m.setCall cid (.shutdown (.cancelling sid rest graceS)))
  | .cancelling sid rest graceS, .ok =>
      some ((m.cancelBlock sid).setCall cid (.shutdown (.loop rest graceS)))
  | .cancelling sid rest graceS, .raise e =>
      if e = .cancelledError then some (m.setCall cid (.shutdown .done))
      else some ((m.cancelBlock sid).setCall cid (.shutdown (.loop rest graceS)))
  | .grace deadline, .ok => some (m.graceLoop cid deadline)
  | .gather sids, .ok =>
      if m.allDone sids then some (m.sweepTimers.setCall cid (.shutdown .done)) else none
  | .grace _, .raise .cancelledError => some (m.setCall cid (.shutdown .done))
  | .gather _, .raise .cancelledError => some (m.setCall cid (.shutdown .done))
  | _, _ => none

/-! ### `submit` -/

/-- The strict-mode check of `submit` refuses the merged credentials. -/
def strictRefuses (args : SubmitArgs) : Bool :=
  !credentialBundleIsComplete args.credentials && args.actorRole != some "admin"
    && cfg.requirePerUserCredentials

/-- `submit` between the credential lookup and `create_session`: where the call is suspended,
and the next free session id.  The id is drawn before the redaction. -/
def submitCheck (args : SubmitArgs) : Call × SessionId :=
  if strictRefuses cfg args then (.submit args (.done none (.error .missingCredentials)), m.nextSid)
  else if args.redactable then (.submit args (.create m.nextSid), m.nextSid + 1)
  else (.submit args (.done (some m.nextSid) (.error (.other "unknown" 500))), m.nextSid + 1)

/-- `submit`, up to its first `await`. -/
def submitEntry (args : SubmitArgs) : Manager :=
  if m.acceptingNew = false then
    m.newCall (.submit args (.done none (.error .shuttingDown)))
  else if cfg.hasCredentialsStore ∧ args.actorLabel.getD "" ≠ "" then
    m.newCall (.submit args .lookup)
  else { m with nextSid := (m.submitCheck cfg args).2 }.newCall (m.submitCheck cfg args).1

/-- The lookup of a `submit` is over: the credentials are settled. -/
def submitLookedUp (cid : CallId) (args : SubmitArgs) : Manager :=
  { m with nextSid := (m.submitCheck cfg args).2 }.setCall cid (m.submitCheck cfg args).1

/-- The bookkeeping of an accepted `submit`, and the creation of the task. -/
@[simp]
def submitRegister (sid : SessionId) (args : SubmitArgs) : Manager :=
  m.modify sid fun s =>
    { s with
      metrics := true
      apiKey := some args.apiKeyId
      owner := some args.owner
      state := some .queued
      run := .start
      tracked := true
      wire := args.wire
      submittedKey := args.apiKeyId }

/-- `submit` runs on from its `await`. -/
def submitStep (cid : CallId) (args : SubmitArgs) : SubmitPc → Reply → Option Manager
  | .done _ _, _ => none
  | .lookup, .credentials rows =>
      let merged := if rows = [] then args.credentials else mergeCredentials rows args.credentials
      some (m.submitLookedUp cfg cid { args with credentials := merged })
  | .lookup, .raise e =>
      if e = .cancelledError then some (m.setCall cid (.submit args (.done none (.error e))))
      else if cfg.requirePerUserCredentials then
        some (m.setCall cid (.submit args (.done none (.error .credentialsLookupUnavailable))))
      else some (m.submitLookedUp cfg cid args)
  | .create sid, .raise e => some (m.setCall cid (.submit args (.done (some sid) (.error e))))
  | .created sid, .ok => some (m.setCall cid (.submit args (.audit sid)))
  | .created sid, .raise e => some (m.setCall cid (.submit args (.done (some sid) (.error e))))
  | .audit sid, .ok => some (m.setCall cid (.submit args (.publish sid)))
  | .audit sid, .raise e =>
      if e = .cancelledError then
        some (m.setCall cid (.submit args (.done (some sid) (.error e))))
      else some (m.setCall cid (.submit args (.publish sid)))
  | .publish sid, .ok =>
      some ((m.submitRegister sid args).setCall cid (.submit args (.done (some sid) (.ok sid))))
  | .publish sid, .raise e => some (m.setCall cid (.submit args (.done (some sid) (.error e))))
  | _, _ => none

/-! ### All calls -/

/-- A call runs on from its `await`. -/
def callStep (cid : CallId) (r : Reply) : Option Manager :=
  match m.calls cid with
  | .idle => none
  | .submit args pc => m.submitStep cfg cid args pc r
  | .pause sid pc => m.pauseStep cfg cid sid pc r
  | .resume sid pc => m.resumeStep cfg cid sid pc r
  | .cancel sid pc => m.cancelStep cid sid pc r
  | .watchdog sid cancelRequested pc => m.watchdogStep cid sid cancelRequested pc r
  | .shutdown pc => m.shutdownStep cid pc r

/-- The database executes the statement a call is waiting for. -/
def callCommit (cid : CallId) : Option Manager :=
  match m.calls cid with
  | .submit args (.create sid) =>
      some ((m.modify sid fun s => { s with row := some .created }).setCall cid
        (.submit args (.created sid)))
  | .pause sid (.locked t l) =>
      (l.commit (pauseFields t) (m.sess sid).row).map fun p =>
        (m.modify sid fun s => { s with row := p.1 }).setCall cid (.pause sid (.locked t p.2))
  | .resume sid (.locked l) =>
      (l.commit resumeFields (m.sess sid).row).map fun p =>
        (m.modify sid fun s => { s with row := p.1 }).setCall cid (.resume sid (.locked p.2))
  | _ => none

end Manager

end GgRelay
