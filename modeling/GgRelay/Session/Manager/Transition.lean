import GgRelay.Lib.System
import GgRelay.Session.Manager.Calls
import GgRelay.Session.Manager.Run

/-!
The session manager as a transition system: any number of sessions and calls, interleaved at
their `await`s in any order, with every reply an `await` can come back with.
-/

namespace GgRelay

/-- One step of the event loop, of the database or of the clock. -/
inductive Label where
  /-- a new call of `submit` -/
  | submit (args : SubmitArgs)
  | pause (sid : SessionId)
  | resume (sid : SessionId)
  | cancel (sid : SessionId)
  | shutdown (cancelPaused : Bool) (graceS : ℕ)
  /-- a call runs on with this reply -/
  | call (cid : CallId) (r : Reply)
  /-- the statement a call waits for is executed -/
  | callCommit (cid : CallId)
  /-- the task of a session runs on with this reply -/
  | run (sid : SessionId) (r : Reply)
  /-- the statement the task of a session waits for is executed -/
  | runCommit (sid : SessionId)
  /-- the done callback of the task of a session -/
  | reap (sid : SessionId)
  /-- the paused-timeout timer of a session is over -/
  | fire (sid : SessionId)
  | tick
  deriving DecidableEq, Repr

/-- The call that a step runs. -/
def Label.cid? : Label → Option CallId
  | .call cid _ => some cid
  | _ => none

/-- One step of the manager. -/
def Manager.step (cfg : ManagerConfig) (m : Manager) : Label → Option Manager
  | .submit args => some (m.submitEntry cfg args)
  | .pause sid => some (m.pauseEntry cfg sid)
  | .resume sid => some (m.resumeEntry sid)
  | .cancel sid => some (m.newCall (.cancel sid .audit))
  | .shutdown cancelPaused graceS => some (m.shutdownEntry cancelPaused graceS)
  | .call cid r => m.callStep cfg cid r
  | .callCommit cid => m.callCommit cid
  | .run sid r => m.runStep sid r
  | .runCommit sid => m.runCommit sid
  | .reap sid => m.reap sid
  | .fire sid => m.fire sid
  | .tick => some { m with clock := m.clock + 1 }

/-- The manager over any store content left by earlier processes. -/
def managerSystem (cfg : ManagerConfig) : System Manager Label where
  init m := ∃ rows, m = Manager.fresh cfg rows
  step m l := m.step cfg l

lemma reachable_of_run {cfg : ManagerConfig} {ls : List Label} {m : Manager}
    (h : (managerSystem cfg).run (Manager.fresh cfg []) ls = some m) :
    (managerSystem cfg).Reachable m :=
  .of_run (.init ⟨[], rfl⟩) h

lemma reachableVia_of_run {cfg : ManagerConfig} {ok : Manager → Label → Prop}
    [∀ m l, Decidable (ok m l)] {ls : List Label} {m : Manager}
    (h : (managerSystem cfg).checkedRun ok (Manager.fresh cfg []) ls = some m) :
    (managerSystem cfg).ReachableVia ok m :=
  .of_checkedRun (.init ⟨[], rfl⟩) h

/-! ### One session -/

/-- A manager with one slot. -/
def oneSlot : ManagerConfig where
  maxConcurrent := 1
  pausedTimeoutS := 3600
  maxPaused := 1
  maxPausedPerApiKey := 1

/-- A manager with two slots, where one session may be paused. -/
def twoSlots : ManagerConfig where
  maxConcurrent := 2
  pausedTimeoutS := 3600
  maxPaused := 1
  maxPausedPerApiKey := 1

/-- A session from its submission by the call `cid` to `_drive_session`. -/
def driveRun (args : SubmitArgs := {}) (sid : SessionId := 0) (cid : CallId := 0) : List Label :=
  [.submit args, .callCommit cid, .call cid .ok, .call cid .ok, .call cid .ok, .run sid .ok,
    .run sid .ok, .runCommit sid, .run sid .ok, .run sid .ok, .run sid .ok,
    .run sid (.started "rt"), .run sid .ok, .runCommit sid, .run sid .ok]

/-- The call `1` pauses the session `0`. -/
def pauseCalls : List Label :=
  [.pause 0, .call 1 .ok, .call 1 (.ack true), .callCommit 1, .call 1 .ok, .call 1 .ok, .call 1 .ok]

/-- The call `2` resumes it. -/
def resumeCalls : List Label :=
  [.resume 0, .call 2 .ok, .call 2 (.ack true), .callCommit 2, .call 2 .ok, .call 2 .ok, .call 2 .ok]

/-- The session `0`, paused. -/
def pauseRun : List Label := driveRun ++ pauseCalls

/-- The session `0`, paused and resumed. -/
def resumeRun : List Label := pauseRun ++ resumeCalls

/-- The rest of the life of the session `0`. -/
def endRun : List Label :=
  [.run 0 .ok, .run 0 .ok, .run 0 .ok, .runCommit 0, .run 0 .ok, .run 0 .ok, .run 0 .ok, .reap 0]

end GgRelay
