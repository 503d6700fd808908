import GgRelay.Lib.System
import GgRelay.Session.K8sJob.Connect

/-!
The executor that runs each session as a Kubernetes job (`session/executor/k8s_job.py`), with any
number of calls of `start` and `stop` under way at once.

* `Executor` is the table of the jobs in flight, the calls, and what has become of the Secrets;
  between two awaits a call runs without a break, so a step takes a call from one await to the next;
* `Label` says which call goes on and what the call it awaits comes back with;
* `executor` is the transition system, `Executor.Kept` what is to hold of its states.
-/

namespace GgRelay.K8sJob

/-- `runtime_id`, which the names of the Secret and of the Job are made of. -/
abbrev RuntimeId := ℕ

/-- Where a call of `start` is. -/
inductive StartPc where
  | notCalled
  | createSecret
  | createJob
  | waitForPodIp
  | connect
  /-- in the `delete_secret` of a handler -/
  | deleteSecret
  /-- it has returned the handle -/
  | returned
  | failed
  deriving DecidableEq, Repr

/-- The call may still put its handle into the table. -/
def StartPc.starting (pc : StartPc) : Bool := pc ∈ [createSecret, createJob, waitForPodIp, connect]

/-- The call is executing. -/
def StartPc.running (pc : StartPc) : Bool := pc.starting || pc = .deleteSecret

/-- Where a call of `stop` is, with the job it is about. -/
inductive StopCall where
  /-- it has taken the handle out of the table, and closes its transport -/
  | drains (i : RuntimeId)
  | deletesSecret (i : RuntimeId)
  deriving DecidableEq, Repr

/-- The state of the executor and of the Secrets on the cluster. -/
structure Executor where
  /-- the keys of `_inflight` -/
  inflight : Finset RuntimeId := ∅
  /-- the ids that `uuid4` has drawn -/
  drawn : Finset RuntimeId := ∅
  starts : RuntimeId → StartPc := fun _ => .notCalled
  stops : List StopCall := []
  /-- the Secrets that have been created -/
  created : Finset RuntimeId := ∅
  /-- the Secrets whose deletion has been requested -/
  deleted : Finset RuntimeId := ∅

/-- What comes of `create_secret`. -/
inductive Creation where
  /-- it returns, and then `_build_env` raises, or does not -/
  | created (buildEnv : Except Exn Unit)
  /-- it raises, after the Secret has been created, or before -/
  | raised (e : Exn) (onCluster : Bool)

/-- What the transport does to the first part of `stop`. -/
structure Drain where
  send : Except Exn Unit := .ok ()
  /-- what the calls of `recv` come back with, until the time is over; a transport that is closed
  already is one whose `recv` raises `TransportClosed` -/
  recvs : List (Except Exn Unit)
  close : Except Exn Unit := .ok ()

/-- What happens next. -/
inductive Label where
  /-- `start` is called; the id is the one it will draw -/
  | start (i : RuntimeId)
  | createSecret (i : RuntimeId) (r : Creation)
  | createJob (i : RuntimeId) (r : Except Exn Unit)
  | waitForPodIp (i : RuntimeId) (r : Except Exn Unit)
  | connect (i : RuntimeId) (net : Network)
  /-- the `delete_secret` of a call of `start` returns or raises -/
  | deleted (i : RuntimeId)
  /-- `stop` is called with the handle -/
  | stop (i : RuntimeId)
  | drain (i : RuntimeId) (d : Drain)
  /-- the `delete_secret` of a call of `stop` returns or raises -/
  | stopped (i : RuntimeId)

/-- `_wait_for_close` under `wait_for`. -/
def waitForClose : List (Except Exn Unit) → Except Exn Unit
  | [] => .error .timeoutError
  | .ok () :: recvs => waitForClose recvs
  | .error e :: _ => if e = .transportClosed then .ok () else .error e

/-- The wait with its handler. -/
def awaitClose (recvs : List (Except Exn Unit)) : Except Exn Unit :=
  match waitForClose recvs with
  | .error e => if e = .timeoutError then .ok () else .error e
  | .ok () => .ok ()

/-- `suppress(Exception)`. -/
def suppress (r : Except Exn Unit) : Except Exn Unit :=
  match r with
  | .error e => if e.isException then .ok () else .error e
  | .ok () => .ok ()

/-- What `stop` does with the transport of the handle. -/
def Drain.run (d : Drain) : Except Exn Unit :=
  (suppress d.send).bind fun _ => (awaitClose d.recvs).bind fun _ => suppress d.close

namespace Executor

variable (s : Executor)

/-- A call of `start` goes on to another await, or ends. -/
def goto (i : RuntimeId) (pc : StartPc) : Executor :=
  { s with starts := Function.update s.starts i pc }

/-- A Secret comes into being. -/
def addSecret (i : RuntimeId) : Executor := { s with created := insert i s.created }

/-- `delete_secret` is called. -/
def requestDelete (i : RuntimeId) : Executor := { s with deleted := insert i s.deleted }

/-- `self._inflight[secret_name] = handle`. -/
def register (i : RuntimeId) : Executor := { s with inflight := insert i s.inflight }

/-- A call of `stop` awaits. -/
def await (c : StopCall) : Executor := { s with stops := c :: s.stops }

/-- A call of `stop` leaves this await. -/
def leave (c : StopCall) : Executor := { s with stops := s.stops.erase c }

/-- A handler of `start`, which deletes the Secret if it takes the exception. -/
def handle (i : RuntimeId) (takes : Bool) : Executor :=
  if takes then (s.requestDelete i).goto i .deleteSecret else s.goto i .failed

/-- An awaited call of `start` comes back. -/
def advance (i : RuntimeId) (next : StartPc) : Except Exn Unit → Executor
  | .ok () => s.goto i next
  | .error e => s.handle i e.isException

/-- The start of `start`: the limit is checked, then the id is drawn. -/
def start (maxConcurrentJobs : ℤ) (i : RuntimeId) : Executor :=
  if maxConcurrentJobs ≤ s.inflight.card then s
  else { s with drawn := insert i s.drawn }.goto i .createSecret

/-- `create_secret` comes back; `_build_env` follows. -/
def createSecret (i : RuntimeId) : Creation → Executor
  | .created (.ok ()) => (s.addSecret i).goto i .createJob
  | .created (.error _) => (s.addSecret i).goto i .failed
  | .raised _ onCluster => (if onCluster then s.addSecret i else s).goto i .failed

/-- `TcpTransport.connect` comes back. -/
def connect (i : RuntimeId) (net : Network) : Executor :=
  match net.connect with
  | .ok () => (s.register i).goto i .returned
  | .error e => s.handle i e.isExpected

/-- The end of `stop`. -/
def deleteSecret (i : RuntimeId) : Executor := (s.requestDelete i).await (.deletesSecret i)

/-- The start of `stop`: the handle is taken out of the table. -/
def stop (i : RuntimeId) : Executor :=
  if i ∈ s.inflight then { s with inflight := s.inflight.erase i }.await (.drains i)
  else s.deleteSecret i

/-- The transport is closed, or an exception ends `stop`. -/
def drain (i : RuntimeId) (d : Drain) : Executor :=
  match d.run with
  | .ok () => (s.leave (.drains i)).deleteSecret i
  | .error _ => s.leave (.drains i)

/-- The step of the call that goes on; `none` if it is not there. -/
def step (maxConcurrentJobs : ℤ) (s : Executor) : Label → Option Executor
  | .start i => if i ∈ s.drawn then none else some (s.start maxConcurrentJobs i)
  | .createSecret i r => if s.starts i = .createSecret then some (s.createSecret i r) else none
  | .createJob i r => if s.starts i = .createJob then some (s.advance i .waitForPodIp r) else none
  | .waitForPodIp i r =>
      if s.starts i = .waitForPodIp then some (s.advance i .connect r) else none
  | .connect i net => if s.starts i = .connect then some (s.connect i net) else none
  | .deleted i => if s.starts i = .deleteSecret then some (s.goto i .failed) else none
  | .stop i => if s.starts i = .returned then some (s.stop i) else none
  | .drain i d => if .drains i ∈ s.stops then some (s.drain i d) else none
  | .stopped i =>
      if .deletesSecret i ∈ s.stops then some (s.leave (.deletesSecret i)) else none

/-- The calls of `start` that may still put a handle into the table. -/
def starting : Finset RuntimeId := s.drawn.filter fun i => (s.starts i).starting

/-- No call is executing. -/
def Quiet : Prop := (∀ i, (s.starts i).running = false) ∧ s.stops = []

/-- **What is to hold of a state**: the limit is kept, and no Secret is leaked. -/
structure Kept (maxConcurrentJobs : ℤ) (s : Executor) : Prop where
  limit : s.inflight.card ≤ maxConcurrentJobs
  leakFree : s.Quiet → ∀ i ∈ s.created, i ∈ s.deleted ∨ i ∈ s.inflight

end Executor

/-- The executor with any calls of `start` and `stop` in any order. -/
def executor (maxConcurrentJobs : ℤ) : System Executor Label where
  init s := s = {}
  step := Executor.step maxConcurrentJobs

end GgRelay.K8sJob
