import GgRelay.Lib.System

/-!
The executor that runs each session in a container (`session/executor/docker.py`), with any number of
calls of `start` and `stop` under way at once.

* `Job` is what there is for one runtime id: its container, its socket, the entries of the executor,
  and where its `start` and its `stop` are; `executor` has all of them interleaved;
* `Event.escapes` says when an exception strikes and no handler undoes what the call has done,
  `Job.outlives` when the daemon does not kill a container that runs;
* `container_kept_iff`: when no call is under way, the container and the socket are gone, or a handle
  answers for both, if and only if the first never happened, and where the second did, the container
  has exited since.
-/

namespace GgRelay.Docker

/-- `runtime_id`. -/
abbrev RuntimeId := ℕ

/-- How an awaited call ends. -/
inductive Ended where
  | ok
  /-- with an `Exception` -/
  | raised
  | cancelled
  deriving DecidableEq, Repr

/-- What comes of `UnixSocketServer.listen`. -/
inductive Listened where
  /-- it returns; then the environment, the configuration and the client can be had, or not -/
  | listening (built : Bool)
  /-- it does not, after the socket was bound, or before -/
  | failed (bound : Bool)
  deriving DecidableEq, Repr

/-- What comes of `containers.run`. -/
inductive Ran where
  | started
  /-- an `Exception`, after the container was created, or before -/
  | raised (created : Bool)
  | cancelled (created : Bool)
  deriving DecidableEq, Repr

/-- What comes of `server.accept`. -/
inductive Accepted where
  | connected
  | timeout
  | cancelled
  deriving DecidableEq, Repr

/-- Where a call of `start` is. -/
inductive StartPc where
  | notCalled
  | listen
  | run
  /-- at the `server.close` after `run` has raised -/
  | closeAfterRun
  | accept
  /-- at the `kill` and the `server.close` after the timeout of `accept` -/
  | kill
  | closeAfterKill
  /-- it has returned the handle -/
  | returned
  | failed
  deriving DecidableEq, Repr

/-- Where the call of `stop` is that has taken the entries. -/
inductive StopPc where
  | send
  | wait
  | kill
  | closeTransport
  | closeServer
  deriving DecidableEq, Repr

/-- A container on the daemon. -/
inductive Container where
  | absent
  /-- it was not started -/
  | created
  | running
  /-- it has exited, or is to be killed -/
  | ended
  deriving DecidableEq, Repr

/-- The socket on the host. -/
inductive Socket where
  | absent
  /-- it was not closed to the end -/
  | open
  | closed
  deriving DecidableEq, Repr

/-- What there is for a runtime id. -/
structure Job where
  pc : StartPc := .notCalled
  stopPc : Option StopPc := none
  container : Container := .absent
  server : Socket := .absent
  /-- its entries in `_containers` and `_servers` -/
  inContainers : Bool := false
  inServers : Bool := false
  deriving DecidableEq, Repr

/-- What happens to a job. -/
inductive Event where
  | start
  | listened (r : Listened)
  | ran (r : Ran)
  | accepted (r : Accepted)
  /-- `kill`, `server.close` in a handler of `start` -/
  | killed (r : Ended)
  | closed (r : Ended)
  /-- `stop` is called with the handle -/
  | stop
  | sent (r : Ended)
  | waited (r : Ended)
  | stopKilled (r : Ended)
  | transportClosed (r : Ended)
  | serverClosed (r : Ended)
  /-- the container exits by itself -/
  | exits
  deriving DecidableEq, Repr

/-- An exception strikes, and no handler undoes what the call has done. -/
def Event.escapes : Event → Bool
  | .listened r => r ∈ [.listening false, .failed true]
  | .ran r => r ∈ [.cancelled true, .cancelled false, .raised true]
  | .accepted r => r = .cancelled
  | .killed r | .sent r | .waited r | .stopKilled r | .transportClosed r => r = .cancelled
  | .closed r | .serverClosed r => r ≠ .ok
  | .start | .stop | .exits => false

namespace Job

variable (j : Job)

/-- `start`, from the bound socket on. -/
def listened : Listened → Job
  | .listening true => { j with pc := .run, server := .open, inServers := true }
  | .listening false => { j with pc := .failed, server := .open, inServers := true }
  | .failed true => { j with pc := .failed, server := .open }
  | .failed false => { j with pc := .failed }

/-- `start`, after `containers.run`. -/
def ran : Ran → Job
  | .started => { j with pc := .accept, container := .running, inContainers := true }
  | .raised created =>
      { j with pc := .closeAfterRun, container := if created then .created else .absent }
  | .cancelled created =>
      { j with pc := .failed, container := if created then .created else .absent }

/-- `start`, after `server.accept`. -/
def accepted : Accepted → Job
  | .connected => { j with pc := .returned }
  | .timeout => { j with pc := .kill }
  | .cancelled => { j with pc := .failed }

/-- What `kill` does to the container: a failure is suppressed. -/
def afterKill : Ended → Container
  | .ok => .ended
  | .raised | .cancelled => j.container

/-- `server.close()` in a handler of `start`, and what follows: the entries are dropped. -/
def closed : Ended → Job
  | .ok =>
      { j with pc := .failed, server := .closed, inContainers := false, inServers := false }
  | .raised | .cancelled => { j with pc := .failed }

/-- `stop`: the entries are taken; without them there is nothing to do. -/
def stop : Job :=
  if j.inContainers then { j with stopPc := some .send, inContainers := false, inServers := false }
  else j

/-- `stop` goes on to `pc`, unless it is cancelled. -/
def goesOn (pc : StopPc) : Ended → Job
  | .ok | .raised => { j with stopPc := some pc }
  | .cancelled => { j with stopPc := none }

/-- `stop`, after `container.wait`. -/
def waited : Ended → Job
  | .ok => { j with stopPc := some .closeTransport, container := .ended }
  | .raised => { j with stopPc := some .kill }
  | .cancelled => { j with stopPc := none }

/-- One step of `start`, `stop` or the container. -/
def step : Event → Option Job
  | .start => if j.pc = .notCalled then some { j with pc := .listen } else none
  | .listened r => if j.pc = .listen then some (j.listened r) else none
  | .ran r => if j.pc = .run then some (j.ran r) else none
  | .accepted r => if j.pc = .accept then some (j.accepted r) else none
  | .killed r =>
      if j.pc = .kill then
        some { j with
          pc := if r = .cancelled then .failed else .closeAfterKill, container := j.afterKill r }
      else none
  | .closed r =>
      if j.pc = .closeAfterRun ∨ j.pc = .closeAfterKill then some (j.closed r) else none
  | .stop => if j.pc = .returned then some j.stop else none
  | .sent r => if j.stopPc = some .send then some (j.goesOn .wait r) else none
  | .waited r => if j.stopPc = some .wait then some (j.waited r) else none
  | .stopKilled r =>
      if j.stopPc = some .kill then
        some { j.goesOn .closeTransport r with container := j.afterKill r }
      else none
  | .transportClosed r =>
      if j.stopPc = some .closeTransport then some (j.goesOn .closeServer r) else none
  | .serverClosed r =>
      if j.stopPc = some .closeServer then
        some { j with stopPc := none, server := if r = .ok then .closed else j.server }
      else none
  | .exits => if j.container = .running then some { j with container := .ended } else none

/-- No call is under way. -/
def Quiet : Prop := j.pc ∈ [.notCalled, .returned, .failed] ∧ j.stopPc = none
  deriving Decidable

/-- Whoever has the handle can stop it. -/
def Held : Prop := j.pc = .returned ∧ j.inContainers = true ∧ j.inServers = true

/-- **What is to hold of a job**: what there is on the host and in the executor, `stop` can end. -/
@[mk_iff]
structure Kept : Prop where
  container : j.container = .created ∨ j.container = .running → j.Held
  server : j.server = .open → j.Held
  entries : j.inContainers = true ∨ j.inServers = true → j.Held

/-- The daemon does not kill the container, which runs. -/
def outlives : Event → Bool
  | .killed r | .stopKilled r => r = .raised && j.container = .running
  | _ => false

end Job

/-- A job and its history: whether an exception has struck without a handler to undo what was done,
and whether a `kill` has failed while the container ran. -/
structure Track where
  job : Job := {}
  escaped : Bool := false
  outlived : Bool := false
  deriving DecidableEq, Repr

namespace Track

variable (t : Track)

def step (e : Event) : Option Track :=
  (t.job.step e).map fun j =>
    { job := j, escaped := t.escaped || e.escapes, outlived := t.outlived || t.job.outlives e }

end Track

/-- The executor, its daemon and the history, by runtime id. -/
abbrev State := RuntimeId → Track

/-- **All the calls of `start` and `stop`, interleaved.** -/
def executor : System State (RuntimeId × Event) where
  init s := s = fun _ => {}
  step s l := ((s l.1).step l.2).map fun t => Function.update s l.1 t

namespace Track

/-! ### What holds of every job -/

/-- A container runs on only where a `kill` has failed. -/
def Spent (t : Track) : Prop :=
  t.job.container ≠ .created ∧ (t.job.container = .running → t.outlived = true) ∧
    t.job.inContainers = false ∧ t.job.inServers = false

/-- `stop` has not touched it, and it can. -/
def Fresh (t : Track) : Prop :=
  t.job.container ≠ .created ∧ t.job.server = .open ∧ t.job.inContainers = true ∧
    t.job.inServers = true ∧ t.job.stopPc = none

/-- **What holds of every job**, by where its calls are. -/
def Valid (t : Track) : Prop :=
  match t.job.pc with
  | .notCalled | .listen => t = { job := { pc := t.job.pc } }
  | .run => t = { job := { pc := .run, server := .open, inServers := true } }
  | .closeAfterRun =>
      t.job.stopPc = none ∧ t.job.server = .open ∧ t.job.inContainers = false ∧
        t.job.container = if t.escaped then .created else .absent
  | .accept | .kill => t.Fresh ∧ t.escaped = false ∧ t.outlived = false
  | .closeAfterKill =>
      t.Fresh ∧ t.escaped = false ∧ (t.job.container = .running → t.outlived = true)
  | .failed =>
      t.job.stopPc = none ∧
        if t.escaped then t.job.server = .open ∨ t.job.container = .created
        else t.Spent ∧ t.job.server ≠ .open
  | .returned =>
      match t.job.stopPc with
      | none =>
          if t.escaped then
            t.job.server = .open ∧ t.job.inContainers = false ∧ t.job.inServers = false
          else t.Fresh ∧ t.outlived = false ∨ t.Spent ∧ t.job.server ≠ .open
      | some pc =>
          t.escaped = false ∧ t.job.server = .open ∧ t.job.container ≠ .created ∧
            t.job.inContainers = false ∧ t.job.inServers = false ∧
            (pc ∈ [.closeTransport, .closeServer] → t.job.container = .running → t.outlived = true)

variable {t t' : Track} {e : Event}

/-- **One step keeps it.** -/
lemma Valid.step (hv : t.Valid) (h : t.step e = some t') : t'.Valid := by
  obtain ⟨j, esc, out⟩ := t
  simp only [Track.step, Option.map_eq_some_iff] at h
  obtain ⟨j', hj, rfl⟩ := h
  obtain ⟨pc, stopPc, container, server, ic, is⟩ := j
  cases e with
  | start =>
      simp only [Job.step, Option.ite_none_right_eq_some, Option.some.injEq] at hj
      obtain ⟨rfl, rfl⟩ := hj
      simp_all [Valid, Event.escapes, Job.outlives]
  | listened r =>
      simp only [Job.step, Option.ite_none_right_eq_some, Option.some.injEq] at hj
      obtain ⟨rfl, rfl⟩ := hj
      rcases r with (_ | _) | (_ | _) <;>
        simp_all [Valid, Job.listened, Event.escapes, Job.outlives, Spent]
  | ran r =>
      simp only [Job.step, Option.ite_none_right_eq_some, Option.some.injEq] at hj
      obtain ⟨rfl, rfl⟩ := hj
      rcases r with _ | (_ | _) | (_ | _) <;>
        simp_all [Valid, Job.ran, Event.escapes, Job.outlives, Fresh]
  | accepted r =>
      simp only [Job.step, Option.ite_none_right_eq_some, Option.some.injEq] at hj
      obtain ⟨rfl, rfl⟩ := hj
      cases r <;> simp_all [Valid, Job.accepted, Event.escapes, Job.outlives, Fresh]
  | killed r =>
      simp only [Job.step, Option.ite_none_right_eq_some, Option.some.injEq] at hj
      obtain ⟨rfl, rfl⟩ := hj
      cases r <;> simp_all [Valid, Job.afterKill, Event.escapes, Job.outlives, Fresh]
  | closed r =>
      simp only [Job.step, Option.ite_none_right_eq_some, Option.some.injEq] at hj
      obtain ⟨rfl | rfl, rfl⟩ := hj
      · cases r <;> cases esc <;> simp_all [Valid, Job.closed, Event.escapes, Job.outlives, Spent]
      · cases r <;> simp_all [Valid, Job.closed, Event.escapes, Job.outlives, Spent, Fresh]
  | stop =>
      simp only [Job.step, Option.ite_none_right_eq_some, Option.some.injEq] at hj
      obtain ⟨rfl, rfl⟩ := hj
      cases ic <;> cases stopPc <;> cases esc <;>
        simp_all [Valid, Job.stop, Event.escapes, Job.outlives, Fresh, Spent]
  | sent r =>
      simp only [Job.step, Option.ite_none_right_eq_some, Option.some.injEq] at hj
      obtain ⟨rfl, rfl⟩ := hj
      cases r <;> cases pc <;> simp_all [Valid, Job.goesOn, Event.escapes, Job.outlives, Fresh]
  | waited r =>
      simp only [Job.step, Option.ite_none_right_eq_some, Option.some.injEq] at hj
      obtain ⟨rfl, rfl⟩ := hj
      cases r <;> cases pc <;> simp_all [Valid, Job.waited, Event.escapes, Job.outlives, Fresh]
  | stopKilled r =>
      simp only [Job.step, Option.ite_none_right_eq_some, Option.some.injEq] at hj
      obtain ⟨rfl, rfl⟩ := hj
      cases r <;> cases pc <;>
        simp_all [Valid, Job.goesOn, Job.afterKill, Event.escapes, Job.outlives, Fresh]
  | transportClosed r =>
      simp only [Job.step, Option.ite_none_right_eq_some, Option.some.injEq] at hj
      obtain ⟨rfl, rfl⟩ := hj
      cases r <;> cases pc <;> simp_all [Valid, Job.goesOn, Event.escapes, Job.outlives, Fresh]
  | serverClosed r =>
      simp only [Job.step, Option.ite_none_right_eq_some, Option.some.injEq] at hj
      obtain ⟨rfl, rfl⟩ := hj
      cases r <;> cases pc <;> simp_all [Valid, Event.escapes, Job.outlives, Fresh, Spent]
  | exits =>
      simp only [Job.step, Option.ite_none_right_eq_some, Option.some.injEq] at hj
      obtain ⟨rfl, rfl⟩ := hj
      cases pc <;> cases stopPc <;> cases esc <;>
        simp_all [Valid, Event.escapes, Job.outlives, Fresh, Spent]
      rcases hv with hfresh | ⟨⟨-, hentries⟩, hopen⟩
      · exact .inl hfresh
      · exact .inr ⟨hentries, hopen⟩

/-- **A job at rest is kept** if and only if no exception has escaped, and a container that outlived
its `kill` has exited. -/
lemma Valid.kept_iff (hv : t.Valid) (hquiet : t.job.Quiet) :
    t.job.Kept ↔ t.escaped = false ∧ (t.outlived = true → t.job.container ≠ .running) := by
  obtain ⟨⟨pc, stopPc, container, server, ic, is⟩, esc, out⟩ := t
  obtain ⟨hpc, rfl⟩ := hquiet
  simp only [Job.kept_iff, Job.Held]
  cases pc <;> cases esc <;> cases out <;> simp_all [Valid, Fresh, Spent] <;> grind

end Track

variable {s : State}

/-- **What holds of every job** in every run. -/
theorem valid (h : executor.Reachable s) (i : RuntimeId) : (s i).Valid := by
  refine h.invariant (I := fun s => ∀ i, (s i).Valid) (fun s hinit i => ?_)
    (fun s l t hv _ hs i => ?_) i
  · obtain rfl : s = _ := hinit
    simp [Track.Valid]
  · simp only [executor, Option.map_eq_some_iff] at hs
    obtain ⟨t, ht, rfl⟩ := hs
    rcases eq_or_ne i l.1 with rfl | hi
    · simpa using (hv l.1).step ht
    · simpa [hi] using hv i

/-- **What is left behind.** At any moment of any run, where no call is under way for a runtime id, its
container, its socket and its entries are gone, or `stop` can end them, exactly if no exception has
struck without a handler to undo what was done, and the container has exited where `kill` had failed. -/
theorem container_kept_iff (h : executor.Reachable s) (i : RuntimeId) (hquiet : (s i).job.Quiet) :
    (s i).job.Kept ↔
      (s i).escaped = false ∧ ((s i).outlived = true → (s i).job.container ≠ .running) :=
  (valid h i).kept_iff hquiet

/-- One session is cancelled while its container connects, and another starts and is stopped. -/
def twoSessions : List (RuntimeId × Event) :=
  [(0, .start), (1, .start), (0, .listened (.listening true)), (1, .listened (.listening true)),
    (1, .ran .started), (0, .ran .started), (0, .accepted .cancelled), (1, .accepted .connected),
    (1, .stop), (1, .sent .raised), (1, .waited .raised), (1, .stopKilled .ok),
    (1, .transportClosed .raised), (1, .serverClosed .ok)]

/-- The container of the first runs on, its socket stays, and nobody has a handle. -/
theorem cancelled_start_stays :
    ∃ s, executor.Reachable s ∧ ¬ (s 0).job.Kept ∧ (s 1).job.Kept := by
  obtain ⟨s, hrun, hescaped, hquiet, hstopped⟩ : ∃ s, executor.run (fun _ => {}) twoSessions = some s ∧
      (s 0).escaped = true ∧ ((s 0).job.Quiet ∧ (s 1).job.Quiet) ∧
        (s 1).escaped = false ∧ (s 1).outlived = false := ⟨_, rfl, by decide⟩
  have hr : executor.Reachable s := .of_run (.init rfl) hrun
  refine ⟨s, hr, ?_, ?_⟩
  · rw [container_kept_iff hr 0 hquiet.1]
    simp [hescaped]
  · rw [container_kept_iff hr 1 hquiet.2]
    simp [hstopped]

end GgRelay.Docker
