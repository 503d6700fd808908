import GgRelay.Lib.Inevitable

/-!
The in-memory transport of an in-process session (`session/transport/inmemory.py`) and the stop of
its executor (`session/executor/inprocess.py`).

* `Channel` is an `asyncio.Queue` with the calls that wait on it, `Pair` the two transports with the
  task of the runner and the call of `stop`; a coroutine runs until it has to wait;
* `transport` is the transition system, `Quiet` its steps once nobody calls any more.
-/

namespace GgRelay.InMemory

/-- The two ends of the transport. -/
inductive Side where
  | host
  | runner
  deriving DecidableEq, Repr

/-- `_paired`. -/
def Side.peer : Side → Side
  | .host => .runner
  | .runner => .host

@[simp] lemma Side.peer_peer (X : Side) : X.peer.peer = X := by cases X <;> rfl

/-- What a queue holds. -/
inductive Item (Frame : Type) where
  | frame (f : Frame)
  | closeSentinel
  deriving DecidableEq

/-- `item is _CLOSE_SENTINEL`. -/
def Item.isSentinel {Frame : Type} : Item Frame → Bool
  | frame _ => false
  | closeSentinel => true

/-- An `asyncio.Queue`. -/
structure Channel (Frame : Type) where
  maxsize : ℕ
  items : List (Item Frame) := []
  /-- the frames of the calls of `send` that wait, the oldest first -/
  putters : List Frame := []
  /-- the number of calls of `recv` that wait -/
  getters : ℕ := 0

/-- `full()`. -/
def Channel.full {Frame : Type} (q : Channel Frame) : Bool :=
  q.maxsize ≠ 0 ∧ q.maxsize ≤ q.items.length

/-- The task of the runner, `runner_wrapper`. -/
inductive RunnerTask where
  | body
  /-- it is cancelled, and is about to close its side -/
  | cancelled
  /-- in `close`: the put into the outbound queue of this side waits -/
  | closing (X : Side)
  | finished
  deriving DecidableEq, Repr

/-- The call of `InProcessExecutor.stop`. -/
inductive StopCall where
  | notCalled
  | called
  | awaitsTask
  /-- in `handle.transport.close()`: the put into the outbound queue of this side waits -/
  | closing (X : Side)
  | returned
  deriving DecidableEq, Repr

/-- Who is closing. -/
inductive Closer where
  | task
  | stop

/-- The state of the session's transports. -/
structure Pair (Frame : Type) where
  /-- the outbound queues -/
  out : Side → Channel Frame
  /-- `_alive` -/
  alive : Side → Bool := fun _ => true
  runner : RunnerTask := .body
  stop : StopCall := .notCalled

/-- `make_pair`. -/
def makePair (Frame : Type) (maxsize : ℕ) : Pair Frame where
  out _ := { maxsize }

namespace Pair

variable {Frame : Type} (s : Pair Frame)

/-- The state with another outbound queue of one side. -/
def setOut (X : Side) (q : Channel Frame) : Pair Frame :=
  { s with out := Function.update s.out X q }

/-- `_alive = False`. -/
def kill (X : Side) : Pair Frame := { s with alive := Function.update s.alive X false }

/-- `put_nowait`. -/
def push (X : Side) (x : Item Frame) : Pair Frame :=
  s.setOut X { s.out X with items := (s.out X).items ++ [x] }

/-- The put of a closer waits. -/
def waits (X : Side) : Closer → Pair Frame
  | .task => { s with runner := .closing X }
  | .stop => { s with stop := .closing X }

/-- The `close` of a closer returns. -/
def returns : Closer → Pair Frame
  | .task => { s with runner := .finished }
  | .stop => { s with stop := .returned }

/-- `close`, after its put: the peer is closed as well, and finds this side closed. -/
def afterPut (X : Side) (who : Closer) : Pair Frame :=
  if s.alive X.peer then
    if (s.out X.peer).full then (s.kill X.peer).waits X.peer who
    else ((s.kill X.peer).push X.peer .closeSentinel).returns who
  else s.returns who

/-- `close`. -/
def close (X : Side) (who : Closer) : Pair Frame :=
  if !s.alive X then s.returns who
  else if (s.out X).full then (s.kill X).waits X who
  else ((s.kill X).push X .closeSentinel).afterPut X who

/-- A put that waits goes on, if there is room. -/
def resumePut (X : Side) (who : Closer) : Option (Pair Frame) :=
  if (s.out X).full then none else some ((s.push X .closeSentinel).afterPut X who)

/-- `recv` of the side `Y` with the item `x` at the head of its inbound queue. -/
def receive (Y : Side) (x : Item Frame) (rest : List (Item Frame)) : Pair Frame :=
  let s := s.setOut Y.peer { s.out Y.peer with items := rest }
  match x with
  | .frame _ => s
  | .closeSentinel => s.kill Y

end Pair

/-- What happens next. -/
inductive Label (Frame : Type) where
  /-- a call of `send` -/
  | send (X : Side) (f : Frame)
  /-- a call of `recv` -/
  | recv (Y : Side)
  /-- a call that waits is cancelled -/
  | dropSend (X : Side) (i : ℕ)
  | dropRecv (Y : Side)
  /-- a call that waits goes on -/
  | enter (X : Side)
  | take (Y : Side)
  /-- the body of the runner returns or raises -/
  | runnerEnds
  | callStop
  /-- the task goes on, or the call of `stop` does -/
  | task
  | stop

section Step

variable {Frame : Type}

/-- One step. -/
def step (s : Pair Frame) : Label Frame → Option (Pair Frame)
  | .send X f =>
      if s.alive X then
        if (s.out X).full then
          some (s.setOut X { s.out X with putters := (s.out X).putters ++ [f] })
        else some (s.push X (.frame f))
      else none
  | .recv Y =>
      match (s.out Y.peer).items with
      | [] => some (s.setOut Y.peer { s.out Y.peer with getters := (s.out Y.peer).getters + 1 })
      | x :: rest => some (s.receive Y x rest)
  | .dropSend X i =>
      if i < (s.out X).putters.length then
        some (s.setOut X { s.out X with putters := (s.out X).putters.eraseIdx i })
      else none
  | .dropRecv Y =>
      if 0 < (s.out Y.peer).getters then
        some (s.setOut Y.peer { s.out Y.peer with getters := (s.out Y.peer).getters - 1 })
      else none
  | .enter X =>
      match (s.out X).putters, (s.out X).full with
      | f :: fs, false =>
          some (s.setOut X { s.out X with items := (s.out X).items ++ [.frame f], putters := fs })
      | _, _ => none
  | .take Y =>
      match (s.out Y.peer).items, (s.out Y.peer).getters with
      | x :: rest, n + 1 =>
          some ((s.setOut Y.peer { s.out Y.peer with getters := n }).receive Y x rest)
      | _, _ => none
  | .runnerEnds => if s.runner = .body then some (s.close .runner .task) else none
  | .callStop => if s.stop = .notCalled then some { s with stop := .called } else none
  | .task =>
      match s.runner with
      | .cancelled => some (s.close .runner .task)
      | .closing X => s.resumePut X .task
      | _ => none
  | .stop =>
      match s.stop with
      | .called =>
          match s.runner with
          | .finished => some (s.close .host .stop)
          | .body => some { s with runner := .cancelled, stop := .awaitsTask }
          -- the put in its `close` is cancelled
          | _ => some { s with runner := .finished, stop := .awaitsTask }
      | .awaitsTask => if s.runner = .finished then some (s.close .host .stop) else none
      | .closing X => s.resumePut X .stop
      | _ => none

/-- The transports of a session. -/
def transport (Frame : Type) (maxsize : ℕ) : System (Pair Frame) (Label Frame) where
  init s := s = makePair Frame maxsize
  step := step

/-- Nobody calls `send` or `recv` any more: the calls that wait go on, and the stop. -/
def Quiet : Label Frame → Prop
  | .enter _ | .take _ | .task | .stop => True
  | _ => False

end Step

/-! ### What a step reads and writes -/

section Fields

variable {Frame : Type} {s : Pair Frame} {X Y : Side} {q : Channel Frame} {x : Item Frame}
  {who : Closer}

namespace Pair

@[simp] lemma setOut_out : (s.setOut X q).out Y = if Y = X then q else s.out Y := by
  by_cases h : Y = X
  · subst h
    simp [setOut]
  · simp [setOut, h]

@[simp] lemma setOut_alive : (s.setOut X q).alive = s.alive := rfl

@[simp] lemma setOut_runner : (s.setOut X q).runner = s.runner := rfl

@[simp] lemma setOut_stop : (s.setOut X q).stop = s.stop := rfl

@[simp] lemma kill_out : (s.kill X).out = s.out := rfl

@[simp] lemma kill_alive : (s.kill X).alive Y = (s.alive Y && decide (Y ≠ X)) := by
  by_cases h : Y = X
  · subst h
    simp [kill]
  · simp [kill, h]

@[simp] lemma kill_runner : (s.kill X).runner = s.runner := rfl

@[simp] lemma kill_stop : (s.kill X).stop = s.stop := rfl

@[simp] lemma push_out : (s.push X x).out Y
    = if Y = X then { s.out X with items := (s.out X).items ++ [x] } else s.out Y := setOut_out

@[simp] lemma push_alive : (s.push X x).alive = s.alive := rfl

@[simp] lemma push_runner : (s.push X x).runner = s.runner := rfl

@[simp] lemma push_stop : (s.push X x).stop = s.stop := rfl

@[simp] lemma waits_out : (s.waits X who).out = s.out := by cases who <;> rfl

@[simp] lemma waits_alive : (s.waits X who).alive = s.alive := by cases who <;> rfl

@[simp] lemma returns_out : (s.returns who).out = s.out := by cases who <;> rfl

@[simp] lemma returns_alive : (s.returns who).alive = s.alive := by cases who <;> rfl

end Pair

end Fields

end GgRelay.InMemory
