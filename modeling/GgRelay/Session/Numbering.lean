import GgRelay.Session.Drive
import GgRelay.Session.Control.Link
import GgRelay.Lib.System

/-!
The sequence numbers of a session's frames, from the counters that give them out to the rows they
are stored under.

Four counters number the frames of one session: that of the runner core, that of the hook relay,
that of the acks and, on the host, that of the bridge.  None of them knows the others.

* `Runner` is the runner with its counters, one label for each stretch of `_make_runner_core`,
  `_execute_pre_run_cmds`, `HookRelay._emit` and `WireCoordinatorProxy.send_ack` between two
  `await`s;
* `Session` is a session with the frames in flight, the bridge and the pipeline;
* `NumberGuard` is the condition: a counter gives out no number that another has given out;
* `frames_stored` is the result about runs, `ack_collides` a run in which an ack takes the number
  of the first frame of the SDK.
-/

namespace GgRelay.Frames

/-- The counters that number frames. -/
inductive Counter where
  | runner
  | hooks
  | acks
  | bridge
  deriving DecidableEq, Repr

instance : Fintype Counter where
  elems := {.runner, .hooks, .acks, .bridge}
  complete c := by cases c <;> decide

/-! ### The runner -/

/-- Where the runner is. -/
inductive RunnerPc where
  | starting
  /-- between two sends of `_execute_pre_run_cmds` -/
  | preRun
  /-- in a send of `_execute_pre_run_cmds`: the counter moves on when it returns -/
  | preRunSending (fatal : Bool)
  /-- in the dispatch loop, with tool results of one message still to be sent -/
  | dispatch (results : ℕ)
  /-- past the loop, while the SDK is still connected -/
  | closing
  | over
  deriving DecidableEq, Repr

/-- The first number of a `HookRelay`. -/
def hookSeqBase : ℕ := 900000

/-- The counters on the side of the runner. -/
structure Runner where
  pc : RunnerPc := .starting
  seq : ℕ := 0
  hookSeq : ℕ := hookSeqBase
  ackSeq : ℕ := 0
  pongSeq : ℕ := 0
  /-- history: the numbers that `seq` has given to frames -/
  sent : List ℕ := []

/-- What the runner does between two `await`s. -/
inductive RunnerLabel where
  /-- there is an install report, or none -/
  | install (profileId : Option String) (modules : List String) (durationMs : ℤ)
      (installRoot : String)
  | noInstall
  /-- a piece of the output of the pre-run commands, or the notice that it is cut off -/
  | preRunChunk (text sessionId : String)
  /-- a command fails to start or exits with an error -/
  | preRunError (code message traceback : String)
  /-- the send returns -/
  | preRunSent
  /-- the time for the commands is over -/
  | preRunTimeout
  /-- the commands are done: the SDK is connected -/
  | connect
  /-- a message that becomes one chunk -/
  | chunk (data : Obj)
  /-- a message that becomes tool results -/
  | results (count : ℕ)
  | toolResult (reqId : String) (ok : Bool) (result : Obj)
  /-- a callback needs a decision -/
  | toolRequest (reqId tool : String) (args : Obj)
  /-- a result after a synthetic message: it is no completion -/
  | falseResult
  | result (tokens : Obj) (costUsd : String)
  /-- an exception leaves the loop -/
  | crash (code message traceback : String)
  /-- the runner is cancelled, or has disconnected -/
  | stop
  | hook (event : HookEvent) (toolName toolUseId parentToolUseId sdkSessionId : Option String)
      (inputHash : String) (inputRedacted : Obj)
  | ack (op : ControlOp) (reqId : String) (ok : Bool) (error : Option String)

/-- A frame that gets its number. -/
structure Made where
  counter : Counter
  seq : ℕ
  payload : Payload

namespace Runner

/-- The SDK is connected: hooks, callbacks and control messages are served. -/
def connected (r : Runner) : Bool :=
  match r.pc with
  | .dispatch _ | .closing => true
  | _ => false

/-- `seq += n` with a frame under the new number. -/
def count (n : ℕ) (pc : RunnerPc) (payload : Payload) (r : Runner) : Runner × Option Made :=
  ({ r with pc := pc, seq := r.seq + n, sent := r.sent ++ [r.seq + n] },
    some ⟨.runner, r.seq + n, payload⟩)

/-- A stretch of the runner, with the frame it sends. -/
def step (backend : Backend) (r : Runner) : RunnerLabel → Option (Runner × Option Made)
  | .install profileId modules durationMs installRoot =>
      -- the wire runner never gets a report
      if r.pc = .starting ∧ backend = .inprocess then
        some ({ r with pc := .preRun, seq := r.seq + 1, sent := r.sent ++ [r.seq] },
          some ⟨.runner, r.seq, .installDone profileId modules durationMs installRoot⟩)
      else none
  | .noInstall => if r.pc = .starting then some ({ r with pc := .preRun }, none) else none
  | .preRunChunk text sessionId =>
      if r.pc = .preRun then
        some (r.count 0 (.preRunSending false)
          (.msgChunk [("text", .str text), ("stream", .str "pre_run"),
            ("session_id", .str sessionId)]))
      else none
  | .preRunError code message traceback =>
      if r.pc = .preRun then
        some (r.count 0 (.preRunSending true) (.error code message (some traceback)))
      else none
  | .preRunSent =>
      match r.pc with
      | .preRunSending fatal =>
          some ({ r with pc := if fatal then .over else .preRun, seq := r.seq + 1 }, none)
      | _ => none
  | .preRunTimeout =>
      match r.pc with
      | .preRun | .preRunSending _ =>
          some (r.count 0 .over
            (.error "pre_run_timeout" "pre_run_cmds exceeded time budget" none))
      | _ => none
  | .connect => if r.pc = .preRun then some ({ r with pc := .dispatch 0 }, none) else none
  | .chunk data =>
      if r.pc = .dispatch 0 then some (r.count 1 (.dispatch 0) (.msgChunk data)) else none
  | .results n =>
      if r.pc = .dispatch 0 ∧ 0 < n then
        some ({ r with pc := .dispatch n, seq := r.seq + 1 }, none)
      else none
  | .toolResult reqId ok result =>
      match r.pc with
      | .dispatch (n + 1) =>
          some (r.count 1 (.dispatch n) (.toolResult reqId ok (some result) none))
      | _ => none
  | .toolRequest reqId tool args =>
      if r.connected then some (r.count 1 r.pc (.toolRequest reqId tool args)) else none
  | .falseResult =>
      if r.pc = .dispatch 0 then some ({ r with seq := r.seq + 1 }, none) else none
  | .result tokens costUsd =>
      if r.pc = .dispatch 0 then
        some (r.count 2 .closing (.sessionEnd "completed" (some tokens) (some costUsd)))
      else none
  | .crash code message traceback =>
      match r.pc with
      | .dispatch _ => some (r.count 1 .closing (.error code message (some traceback)))
      | _ => none
  | .stop => some ({ r with pc := .over }, none)
  | .hook event toolName toolUseId parentToolUseId sdkSessionId inputHash inputRedacted =>
      if r.connected then
        some ({ r with hookSeq := r.hookSeq + 1 },
          some ⟨.hooks, r.hookSeq, .hook event toolName toolUseId parentToolUseId sdkSessionId
            (some inputHash) inputRedacted⟩)
      else none
  | .ack op reqId ok err =>
      -- in process an ack is no frame
      if r.connected ∧ backend = .wire then
        some ({ r with ackSeq := r.ackSeq + 1 },
          some ⟨.acks, r.ackSeq + 1,
            match op with
            | .pause => .pauseAck reqId ok err
            | .resume => .resumeAck reqId ok err⟩)
      else none

/-- The counter that a stretch takes a number from, and the number. -/
def number (r : Runner) : RunnerLabel → Option (Counter × ℕ)
  | .install .. | .preRunChunk .. | .preRunError .. | .preRunTimeout => some (.runner, r.seq)
  | .chunk _ | .toolResult .. | .toolRequest .. | .crash .. => some (.runner, r.seq + 1)
  | .result .. => some (.runner, r.seq + 2)
  | .hook .. => some (.hooks, r.hookSeq)
  | .ack .. => some (.acks, r.ackSeq + 1)
  | .noInstall | .preRunSent | .connect | .results _ | .falseResult | .stop => none

/-- The counter has given out the number. -/
def Gives (r : Runner) : Counter → ℕ → Prop
  | .runner, n => n ∈ r.sent
  | .hooks, n => hookSeqBase ≤ n ∧ n < r.hookSeq
  | .acks, n => 1 ≤ n ∧ n ≤ r.ackSeq
  | .bridge, _ => False

/-- What the counter of the runner core has given out, by where the runner is. -/
def Bounded (r : Runner) : Prop :=
  match r.pc with
  | .starting | .preRun => ∀ n ∈ r.sent, n < r.seq
  | _ => ∀ n ∈ r.sent, n ≤ r.seq

end Runner

/-! ### The session -/

/-- What the host is doing with the frames. -/
inductive HostPc where
  | draining
  /-- `_persist_frames`, with the frames still to come -/
  | handing (rest : List Obj)
  | done

/-- A session, from its runner to its rows. -/
structure Session where
  runner : Runner := {}
  /-- the frames on their way to the host -/
  flight : List Obj := []
  bridge : WireBridge := {}
  host : HostPc := .draining
  sink : Sink := {}
  /-- history: the frames given to `_persist_frame` -/
  handed : List Obj := []
  /-- history: the number of the heartbeat's error frame -/
  timeout : Option ℕ := none

/-- A step of a session. -/
inductive Label where
  | runner (now : String) (l : RunnerLabel)
  | pong (now : String)
  /-- the frame is lost: its send is cancelled, or the transport breaks -/
  | lose (i : ℕ)
  /-- the host receives a frame; a sender that had to wait can be overtaken -/
  | recv (i : ℕ)
  | close
  | beat (now : String) (alive : Bool)
  | control
  | persist
  /-- the drive of the session is cancelled -/
  | abort

namespace Session

/-- The heartbeat loop gives up at its next iteration. -/
def giveUp (s : Session) : Prop :=
  s.bridge.beating = true ∧ missesBeforeUnhealthy ≤ s.bridge.heartbeatMisses

instance (s : Session) : Decidable s.giveUp := inferInstanceAs (Decidable (_ ∧ _))

variable (E : RedactionEngine) (B : Builtins) (sid : String) (backend : Backend)

/-- A frame is given to `_persist_frame`; `host` says what comes after it. -/
def hand (frame : Obj) (host : Option PyError → HostPc) (s : Session) : Session :=
  let p := persistFrame E B sid frame s.sink
  { s with sink := p.1, handed := s.handed ++ [frame], host := host p.2 }

/-- The host receives a frame. -/
def recv (frame : Obj) (s : Session) : Session :=
  match backend with
  | .inprocess =>
      s.hand E B sid frame fun e =>
        if e.isSome || hasType "session.end" frame then .done else .draining
  | .wire =>
      let p := s.bridge.recv B frame
      { s with
        bridge := p.1
        host :=
          if p.2.isSome || hasType "session.end" frame then .handing p.1.frames else .draining }

/-- A step of a session. -/
def step (s : Session) : Label → Option Session
  | .runner now l =>
      (s.runner.step backend l).map fun p =>
        { s with
          runner := p.1
          flight := s.flight ++
            (p.2.map fun made => (Frame.mk made.seq now made.payload).dict).toList }
  | .pong now =>
      if backend = .wire ∧ s.runner.pc ≠ .over then
        some { s with
          runner := { s.runner with pongSeq := s.runner.pongSeq + 1 }
          flight := s.flight ++ [(Frame.mk (s.runner.pongSeq + 1) now .pong).dict] }
      else none
  | .lose i =>
      if i < s.flight.length then some { s with flight := s.flight.eraseIdx i } else none
  | .recv i =>
      match s.host, s.flight[i]? with
      | .draining, some frame =>
          some ({ s with flight := s.flight.eraseIdx i }.recv E B sid backend frame)
      | _, _ => none
  | .close =>
      match s.host, backend with
      | .draining, .inprocess => some { s with host := .done }
      | .draining, .wire => some { s with host := .handing s.bridge.frames }
      | _, _ => none
  | .beat now alive =>
      match s.host, backend with
      | .draining, .wire => some { s with
          bridge := s.bridge.beat now alive
          timeout := if s.giveUp then some (s.bridge.seq + 1) else s.timeout }
      | _, _ => none
  | .control =>
      match s.host, backend with
      | .draining, .wire => some { s with bridge := s.bridge.nextSeq }
      | _, _ => none
  | .persist =>
      match s.host with
      | .handing (frame :: rest) =>
          some (s.hand E B sid frame fun e => if e.isSome then .done else .handing rest)
      | _ => none
  | .abort => some { s with host := .done }

end Session

/-- The sessions of a backend. -/
def sessionSystem (E : RedactionEngine) (B : Builtins) (sid : String) (backend : Backend) :
    System Session Label where
  init s := ∃ m, s = { sink := { metrics := m } }
  step s l := s.step E B sid backend l

/-! ### The condition -/

namespace Session

/-- The counter has given out the number. -/
def Gives (s : Session) : Counter → ℕ → Prop
  | .bridge, n => s.timeout = some n
  | c, n => s.runner.Gives c n

/-- The counter that a step takes a number from, and the number. -/
def number (s : Session) : Label → Option (Counter × ℕ)
  | .runner _ l => s.runner.number l
  | .beat _ _ => if s.giveUp then some (.bridge, s.bridge.seq + 1) else none
  | _ => none

/-- **What is asked**: all frames that were handed over carry different numbers and all of them
are stored. -/
structure Stored (s : Session) : Prop where
  nodup : (s.handed.map fun frame => get frame "seq").Nodup
  rows : s.sink.frames.map FrameRow.origin = s.handed

end Session

/-- The time for the pre-run commands is over in the middle of a send. -/
def Session.cutsSend (s : Session) : Label → Bool
  | .runner _ .preRunTimeout =>
      match s.runner.pc with
      | .preRunSending _ => true
      | _ => false
  | _ => false

/-- The step gives out no number that another counter has given out, the pre-run commands do not
run out of time in the middle of a send, and the redactor leaves the numbers alone. -/
structure NumberGuard (E : RedactionEngine) (s : Session) (l : Label) : Prop where
  apart : ∀ p ∈ s.number l, ∀ c, c ≠ p.1 → ¬s.Gives c p.2
  whole : s.cutsSend l = false
  kept : E.sensitive "seq" = false

instance (s : Session) (c : Counter) (n : ℕ) : Decidable (s.Gives c n) :=
  match c with
  | .runner => inferInstanceAs (Decidable (n ∈ s.runner.sent))
  | .hooks => inferInstanceAs (Decidable (hookSeqBase ≤ n ∧ n < s.runner.hookSeq))
  | .acks => inferInstanceAs (Decidable (1 ≤ n ∧ n ≤ s.runner.ackSeq))
  | .bridge => inferInstanceAs (Decidable (s.timeout = some n))

instance (E : RedactionEngine) (s : Session) (l : Label) : Decidable (NumberGuard E s l) :=
  decidable_of_iff ((∀ p ∈ s.number l, ∀ c, c ≠ p.1 → ¬s.Gives c p.2) ∧ s.cutsSend l = false ∧
    E.sensitive "seq" = false) ⟨fun h => ⟨h.1, h.2.1, h.2.2⟩, fun h => ⟨h.1, h.2, h.3⟩⟩

/-! ### What a step of the runner can do -/

namespace Runner

variable {backend : Backend} {r r' : Runner} {l : RunnerLabel} {made : Option Made}

/-- The counters of the runner only go up, and what they give is new to them. -/
structure StepFacts (r r' : Runner) (l : RunnerLabel) (made : Option Made) : Prop where
  bounded : r'.Bounded
  hooks : hookSeqBase ≤ r'.hookSeq
  gives : ∀ c n, r.Gives c n → r'.Gives c n
  number : ∀ m, made = some m → r.number l = some (m.counter, m.seq)
  given : ∀ m, made = some m → r'.Gives m.counter m.seq
  fresh : ∀ m, made = some m → ¬r.Gives m.counter m.seq
  kind : ∀ m, made = some m → m.payload.type ≠ "pong"

lemma Bounded.le (hb : r.Bounded) : ∀ n ∈ r.sent, n ≤ r.seq := by
  intro n hn
  rw [Bounded] at hb
  split at hb
  · exact (hb n hn).le
  · exact (hb n hn).le
  · exact hb n hn

lemma ne_of_connected (h : r.connected = true) : r.pc ≠ .starting ∧ r.pc ≠ .preRun := by
  rw [connected] at h
  constructor <;> rintro hpc <;> rw [hpc] at h <;> simp at h

/-- A stretch that gives the number `seq + n`. -/
lemma stepFacts_count {n : ℕ} {pc : RunnerPc} {payload : Payload} (hh : hookSeqBase ≤ r.hookSeq)
    (hnumber : r.number l = some (.runner, r.seq + n)) (hfresh : r.seq + n ∉ r.sent)
    (hb : ∀ m ∈ r.sent, m ≤ r.seq + n) (hpc : pc ≠ .starting ∧ pc ≠ .preRun)
    (hkind : payload.type ≠ "pong") :
    StepFacts r (r.count n pc payload).1 l (r.count n pc payload).2 where
  bounded := by
    have hle : ∀ m ∈ r.sent ++ [r.seq + n], m ≤ r.seq + n := by
      intro m hm
      rcases List.mem_append.mp hm with hm | hm
      · exact hb m hm
      · exact (List.mem_singleton.mp hm).le
    cases pc <;> first | exact hle | simp at hpc
  hooks := hh
  gives c m h := by
    cases c with
    | runner => exact List.mem_append_left _ h
    | _ => exact h
  number m hm := by
    cases hm
    exact hnumber
  given m hm := by
    cases hm
    exact List.mem_append_right _ (List.mem_singleton_self _)
  fresh m hm := by
    cases hm
    exact hfresh
  kind m hm := by
    cases hm
    exact hkind

/-- A stretch that sends nothing. -/
lemma stepFacts_silent {pc : RunnerPc} {seq : ℕ} (hh : hookSeqBase ≤ r.hookSeq)
    (hb : ({ r with pc := pc, seq := seq } : Runner).Bounded) :
    StepFacts r { r with pc := pc, seq := seq } l none where
  bounded := hb
  hooks := hh
  gives c n h := by cases c <;> exact h
  number m hm := by simp at hm
  given m hm := by simp at hm
  fresh m hm := by simp at hm
  kind m hm := by simp at hm

lemma stepFacts (h : r.step backend l = some (r', made)) (hb : r.Bounded)
    (hh : hookSeqBase ≤ r.hookSeq)
    (hsent : ∀ fatal, l = .preRunTimeout → r.pc ≠ .preRunSending fatal) :
    StepFacts r r' l made := by
  cases l with
  | install =>
      rw [step] at h
      split at h
      · rename_i hpc
        cases h
        rw [Bounded, hpc.1] at hb
        refine ⟨?_, hh, ?_, ?_, ?_, ?_, ?_⟩
        · intro n hn
          rcases List.mem_append.mp hn with hn | hn
          · exact (hb n hn).trans (Nat.lt_succ_self _)
          · exact Nat.lt_succ_of_le (List.mem_singleton.mp hn).le
        · intro c n hn
          cases c with
          | runner => exact List.mem_append_left _ hn
          | _ => exact hn
        · rintro m ⟨⟩
          rfl
        · rintro m ⟨⟩
          exact List.mem_append_right _ (List.mem_singleton_self _)
        · rintro m ⟨⟩ hmem
          exact lt_irrefl _ (hb _ hmem)
        · rintro m ⟨⟩
          simp [Payload.type]
      · simp at h
  | noInstall =>
      rw [step] at h
      split at h
      · rename_i hpc
        cases h
        refine stepFacts_silent hh ?_
        rw [Bounded, hpc] at hb
        exact hb
      · simp at h
  | preRunChunk | preRunError =>
      rw [step] at h
      split at h
      · rename_i hpc
        cases h
        rw [Bounded, hpc] at hb
        exact stepFacts_count hh rfl (fun hmem => lt_irrefl _ (hb _ hmem))
          (fun m hm => (hb m hm).le) (by simp) (by simp [Payload.type])
      · simp at h
  | preRunSent =>
      rw [step] at h
      split at h
      · rename_i fatal hpc
        cases h
        rw [Bounded, hpc] at hb
        refine stepFacts_silent hh ?_
        cases fatal with
        | true => exact fun n hn => (hb n hn).trans (Nat.le_succ _)
        | false => exact fun n hn => Nat.lt_succ_of_le (hb n hn)
      · simp at h
  | preRunTimeout =>
      rw [step] at h
      split at h
      · rename_i hpc
        cases h
        rw [Bounded, hpc] at hb
        exact stepFacts_count hh rfl (fun hmem => lt_irrefl _ (hb _ hmem))
          (fun m hm => (hb m hm).le) (by simp) (by simp [Payload.type])
      · rename_i fatal hpc
        exact absurd hpc (hsent fatal rfl)
      · simp at h
  | connect =>
      rw [step] at h
      split at h
      · rename_i hpc
        cases h
        rw [Bounded, hpc] at hb
        exact stepFacts_silent hh fun n hn => (hb n hn).le
      · simp at h
  | chunk | result =>
      rw [step] at h
      split at h
      · rename_i hpc
        cases h
        rw [Bounded, hpc] at hb
        exact stepFacts_count hh rfl (fun hmem => absurd (hb _ hmem) (by omega))
          (fun m hm => (hb m hm).trans (by omega)) (by simp) (by simp [Payload.type])
      · simp at h
  | results n =>
      rw [step] at h
      split at h
      · rename_i hpc
        cases h
        rw [Bounded, hpc.1] at hb
        exact stepFacts_silent hh fun n hn => (hb n hn).trans (Nat.le_succ _)
      · simp at h
  | toolResult | crash =>
      rw [step] at h
      split at h
      · rename_i hpc
        cases h
        rw [Bounded, hpc] at hb
        exact stepFacts_count hh rfl (fun hmem => absurd (hb _ hmem) (by omega))
          (fun m hm => (hb m hm).trans (by omega)) (by simp) (by simp [Payload.type])
      · simp at h
  | toolRequest =>
      rw [step] at h
      split at h
      · rename_i hconnected
        cases h
        have hle := hb.le
        exact stepFacts_count hh rfl (fun hmem => absurd (hle _ hmem) (by omega))
          (fun m hm => (hle m hm).trans (by omega)) (ne_of_connected hconnected)
          (by simp [Payload.type])
      · simp at h
  | falseResult =>
      rw [step] at h
      split at h
      · rename_i hpc
        cases h
        have hle := hb.le
        have hbounded : ({ r with pc := r.pc, seq := r.seq + 1 } : Runner).Bounded := by
          rw [Bounded, hpc]
          exact fun n hn => (hle n hn).trans (Nat.le_succ _)
        exact stepFacts_silent hh hbounded
      · simp at h
  | stop =>
      cases h
      exact stepFacts_silent hh hb.le
  | hook event =>
      rw [step] at h
      split at h
      · cases h
        refine ⟨hb, hh.trans (Nat.le_succ _), ?_, ?_, ?_, ?_, ?_⟩
        · intro c n hn
          cases c with
          | hooks => exact ⟨hn.1, hn.2.trans (Nat.lt_succ_self _)⟩
          | _ => exact hn
        · rintro m ⟨⟩
          rfl
        · rintro m ⟨⟩
          exact ⟨hh, Nat.lt_succ_self _⟩
        · rintro m ⟨⟩ hn
          exact lt_irrefl _ hn.2
        · rintro m ⟨⟩
          simp only [Payload.type]
          cases event <;> simp [HookEvent.type]
      · simp at h
  | ack op =>
      simp only [step] at h
      split at h
      · cases h
        refine ⟨hb, hh, ?_, ?_, ?_, ?_, ?_⟩
        · intro c n hn
          cases c with
          | acks => exact ⟨hn.1, hn.2.trans (Nat.le_succ _)⟩
          | _ => exact hn
        · rintro m ⟨⟩
          rfl
        · rintro m ⟨⟩
          exact ⟨Nat.succ_pos _, le_refl _⟩
        · rintro m ⟨⟩ hn
          exact absurd hn.2 (Nat.not_succ_le_self _)
        · rintro m ⟨⟩
          cases op <;> simp [Payload.type]
      · simp at h

end Runner

/-! ### The frames of a session keep their numbers apart -/

namespace Session

variable {E : RedactionEngine} {B : Builtins} {sid : String} {backend : Backend}
variable {s s' : Session} {l : Label}

/-- The frames that the host has received and not handed over. -/
def waiting (b : WireBridge) : HostPc → List Obj
  | .draining => b.frames
  | .handing rest => rest
  | .done => []

/-- The frames that were handed over or still can be. -/
def pending (s : Session) : List Obj :=
  (s.flight.filter fun frame => !hasType "pong" frame) ++ waiting s.bridge s.host ++ s.handed

/-- The number of the frame was given out. -/
def Given (s : Session) (frame : Obj) : Prop :=
  ∃ (f : Frame) (c : Counter) (n : ℕ), f.dict = frame ∧ f.seq = n ∧ s.Gives c n

lemma gives_of_ne {c : Counter} {n : ℕ} (hc : c ≠ .bridge) : s.Gives c n ↔ s.runner.Gives c n := by
  cases c with
  | bridge => exact absurd rfl hc
  | _ => exact Iff.rfl

lemma Given.mono {frame : Obj} (h : s.Given frame) (hle : ∀ c n, s.Gives c n → s'.Gives c n) :
    s'.Given frame := by
  obtain ⟨f, c, n, hf, hn, hgives⟩ := h
  exact ⟨f, c, n, hf, hn, hle c n hgives⟩

variable (E B) in
/-- No two frames that were handed over or still can be carry the same number. -/
structure NumberInv (backend : Backend) (s : Session) : Prop where
  bounded : s.runner.Bounded
  hooks : hookSeqBase ≤ s.runner.hookSeq
  timeout : s.bridge.beating = true → s.timeout = none
  given : ∀ frame ∈ s.pending, s.Given frame
  nodup : (s.pending.map fun frame => get frame "seq").Nodup
  pongs : backend = .inprocess → ∀ frame ∈ s.flight, hasType "pong" frame = false
  rows : s.sink.frames = rowsOf E B s.handed
  kept : s.handed = [] ∨ E.sensitive "seq" = false

lemma nodup_of_subperm {f : Obj → Json} {xs ys : List Obj} (h : xs.Subperm ys)
    (hys : (ys.map f).Nodup) : (xs.map f).Nodup := by
  obtain ⟨zs, hperm, hsub⟩ := h
  exact (hperm.map f).nodup_iff.mp ((hsub.map f).nodup hys)

/-- A fresh number is on none of the frames. -/
lemma fresh_of_given {n : ℕ} (hgiven : ∀ frame ∈ s.pending, s.Given frame)
    (hfresh : ∀ c', ¬s.Gives c' n) (f : Frame) (hf : f.seq = n) :
    get f.dict "seq" ∉ s.pending.map fun frame => get frame "seq" := by
  intro hmem
  obtain ⟨frame, hframe, hseq⟩ := List.mem_map.mp hmem
  obtain ⟨g, c', m, rfl, hm, hgives⟩ := hgiven frame hframe
  have hgf : g.seq = f.seq := by simpa [get] using hseq
  have hmn : m = n := by
    have : (m : ℤ) = n := by rw [← hm, hgf, hf]
    exact_mod_cast this
  exact hfresh c' (hmn ▸ hgives)

namespace NumberInv

/-- A step that gives out no number, and takes no frame from elsewhere. -/
lemma shrink (h : NumberInv E B backend s) (hrunner : s'.runner = s.runner)
    (htimeout : s'.timeout = s.timeout)
    (hbeating : s'.bridge.beating = true → s.bridge.beating = true)
    (hpending : s'.pending.Subperm s.pending) (hflight : s'.flight ⊆ s.flight)
    (hrows : s'.sink.frames = rowsOf E B s'.handed)
    (hkept : s'.handed = [] ∨ E.sensitive "seq" = false) : NumberInv E B backend s' where
  bounded := hrunner ▸ h.bounded
  hooks := hrunner ▸ h.hooks
  timeout hb := htimeout ▸ h.timeout (hbeating hb)
  given frame hframe := by
    refine (h.given frame (hpending.subset hframe)).mono fun c n hn => ?_
    cases c <;> simp only [Gives, hrunner, htimeout] at hn ⊢ <;> exact hn
  nodup := nodup_of_subperm hpending h.nodup
  pongs hb frame hframe := h.pongs hb frame (hflight hframe)
  rows := hrows
  kept := hkept

/-- A step that puts a fresh number on a frame. -/
lemma grow (h : NumberInv E B backend s) {f : Frame} {c : Counter} {n : ℕ} (hf : f.seq = n)
    (hmono : ∀ c n, s.Gives c n → s'.Gives c n) (hgives : s'.Gives c n)
    (hfresh : ∀ c', ¬s.Gives c' n) (hbounded : s'.runner.Bounded)
    (hhooks : hookSeqBase ≤ s'.runner.hookSeq)
    (htimeout : s'.bridge.beating = true → s'.timeout = none)
    (hpending : s'.pending.Perm (f.dict :: s.pending))
    (hpongs : backend = .inprocess → ∀ frame ∈ s'.flight, hasType "pong" frame = false)
    (hsink : s'.sink = s.sink) (hhanded : s'.handed = s.handed) : NumberInv E B backend s' where
  bounded := hbounded
  hooks := hhooks
  timeout := htimeout
  given frame hframe := by
    rcases List.mem_cons.mp (hpending.subset hframe) with rfl | hold
    · exact ⟨f, c, n, rfl, hf, hgives⟩
    · exact (h.given frame hold).mono hmono
  nodup := by
    rw [(hpending.map _).nodup_iff, List.map_cons, List.nodup_cons]
    exact ⟨fresh_of_given h.given hfresh f hf, h.nodup⟩
  pongs := hpongs
  rows := by rw [hsink, hhanded, h.rows]
  kept := hhanded ▸ h.kept

end NumberInv

/-- The flight without the frame that is received. -/
lemma perm_eraseIdx {flight : List Obj} {i : ℕ} {frame : Obj} (hi : flight[i]? = some frame) :
    flight.Perm (frame :: flight.eraseIdx i) := by
  obtain ⟨hlt, hget⟩ := List.getElem?_eq_some_iff.mp hi
  exact hget ▸ (List.getElem_cons_eraseIdx_perm hlt).symm

lemma eraseIdx_subset {flight : List Obj} {i : ℕ} : flight.eraseIdx i ⊆ flight :=
  (List.eraseIdx_sublist flight i).subset

lemma frames_recv (b : WireBridge) (frame : Obj) : (b.recv B frame).1.frames =
    b.frames ++ if hasType "tool.request" frame || hasType "pong" frame then [] else [frame] := by
  by_cases hr : hasType "tool.request" frame = true
  · simp [recv_of_request b hr, hr]
  · by_cases hp : hasType "pong" frame = true
    · obtain ⟨n, e, hrecv, -⟩ := recv_of_pong (B := B) b hp
      simp [hrecv, hp]
    · simp [recv_of_other b (by simpa using hr) (by simpa using hp), hr, hp]

lemma beating_recv (b : WireBridge) (frame : Obj) :
    (b.recv B frame).1.beating = b.beating := by
  by_cases hr : hasType "tool.request" frame = true
  · rw [recv_of_request b hr]
  · by_cases hp : hasType "pong" frame = true
    · obtain ⟨n, e, hrecv, -⟩ := recv_of_pong (B := B) b hp
      rw [hrecv]
    · rw [recv_of_other b (by simpa using hr) (by simpa using hp)]

section Places

variable (F W H : List Obj) (frame : Obj)

lemma perm_flight : (F ++ [frame] ++ W ++ H).Perm (frame :: (F ++ W ++ H)) := by
  simp [List.append_assoc, List.perm_middle]

lemma perm_waiting : (F ++ (W ++ [frame]) ++ H).Perm (frame :: (F ++ W ++ H)) := by
  have h : (F ++ W ++ frame :: H).Perm (frame :: (F ++ W ++ H)) := List.perm_middle
  simpa [List.append_assoc] using h

lemma perm_handed : (F ++ W ++ (H ++ [frame])).Perm (frame :: (F ++ W ++ H)) := by
  rw [← List.append_assoc]
  exact List.perm_append_singleton _ _

end Places

/-- The frames in flight but for one, with that one. -/
lemma perm_filter_eraseIdx {flight : List Obj} {i : ℕ} {frame : Obj}
    (hi : flight[i]? = some frame) (hp : hasType "pong" frame = false) :
    (frame :: (flight.eraseIdx i).filter fun f => !hasType "pong" f).Perm
      (flight.filter fun f => !hasType "pong" f) := by
  have hperm := (perm_eraseIdx hi).filter fun f => !hasType "pong" f
  rw [List.filter_cons_of_pos (by simp [hp])] at hperm
  exact hperm.symm

/-- A frame is handed over. -/
lemma NumberInv.hand (h : NumberInv E B backend s) (hE : E.sensitive "seq" = false) {frame : Obj}
    {flight : List Obj} {host : Option PyError → HostPc} (hflight : flight ⊆ s.flight)
    (hpending : ∀ e, (frame :: ((flight.filter fun f => !hasType "pong" f) ++
      waiting s.bridge (host e) ++ s.handed)).Subperm s.pending) :
    NumberInv E B backend (Session.hand E B sid frame host { s with flight := flight }) := by
  refine h.shrink rfl rfl id ?_ hflight ?_ (Or.inr hE)
  · exact (perm_handed _ _ _ _).subperm.trans (hpending _)
  · show (persistFrame E B sid frame s.sink).1.frames = rowsOf E B (s.handed ++ [frame])
    rw [frames_persistFrame, rowsOf_concat, h.rows]

lemma recv_inprocess (frame : Obj) : s.recv E B sid .inprocess frame =
    s.hand E B sid frame fun e =>
      if e.isSome || hasType "session.end" frame then .done else .draining := rfl

lemma recv_wire (frame : Obj) : s.recv E B sid .wire frame =
    { s with
      bridge := (s.bridge.recv B frame).1
      host := if (s.bridge.recv B frame).2.isSome || hasType "session.end" frame
        then .handing (s.bridge.recv B frame).1.frames else .draining } := rfl

/-- The host receives a frame. -/
lemma NumberInv.recv (h : NumberInv E B backend s) (hE : E.sensitive "seq" = false) {i : ℕ}
    {frame : Obj} (hhost : s.host = .draining) (hi : s.flight[i]? = some frame) :
    NumberInv E B backend
      (Session.recv E B sid backend frame { s with flight := s.flight.eraseIdx i }) := by
  cases backend with
  | inprocess =>
      have hp : hasType "pong" frame = false :=
        h.pongs rfl frame ((perm_eraseIdx hi).symm.subset List.mem_cons_self)
      rw [recv_inprocess]
      refine h.hand hE eraseIdx_subset fun e => ?_
      rw [pending, hhost, ← List.cons_append, ← List.cons_append]
      refine List.Subperm.trans ?_
        (((perm_filter_eraseIdx hi hp).append_right _).append_right _).subperm
      refine (List.Sublist.append_right (List.Sublist.append_left ?_ _) _).subperm
      split
      · exact List.nil_sublist _
      · exact List.Sublist.refl _
  | wire =>
      have hframes : waiting (s.bridge.recv B frame).1
          (if (s.bridge.recv B frame).2.isSome || hasType "session.end" frame
            then .handing (s.bridge.recv B frame).1.frames else .draining) =
          s.bridge.frames ++
            if hasType "tool.request" frame || hasType "pong" frame then [] else [frame] := by
        rw [← frames_recv]
        split <;> rfl
      rw [recv_wire]
      refine h.shrink rfl rfl (fun hb => ?_) ?_ eraseIdx_subset h.rows h.kept
      · rw [← beating_recv (B := B) s.bridge frame]
        exact hb
      · have hsub := (List.eraseIdx_sublist s.flight i).filter fun f => !hasType "pong" f
        by_cases hother : (hasType "tool.request" frame || hasType "pong" frame) = true
        · rw [if_pos hother, List.append_nil] at hframes
          rw [pending, pending, hframes, hhost]
          exact ((hsub.append_right _).append_right _).subperm
        · have hp : hasType "pong" frame = false := by
            by_contra hp
            exact hother (by simp [hp])
          rw [if_neg hother] at hframes
          rw [pending, pending, hframes, hhost]
          refine (perm_waiting _ _ _ _).subperm.trans ?_
          rw [← List.cons_append, ← List.cons_append]
          exact (((perm_filter_eraseIdx hi hp).append_right _).append_right _).subperm

/-- The runner gets through a stretch. -/
lemma NumberInv.runner (h : NumberInv E B backend s) {now : String} {l : RunnerLabel}
    {r' : Runner} {made : Option Made} (facts : Runner.StepFacts s.runner r' l made)
    (hapart : ∀ p ∈ s.runner.number l, ∀ c, c ≠ p.1 → ¬s.Gives c p.2) :
    NumberInv E B backend { s with
      runner := r'
      flight := s.flight ++ (made.map fun m => (Frame.mk m.seq now m.payload).dict).toList } := by
  have hmono : ∀ c n, s.Gives c n → Gives { s with runner := r' } c n := by
    intro c n hn
    by_cases hc : c = .bridge
    · subst hc
      exact hn
    · exact (gives_of_ne hc).mpr (facts.gives c n ((gives_of_ne hc).mp hn))
  cases made with
  | none =>
      simp only [Option.map_none, Option.toList_none, List.append_nil]
      exact {
        h with
        bounded := facts.bounded
        hooks := facts.hooks
        given := fun frame hframe => (h.given frame hframe).mono hmono }
  | some m =>
      have hcounter : m.counter ≠ .bridge := by
        intro hc
        have hgiven := facts.given m rfl
        rw [hc] at hgiven
        exact hgiven
      have hfresh : ∀ c, ¬s.Gives c m.seq := by
        intro c hc
        by_cases hcm : c = m.counter
        · subst hcm
          exact facts.fresh m rfl ((gives_of_ne hcounter).mp hc)
        · exact hapart _ (facts.number m rfl) c hcm hc
      have hp : hasType "pong" (Frame.mk m.seq now m.payload).dict = false := by
        simpa using facts.kind m rfl
      refine h.grow (f := ⟨m.seq, now, m.payload⟩) (c := m.counter) (n := m.seq) rfl hmono
        ((gives_of_ne hcounter).mpr (facts.given m rfl)) hfresh facts.bounded facts.hooks h.timeout
        ?_ ?_ rfl rfl
      · have hfilter : ([(Frame.mk m.seq now m.payload).dict].filter fun f => !hasType "pong" f) =
            [(Frame.mk m.seq now m.payload).dict] := by
          rw [List.filter_cons_of_pos (by simp [hp]), List.filter_nil]
        rw [pending, pending, Option.map_some, Option.toList_some, List.filter_append, hfilter]
        exact perm_flight _ _ _ _
      · intro hb frame hframe
        rcases List.mem_append.mp hframe with hframe | hframe
        · exact h.pongs hb frame hframe
        · rw [Option.map_some, Option.toList_some, List.mem_singleton] at hframe
          rw [hframe, hp]

/-- The heartbeat loop goes through an iteration. -/
lemma NumberInv.beat (h : NumberInv E B .wire s) {now : String} {alive : Bool}
    (hhost : s.host = .draining)
    (hapart : s.giveUp → ∀ c, c ≠ .bridge → ¬s.Gives c (s.bridge.seq + 1)) :
    NumberInv E B .wire { s with
      bridge := s.bridge.beat now alive
      timeout := if s.giveUp then some (s.bridge.seq + 1) else s.timeout } := by
  by_cases hgive : s.giveUp
  · have hnone : s.timeout = none := h.timeout hgive.1
    have hbeat : s.bridge.beat now alive = s.bridge.heartbeatTimeout now := by
      rw [WireBridge.beat, if_pos hgive.1, if_pos hgive.2]
    rw [if_pos hgive, hbeat]
    refine h.grow (f := s.bridge.timeoutFrame now) (c := .bridge) (n := s.bridge.seq + 1) rfl ?_ rfl
      ?_ h.bounded h.hooks ?_ ?_ h.pongs rfl rfl
    · intro c n hn
      by_cases hc : c = .bridge
      · subst hc
        rw [Gives, hnone] at hn
        simp at hn
      · rw [gives_of_ne hc] at hn ⊢
        exact hn
    · intro c hc
      by_cases hcb : c = .bridge
      · subst hcb
        rw [Gives, hnone] at hc
        simp at hc
      · exact hapart hgive c hcb hc
    · intro hb
      simp [WireBridge.heartbeatTimeout] at hb
    · rw [pending, pending, hhost]
      exact perm_waiting _ _ _ _
  · have hframes := frames_beat s.bridge now alive
    rw [if_neg (show ¬(_ ∧ _) from hgive), List.append_nil] at hframes
    rw [if_neg hgive]
    refine h.shrink rfl rfl ?_ ?_ (List.Subset.refl _) h.rows h.kept
    · intro hb
      by_contra hnot
      simp [WireBridge.beat, hnot] at hb
    · rw [pending, pending, hhost]
      show (_ ++ (s.bridge.beat now alive).frames ++ _).Subperm _
      rw [hframes]
      exact List.Subperm.refl _

/-- **The step lemma.** -/
theorem NumberInv.step (h : NumberInv E B backend s) (hok : NumberGuard E s l)
    (hs : s.step E B sid backend l = some s') : NumberInv E B backend s' := by
  cases l with
  | runner now l =>
      obtain ⟨⟨r', made⟩, hr, rfl⟩ := Option.map_eq_some_iff.mp hs
      refine h.runner (Runner.stepFacts hr h.bounded h.hooks fun fatal hl hpc => ?_) hok.apart
      have hwhole := hok.whole
      rw [hl] at hwhole
      simp [cutsSend, hpc] at hwhole
  | pong now =>
      rw [Session.step] at hs
      split at hs
      · rename_i hpc
        cases hs
        have hfilter : ([(Frame.mk (s.runner.pongSeq + 1) now .pong).dict].filter
            fun f => !hasType "pong" f) = [] := rfl
        have hpending : pending { s with
            runner := { s.runner with pongSeq := s.runner.pongSeq + 1 }
            flight := s.flight ++ [(Frame.mk (s.runner.pongSeq + 1) now .pong).dict] } =
            s.pending := by
          rw [pending, pending, List.filter_append, hfilter, List.append_nil]
        refine ⟨h.bounded, h.hooks, h.timeout, ?_, ?_, ?_, h.rows, h.kept⟩
        · intro frame hframe
          refine (h.given frame (hpending ▸ hframe)).mono fun c n hn => ?_
          cases c <;> exact hn
        · rw [hpending]
          exact h.nodup
        · intro hb
          exact absurd (hpc.1.symm.trans hb) (by decide)
      · simp at hs
  | lose i =>
      rw [Session.step] at hs
      split at hs
      · cases hs
        refine h.shrink rfl rfl id ?_ eraseIdx_subset h.rows h.kept
        exact ((((List.eraseIdx_sublist _ _).filter _).append_right _).append_right _).subperm
      · simp at hs
  | recv i =>
      rw [Session.step] at hs
      split at hs
      · rename_i frame hhost hi
        cases hs
        exact h.recv hok.kept hhost hi
      · simp at hs
  | close =>
      simp only [Session.step] at hs
      split at hs
      · rename_i hhost
        cases hs
        refine h.shrink rfl rfl id ?_ (List.Subset.refl _) h.rows h.kept
        exact (((List.nil_sublist _).append_left _).append_right _).subperm
      · rename_i hhost
        cases hs
        refine h.shrink rfl rfl id ?_ (List.Subset.refl _) h.rows h.kept
        rw [pending, pending, hhost]
        exact List.Subperm.refl _
      · simp at hs
  | beat now alive =>
      simp only [Session.step] at hs
      split at hs
      · rename_i hhost
        cases hs
        exact h.beat hhost fun hgive => hok.apart _ (if_pos hgive)
      · simp at hs
  | control =>
      simp only [Session.step] at hs
      split at hs
      · rename_i hhost
        cases hs
        exact h.shrink rfl rfl id (List.Subperm.refl _) (List.Subset.refl _) h.rows h.kept
      · simp at hs
  | persist =>
      rw [Session.step] at hs
      split at hs
      · rename_i frame rest hhost
        cases hs
        refine h.hand hok.kept (List.Subset.refl _) fun e => ?_
        rw [pending, hhost]
        have hsub : (waiting s.bridge (if e.isSome then .done else .handing rest)).Sublist rest := by
          split
          · exact List.nil_sublist _
          · exact List.Sublist.refl _
        refine List.Subperm.trans ?_ (List.perm_middle.append_right s.handed).symm.subperm
        exact (((hsub.append_left _).append_right _).cons_cons frame).subperm
      · simp at hs
  | abort =>
      cases hs
      refine h.shrink rfl rfl id ?_ (List.Subset.refl _) h.rows h.kept
      exact (((List.nil_sublist _).append_left _).append_right _).subperm

/-- **The invariant holds along every admitted run.** -/
theorem numberInv (h : (sessionSystem E B sid backend).ReachableVia (NumberGuard E) s) :
    NumberInv E B backend s := by
  refine h.invariant ?_ fun s l t hs hok ht => hs.step hok ht
  rintro s ⟨m, rfl⟩
  exact {
    bounded := fun n hn => absurd hn List.not_mem_nil
    hooks := le_refl _
    timeout := fun _ => rfl
    given := fun frame hframe => absurd hframe List.not_mem_nil
    nodup := List.nodup_nil
    pongs := fun _ frame hframe => absurd hframe List.not_mem_nil
    rows := rfl
    kept := Or.inl rfl }

lemma seqOf_dict (hE : E.sensitive "seq" = false) (f : Frame) : seqOf E B f.dict = some f.seq := by
  have hget : getD (E.redactFrame f.dict) "seq" (.scalar (.int 0)) = .scalar (.int f.seq) := by
    rw [getD, lookup_redactFrame]
    show (some (E.redactItem ("seq", .scalar (.int f.seq)))).getD _ = _
    rw [RedactionEngine.redactItem, hE]
    rfl
  simp only [seqOf, rowOf, hget, B.int_int, Option.map_some]

/-- Where no two frames can carry the same number, all that were handed over are stored. -/
lemma NumberInv.stored (h : NumberInv E B backend s) : s.Stored := by
  have hsub : s.handed.Sublist s.pending := List.sublist_append_right _ _
  have hnodup := (hsub.map fun frame => get frame "seq").nodup h.nodup
  refine ⟨hnodup, ?_⟩
  rcases h.kept with hnil | hE
  · rw [h.rows, hnil]
    rfl
  · have hseq : ∀ frame ∈ s.handed, ∃ n, seqOf E B frame = some n ∧
        get frame "seq" = .scalar (.int n) := by
      intro frame hframe
      obtain ⟨f, c, n, rfl, -⟩ := h.given frame (hsub.subset hframe)
      exact ⟨f.seq, seqOf_dict hE f, rfl⟩
    rw [h.rows]
    refine origins_rowsOf (fun frame hframe => ?_) (hnodup.of_map.map_on fun x hx y hy hxy => ?_)
    · obtain ⟨n, hn, -⟩ := hseq frame hframe
      rw [hn]
      rfl
    · obtain ⟨n, hn, hxn⟩ := hseq x hx
      obtain ⟨m, hm, hym⟩ := hseq y hy
      have hnm : n = m := Option.some.inj (hn.symm.trans (hxy.trans hm))
      exact List.inj_on_of_nodup_map hnodup hx hy (hxn.trans (hnm ▸ hym.symm))

end Session

section Runs

variable {E : RedactionEngine} {B : Builtins} {sid : String} {backend : Backend} {s : Session}

/-- **Every frame that is handed over is stored**, in every run in which the counters keep out of
each other's way. -/
theorem frames_stored (h : (sessionSystem E B sid backend).ReachableVia (NumberGuard E) s) :
    s.Stored :=
  (Session.numberInv h).stored

end Runs

/-! ### A number is given out twice -/

/-- The redactor with the default keys. -/
def defaultRedactor : RedactionEngine := .new id [] DEFAULT_SENSITIVE_KEYS

/-- A session over the wire with a hook and without a pause. -/
def hookRun : List Label :=
  [.runner "t" .noInstall, .runner "t" .connect,
    .runner "t" (.hook .userPromptSubmit none none none none "h" []), .runner "t" (.chunk []),
    .recv 1, .recv 0, .runner "t" (.result [] "0.0"), .recv 0, .persist, .persist, .persist]

/-- The same session, with a pause that is acked after the first message. -/
def pausedRun : List Label :=
  [.runner "t" .noInstall, .runner "t" .connect, .runner "t" (.chunk []),
    .runner "t" (.ack .pause "pause-1" true none), .recv 0, .recv 0,
    .runner "t" (.result [] "0.0"), .recv 0, .persist, .persist, .persist]

theorem frames_stored_hookRun :
    ∃ s, (sessionSystem defaultRedactor .plain "s" .wire).checkedRun (NumberGuard defaultRedactor)
        {} hookRun = some s ∧
      s.handed.length = 3 ∧ s.Stored := by
  have hrun : ((sessionSystem defaultRedactor .plain "s" .wire).checkedRun
      (NumberGuard defaultRedactor) {} hookRun).any (fun s => s.handed.length = 3) = true := by
    decide
  obtain ⟨s, hs, he⟩ := (Option.any_eq_true _ _).mp hrun
  exact ⟨s, hs, of_decide_eq_true he, frames_stored (.of_checkedRun (.init ⟨_, rfl⟩) hs)⟩

/-- **The ack of a pause takes the number of the first message**: one of the two is rejected. -/
theorem ack_collides :
    ∃ s, (sessionSystem defaultRedactor .plain "s" .wire).run {} pausedRun = some s ∧
      s.handed.length = 3 ∧ s.sink.frames.length = 2 ∧ ¬s.Stored := by
  have hrun : ((sessionSystem defaultRedactor .plain "s" .wire).run {} pausedRun).any
      (fun s => decide (s.handed.length = 3 ∧ s.sink.frames.length = 2)) = true := by
    decide +kernel
  obtain ⟨s, hs, he⟩ := (Option.any_eq_true _ _).mp hrun
  obtain ⟨hhanded, hframes⟩ := of_decide_eq_true he
  refine ⟨s, hs, hhanded, hframes, fun h => ?_⟩
  have hlength := congrArg List.length h.rows
  rw [List.length_map, hhanded, hframes] at hlength
  omega

end GgRelay.Frames
