import GgRelay.Session.Manager.Frame
import GgRelay.Session.Manager.Watchdog

/-!
What a `pause` or a `resume` that raises leaves behind.

* `Manager.account` is the pause state of a session as a vector of integers: its own entries, the
  totals its share goes into, and the status of its row.  What a step does to it is a difference
  (`drift`), so what the call and what everybody else has done to it in the meantime can be told
  apart in any interleaving;
* `Attempt` is a call from the state before it on, with its own steps and the sum of the drifts
  of all others;
* `Undone` is the condition, `failed_call_restores_iff` the result: when the call has raised, the
  account is what it was but for the others, if and only if `Undone`;
* `failed_pause_keeps_session_paused`: a call that is not.
-/

namespace GgRelay

/-- An entry of the pause state of a session. -/
inductive PauseItem where
  /-- `_paused_set` -/
  | paused
  /-- `_paused_at` -/
  | pausedAt (t : Option Time)
  /-- `_paused_by_key` -/
  | share (k : ApiKeyId)
  /-- `_paused_holds_slot` -/
  | holds
  /-- the slot of the session has been released for its pause -/
  | lent
  /-- the slots of the semaphore -/
  | free
  /-- the timer in `_paused_timers` is live -/
  | timed
  /-- the status of the row -/
  | status (st : Option SessionState)
  deriving DecidableEq

namespace Manager

/-- The pause state of a session. -/
def account (m : Manager) (sid : SessionId) : PauseItem → ℤ
  | .paused => if sid ∈ m.pausedSet then 1 else 0
  | .pausedAt t => if (m.sess sid).pausedAt = t then 1 else 0
  | .share k => (m.pausedByKey k).getD 0
  | .holds => if sid ∈ m.pausedHoldsSlot then 1 else 0
  | .lent => if (m.sess sid).handedOver then 1 else 0
  | .free => m.sem.free
  | .timed => if (m.sess sid).timer.any Timer.isLive then 1 else 0
  | .status st => if (m.sess sid).row.map (·.status) = st then 1 else 0

/-- What lies between two states of a session. -/
def drift (m m' : Manager) (sid : SessionId) : PauseItem → ℤ :=
  m'.account sid - m.account sid

/-- Two accounts are equal when nothing in them differs. -/
lemma account_eq_iff {m m' : Manager} {sid : SessionId} :
    m'.account sid = m.account sid ↔
      (sid ∈ m'.pausedSet ↔ sid ∈ m.pausedSet) ∧
      (m'.sess sid).pausedAt = (m.sess sid).pausedAt ∧
      (∀ k, (m'.pausedByKey k).getD 0 = (m.pausedByKey k).getD 0) ∧
      (sid ∈ m'.pausedHoldsSlot ↔ sid ∈ m.pausedHoldsSlot) ∧
      (m'.sess sid).handedOver = (m.sess sid).handedOver ∧
      m'.sem.free = m.sem.free ∧
      (m'.sess sid).timer.any Timer.isLive = (m.sess sid).timer.any Timer.isLive ∧
      (m'.sess sid).row.map (·.status) = (m.sess sid).row.map (·.status) := by
  constructor
  · intro h
    have hp := congrFun h .paused
    have ht := congrFun h (.pausedAt (m.sess sid).pausedAt)
    have hk := fun k => congrFun h (.share k)
    have hh := congrFun h .holds
    have hl := congrFun h .lent
    have hf := congrFun h .free
    have hl' := congrFun h .timed
    have hs := congrFun h (.status ((m.sess sid).row.map (·.status)))
    simp only [account] at hp ht hk hh hl hf hl' hs
    refine ⟨?_, ?_, fun k => by exact_mod_cast hk k, ?_, ?_, by exact_mod_cast hf, ?_, ?_⟩
    · split at hp <;> split at hp <;> simp_all
    · simpa using ht
    · split at hh <;> split at hh <;> simp_all
    · split at hl <;> split at hl <;> simp_all
    · split at hl' <;> split at hl' <;> simp_all
    · simpa using hs
  · rintro ⟨hp, ht, hk, hh, hl, hf, hl', hs⟩
    funext i
    cases i with
    | paused => simp only [account, hp]
    | pausedAt t => simp only [account, ht]
    | share k => simp only [account, hk]
    | holds => simp only [account, hh]
    | lent => simp only [account, hl]
    | free => simp only [account, hf]
    | timed => simp only [account, hl']
    | status st => simp only [account, hs]

section Account

variable (m : Manager) (sid : SessionId)

@[simp] lemma account_setCall (cid : CallId) (c : Call) :
    (m.setCall cid c).account sid = m.account sid := by
  funext i
  cases i <;> rfl

@[simp] lemma account_newCall (c : Call) : (m.newCall c).account sid = m.account sid := by
  funext i
  cases i <;> rfl

lemma account_modify_state (st : Option SessionState) :
    (m.modify sid fun s => { s with state := st }).account sid = m.account sid := by
  funext i
  cases i <;> simp [account]

end Account

end Manager

/-! ### The calls -/

/-- The operation that is called. -/
inductive PauseOp where
  | pause | resume
  deriving DecidableEq

/-- The operation up to its first `await`. -/
def PauseOp.enter (cfg : ManagerConfig) (m : Manager) (sid : SessionId) : PauseOp → Manager
  | .pause => m.pauseEntry cfg sid
  | .resume => m.resumeEntry sid

/-- The call has raised. -/
def Call.raised : Call → Bool
  | .pause _ (.done (.error _)) | .resume _ (.done (.error _)) => true
  | _ => false

namespace Manager

/-- A call of `op` on `sid` that enters in the state `m₀`: its own steps so far, the latest first,
what all the other steps have done to the account of the session, and the state. -/
inductive Attempt (cfg : ManagerConfig) (op : PauseOp) (sid : SessionId) (m₀ : Manager) :
    List (Manager × Label) → (PauseItem → ℤ) → Manager → Prop
  | enter : Attempt cfg op sid m₀ [] 0 (op.enter cfg m₀ sid)
  | own {steps : List (Manager × Label)} {others : PauseItem → ℤ} {m m' : Manager} {l : Label}
      (h : Attempt cfg op sid m₀ steps others m) (hl : l.runs m₀.nextCall = true)
      (hs : m.step cfg l = some m') : Attempt cfg op sid m₀ ((m, l) :: steps) others m'
  | other {steps : List (Manager × Label)} {others : PauseItem → ℤ} {m m' : Manager} {l : Label}
      (h : Attempt cfg op sid m₀ steps others m) (hl : l.runs m₀.nextCall = false)
      (hs : m.step cfg l = some m') : Attempt cfg op sid m₀ steps (others + drift m m' sid) m'

/-- A `resume` that enters here goes to work. -/
def resumes (m : Manager) (sid : SessionId) : Bool := sid ∈ m.pausedSet && (m.sess sid).bridge

/-- The call that enters here takes a live timer away. -/
def takesTimer (m : Manager) (sid : SessionId) : PauseOp → Bool
  | .pause => false
  | .resume => m.resumes sid && (m.sess sid).timer.any Timer.isLive

/-- Another call has recorded the session as paused at this very time, and it has no key. -/
structure Recorded (m : Manager) (sid : SessionId) : Prop where
  paused : sid ∈ m.pausedSet
  pausedAt : (m.sess sid).pausedAt = some m.clock
  holds : sid ∈ m.pausedHoldsSlot
  keyless : ∀ k, (m.sess sid).apiKey ≠ some (some k)

/-- The steps of a call, together, have put back what they took.  For a `pause`: it has not got its
ack, unless the session was recorded as paused already.  For a `resume`: it has not got its ack
either, and if it took a live timer away, it has armed one. -/
structure Undone (op : PauseOp) (sid : SessionId) (m₀ : Manager)
    (steps : List (Manager × Label)) : Prop where
  pauseAck : ∀ p ∈ steps, p.1.pauseAck p.2 = some sid → p.1.Recorded sid
  writes : ∀ p ∈ steps, p.1.callWrites p.2 = some sid →
    (p.1.sess sid).row.map (·.status) = some .paused
  resumeAck : ∀ p ∈ steps, p.1.resumeAck p.2 ≠ some sid
  timer : m₀.takesTimer sid op = true ↔
    ∃ p ∈ steps, p.1.arms p.2 = some sid ∧ (p.1.sess sid).timer.any Timer.isLive = false

/-! ### Where a call stands -/

/-- The event has not happened in these steps. -/
def Never (event : Manager → Label → Option SessionId) (sid : SessionId)
    (steps : List (Manager × Label)) : Prop :=
  ∀ p ∈ steps, event p.1 p.2 ≠ some sid

instance (event : Manager → Label → Option SessionId) (sid : SessionId)
    (steps : List (Manager × Label)) : Decidable (Never event sid steps) := by
  unfold Never
  infer_instance

/-- The event has happened in these steps, in the state `s` and in no other. -/
def Once (event : Manager → Label → Option SessionId) (sid : SessionId)
    (steps : List (Manager × Label)) (s : Manager) : Prop :=
  (∃ l, (s, l) ∈ steps ∧ event s l = some sid) ∧
    ∀ p ∈ steps, event p.1 p.2 = some sid → p.1 = s

section Events

variable {event : Manager → Label → Option SessionId} {sid : SessionId}
  {steps : List (Manager × Label)} {s m : Manager} {l : Label}

lemma Never.nil : Never event sid [] := by simp [Never]

lemma Never.cons (h : Never event sid steps) (hl : event m l ≠ some sid) :
    Never event sid ((m, l) :: steps) := by
  simpa [Never, hl] using h

lemma Never.once (h : Never event sid steps) (hl : event m l = some sid) :
    Once event sid ((m, l) :: steps) m := by
  refine ⟨⟨l, by simp, hl⟩, fun p hp he => ?_⟩
  rcases List.mem_cons.mp hp with rfl | hp
  · rfl
  · exact absurd he (h p hp)

lemma Once.cons (h : Once event sid steps s) (hl : event m l ≠ some sid) :
    Once event sid ((m, l) :: steps) s := by
  obtain ⟨⟨l', hm, he⟩, hu⟩ := h
  refine ⟨⟨l', by simp [hm], he⟩, fun p hp hp' => ?_⟩
  rcases List.mem_cons.mp hp with rfl | hp
  · exact absurd hp' hl
  · exact hu p hp hp'

/-- What is true whenever the event happens is true where it happened. -/
lemma Once.forall_iff (h : Once event sid steps s) (P : Manager → Prop) :
    (∀ p ∈ steps, event p.1 p.2 = some sid → P p.1) ↔ P s := by
  obtain ⟨⟨l, hm, he⟩, hu⟩ := h
  refine ⟨fun hp => hp _ hm he, fun hs p hp he => ?_⟩
  rw [hu p hp he]
  exact hs

lemma Once.exists_iff (h : Once event sid steps s) (P : Manager → Prop) :
    (∃ p ∈ steps, event p.1 p.2 = some sid ∧ P p.1) ↔ P s := by
  obtain ⟨⟨l, hm, he⟩, hu⟩ := h
  refine ⟨?_, fun hs => ⟨_, hm, he, hs⟩⟩
  rintro ⟨p, hp, he, hs⟩
  rwa [← hu p hp he]

end Events

/-- What a call that writes the row does to its status. -/
def paintPaused (m : Manager) (sid : SessionId) : PauseItem → ℤ
  | .status st =>
      (if some .paused = st then 1 else 0)
        - if (m.sess sid).row.map (·.status) = st then 1 else 0
  | _ => 0

/-- Where a call stands that has made these steps: its state, and what it has done to the account
of its session so far. -/
inductive Standing (op : PauseOp) (sid : SessionId) (m₀ : Manager)
    (steps : List (Manager × Label)) : Call → (PauseItem → ℤ) → Prop
  /-- a `pause` that has not got its ack -/
  | asking {pc : PausePc} (hop : op = .pause)
      (hpc : pc = .missing ∨ pc = .version ∨ (∃ v, pc = .ack v) ∨ ∃ e, pc = .done (.error e))
      (ha : Never pauseAck sid steps) (hw : Never callWrites sid steps)
      (hr : Never resumeAck sid steps) (ht : Never arms sid steps) :
      Standing op sid m₀ steps (.pause sid pc) 0
  /-- a `pause` that got it in the state `s`, and has not written the row -/
  | recording {pc : PausePc} {s : Manager} (hop : op = .pause)
      (hpc : (∃ t l, pc = .locked t l ∧ ∀ second v, l ≠ .landed second (.ok v)) ∨
        ∃ e, pc = .done (.error e))
      (ha : Once pauseAck sid steps s) (hw : Never callWrites sid steps)
      (hr : Never resumeAck sid steps) (ht : Never arms sid steps) :
      Standing op sid m₀ steps (.pause sid pc) (drift s (s.pauseBookkeeping sid) sid)
  /-- a `pause` that wrote the row in the state `w` -/
  | written {pc : PausePc} {s w : Manager} (hop : op = .pause)
      (hpc : (∃ t second v, pc = .locked t (.landed second (.ok v))) ∨ pc = .audit ∨
        pc = .publish ∨ ∃ e, pc = .done (.error e))
      (ha : Once pauseAck sid steps s) (hw : Once callWrites sid steps w)
      (hr : Never resumeAck sid steps) (ht : Never arms sid steps) :
      Standing op sid m₀ steps (.pause sid pc)
        (drift s (s.pauseBookkeeping sid) sid + w.paintPaused sid)
  | paused {own : PauseItem → ℤ} : Standing op sid m₀ steps (.pause sid (.done (.ok ()))) own
  /-- a `resume` of a session that is not paused -/
  | refused {pc : ResumePc} (hop : op = .resume) (h₀ : m₀.resumes sid = false)
      (hpc : pc = .missing ∨ ∃ e, pc = .done (.error e))
      (ha : Never pauseAck sid steps) (hw : Never callWrites sid steps)
      (hr : Never resumeAck sid steps) (ht : Never arms sid steps) :
      Standing op sid m₀ steps (.resume sid pc) 0
  /-- a `resume` without a slot -/
  | queueing {pc : ResumePc} (hop : op = .resume) (h₀ : m₀.resumes sid = true)
      (hpc : pc = .version ∨ (∃ v, pc = .acquire v) ∨ ∃ e, pc = .done (.error e))
      (ha : Never pauseAck sid steps) (hw : Never callWrites sid steps)
      (hr : Never resumeAck sid steps) (ht : Never arms sid steps) :
      Standing op sid m₀ steps (.resume sid pc) (-Pi.single .timed (m₀.takesTimer sid op).toInt)
  /-- a `resume` with a slot -/
  | holding {v : ℕ} (hop : op = .resume) (h₀ : m₀.resumes sid = true)
      (ha : Never pauseAck sid steps) (hw : Never callWrites sid steps)
      (hr : Never resumeAck sid steps) (ht : Never arms sid steps) :
      Standing op sid m₀ steps (.resume sid (.ack v))
        (-Pi.single .timed (m₀.takesTimer sid op).toInt - Pi.single .free 1)
  /-- a `resume` that armed the timer in the state `s` -/
  | rolledBack {e : Exn} {s : Manager} (hop : op = .resume) (h₀ : m₀.resumes sid = true)
      (ha : Never pauseAck sid steps) (hw : Never callWrites sid steps)
      (hr : Never resumeAck sid steps) (ht : Once arms sid steps s) :
      Standing op sid m₀ steps (.resume sid (.done (.error e)))
        (-Pi.single .timed (m₀.takesTimer sid op).toInt
          + Pi.single .timed (!(s.sess sid).timer.any Timer.isLive).toInt)
  /-- a `resume` that got its ack -/
  | resumed {pc : ResumePc} {own : PauseItem → ℤ}
      (hpc : (∃ l, pc = .locked l) ∨ pc = .audit ∨ pc = .publish ∨ ∃ r, pc = .done r)
      (hr : ∃ p ∈ steps, p.1.resumeAck p.2 = some sid) (hf : own .free = -1) :
      Standing op sid m₀ steps (.resume sid pc) own

section Steps

variable {cfg : ManagerConfig} {op : PauseOp} {sid : SessionId} {m₀ m m' : Manager}
  {steps : List (Manager × Label)} {own : PauseItem → ℤ} {cid : CallId} {r : Reply}

lemma pauseAck_of_resume {pc : ResumePc} (hc : m.calls cid = .resume sid pc) :
    m.pauseAck (.call cid r) ≠ some sid := by
  unfold pauseAck
  split <;> simp_all

lemma resumeAck_of_pause {pc : PausePc} (hc : m.calls cid = .pause sid pc) :
    m.resumeAck (.call cid r) ≠ some sid := by
  unfold resumeAck
  split <;> simp_all

lemma pauseAck_of_pause {pc : PausePc} (hc : m.calls cid = .pause sid pc)
    (hpc : ∀ v, pc ≠ .ack v) : m.pauseAck (.call cid r) ≠ some sid := by
  cases r with
  | ack b =>
      cases b with
      | true =>
          simp only [pauseAck, hc]
          split <;> simp_all
      | false => simp [pauseAck]
  | ok | credentials | started | swallowed | raise => simp [pauseAck]

lemma arms_of_pause {pc : PausePc} (hc : m.calls cid = .pause sid pc) (hpc : pc ≠ .publish) :
    m.arms (.call cid r) ≠ some sid := by
  simp only [arms, hc]
  split <;> simp_all

lemma callWrites_of_call : m.callWrites (.call cid r) ≠ some sid := by simp [callWrites]

/-- A `pause` before its ack changes nothing, and its ack is the bookkeeping. -/
lemma asking_step {pc : PausePc} (hop : op = .pause) (hc : m.calls cid = .pause sid pc)
    (hpc : pc = .missing ∨ pc = .version ∨ (∃ v, pc = .ack v) ∨ ∃ e, pc = .done (.error e))
    (ha : Never pauseAck sid steps) (hw : Never callWrites sid steps)
    (hr : Never resumeAck sid steps) (ht : Never arms sid steps)
    (h : m.pauseStep cfg cid sid pc r = some m') :
    ∃ own, m'.account sid = m.account sid + own ∧
      Standing op sid m₀ ((m, .call cid r) :: steps) (m'.calls cid) own := by
  have hw' := hw.cons (m := m) (l := .call cid r) callWrites_of_call
  have hr' := hr.cons (m := m) (l := .call cid r) (resumeAck_of_pause hc)
  have ht' := ht.cons (m := m) (l := .call cid r) (arms_of_pause hc (by rintro rfl; simp at hpc))
  -- the call goes on without touching anything
  have hquiet : m.pauseAck (.call cid r) ≠ some sid → ∀ pc', m' = m.setCall cid (.pause sid pc') →
      (pc' = .missing ∨ pc' = .version ∨ (∃ v, pc' = .ack v) ∨ ∃ e, pc' = .done (.error e)) →
      ∃ own, m'.account sid = m.account sid + own ∧
        Standing op sid m₀ ((m, .call cid r) :: steps) (m'.calls cid) own := by
    rintro hn pc' rfl hpc'
    refine ⟨0, by simp, ?_⟩
    simp only [setCall_calls, Function.update_self]
    exact .asking hop hpc' (ha.cons hn) hw' hr' ht'
  rcases hpc with rfl | rfl | ⟨v, rfl⟩ | ⟨e, rfl⟩
  · have hn := pauseAck_of_pause (r := r) hc (by simp)
    cases r <;> simp [pauseStep] at h <;> subst h <;> exact hquiet hn _ rfl (by simp)
  · have hn := pauseAck_of_pause (r := r) hc (by simp)
    cases r with
    | ok =>
        simp only [pauseStep] at h
        split at h <;> cases h <;> exact hquiet hn _ rfl (by simp)
    | raise e =>
        cases h
        exact hquiet hn _ rfl (by simp)
    | ack | credentials | started | swallowed => simp [pauseStep] at h
  · cases r with
    | ack b =>
        cases b with
        | true =>
            simp only [pauseStep, Option.some.injEq] at h
            subst h
            refine ⟨drift m (m.pauseBookkeeping sid) sid, by simp [drift], ?_⟩
            simp only [setCall_calls, Function.update_self]
            exact .recording hop (Or.inl ⟨_, _, rfl, by simp⟩) (ha.once (by simp [pauseAck, hc]))
              hw' hr' ht'
        | false =>
            cases h
            exact hquiet (by simp [pauseAck]) _ rfl (by simp)
    | raise e =>
        cases h
        exact hquiet (by simp [pauseAck]) _ rfl (by simp)
    | ok | credentials | started | swallowed => simp [pauseStep] at h
  · simp [pauseStep] at h

/-- A `pause` that has got its ack and not written the row changes nothing until it does. -/
lemma recording_step {pc : PausePc} {s : Manager} (hop : op = .pause)
    (hc : m.calls cid = .pause sid pc)
    (hpc : (∃ t l, pc = .locked t l ∧ ∀ second v, l ≠ .landed second (.ok v)) ∨
      ∃ e, pc = .done (.error e))
    (ha : Once pauseAck sid steps s) (hw : Never callWrites sid steps)
    (hr : Never resumeAck sid steps) (ht : Never arms sid steps)
    (h : m.pauseStep cfg cid sid pc r = some m') :
    m'.account sid = m.account sid ∧
      Standing op sid m₀ ((m, .call cid r) :: steps) (m'.calls cid)
        (drift s (s.pauseBookkeeping sid) sid) := by
  rcases hpc with ⟨t, l, rfl, hl⟩ | ⟨e, rfl⟩
  · have ha' := ha.cons (pauseAck_of_pause (r := r) hc (by simp))
    have hw' := hw.cons (m := m) (l := .call cid r) callWrites_of_call
    have hr' := hr.cons (m := m) (l := .call cid r) (resumeAck_of_pause hc)
    have ht' := ht.cons (m := m) (l := .call cid r) (arms_of_pause hc (by simp))
    simp only [pauseStep, Option.map_eq_some_iff] at h
    obtain ⟨x, hx, rfl⟩ := h
    cases x with
    | more l' =>
        refine ⟨by simp, ?_⟩
        simp only [setCall_calls, Function.update_self]
        exact .recording hop (Or.inl ⟨_, _, rfl, fun _ _ => (Locked.resume_more hx).2 _ _⟩)
          ha' hw' hr' ht'
    | returned v =>
        obtain ⟨second, he⟩ := Locked.resume_returned hx
        exact absurd he (hl second v)
    | raised e =>
        refine ⟨by simp, ?_⟩
        simp only [setCall_calls, Function.update_self]
        exact .recording hop (Or.inr ⟨e, rfl⟩) ha' hw' hr' ht'
  · simp [pauseStep] at h

/-- A `pause` that has written the row changes nothing any more, unless it succeeds. -/
lemma written_step {pc : PausePc} {s w : Manager} (hop : op = .pause)
    (hc : m.calls cid = .pause sid pc)
    (hpc : (∃ t second v, pc = .locked t (.landed second (.ok v))) ∨ pc = .audit ∨
      pc = .publish ∨ ∃ e, pc = .done (.error e))
    (ha : Once pauseAck sid steps s) (hw : Once callWrites sid steps w)
    (hr : Never resumeAck sid steps) (ht : Never arms sid steps)
    (h : m.pauseStep cfg cid sid pc r = some m') :
    m'.calls cid = .pause sid (.done (.ok ())) ∨ m'.account sid = m.account sid ∧
      Standing op sid m₀ ((m, .call cid r) :: steps) (m'.calls cid)
        (drift s (s.pauseBookkeeping sid) sid + w.paintPaused sid) := by
  have ha' := ha.cons (pauseAck_of_pause (r := r) hc (by rintro v rfl; simp at hpc))
  have hw' := hw.cons (m := m) (l := .call cid r) callWrites_of_call
  have hr' := hr.cons (m := m) (l := .call cid r) (resumeAck_of_pause hc)
  have hgo : m.arms (.call cid r) ≠ some sid → ∀ pc',
      ((∃ t second v, pc' = .locked t (.landed second (.ok v))) ∨ pc' = .audit ∨
        pc' = .publish ∨ ∃ e, pc' = .done (.error e)) →
      Standing op sid m₀ ((m, .call cid r) :: steps) (.pause sid pc')
        (drift s (s.pauseBookkeeping sid) sid + w.paintPaused sid) :=
    fun hn pc' hpc' => .written hop hpc' ha' hw' hr' (ht.cons hn)
  rcases hpc with ⟨t, second, v, rfl⟩ | rfl | rfl | ⟨e, rfl⟩
  · have hgo := hgo (arms_of_pause hc (by simp))
    simp only [pauseStep, Option.map_eq_some_iff] at h
    obtain ⟨x, hx, rfl⟩ := h
    cases x with
    | more l' => exact absurd rfl ((Locked.resume_more hx).1 _ _)
    | returned v' =>
        refine Or.inr ⟨by simp [account_modify_state], ?_⟩
        simp only [setCall_calls, Function.update_self]
        exact hgo _ (by simp)
    | raised e =>
        refine Or.inr ⟨by simp, ?_⟩
        simp only [setCall_calls, Function.update_self]
        exact hgo _ (by simp)
  · have hgo := hgo (arms_of_pause hc (by simp))
    cases r with
    | ok =>
        cases h
        refine Or.inr ⟨by simp, ?_⟩
        simp only [setCall_calls, Function.update_self]
        exact hgo _ (by simp)
    | raise e =>
        simp only [pauseStep] at h
        split at h
        · cases h
          refine Or.inr ⟨by simp, ?_⟩
          simp only [setCall_calls, Function.update_self]
          exact hgo _ (by simp)
        · cases h
          refine Or.inr ⟨by simp, ?_⟩
          simp only [setCall_calls, Function.update_self]
          exact hgo _ (by simp)
    | ack | credentials | started | swallowed => simp [pauseStep] at h
  · cases r with
    | ok =>
        cases h
        exact Or.inl (by simp)
    | raise e =>
        cases h
        refine Or.inr ⟨by simp, ?_⟩
        simp only [setCall_calls, Function.update_self]
        exact hgo (by simp [arms, hc]) _ (by simp)
    | ack | credentials | started | swallowed => simp [pauseStep] at h
  · simp [pauseStep] at h

/-- The database writes `paused` on behalf of a `pause`, or does not find the version. -/
lemma pauseCommit_step {t : Time} {l : Locked} (hc : m.calls cid = .pause sid (.locked t l))
    (h : m.callCommit cid = some m') :
    m.callWrites (.callCommit cid) ≠ some sid ∧ m'.account sid = m.account sid ∧
        (∃ second e, m'.calls cid = .pause sid (.locked t (.landed second (.error e)))) ∨
      m.callWrites (.callCommit cid) = some sid ∧
        m'.account sid = m.account sid + m.paintPaused sid ∧
        ∃ second v, m'.calls cid = .pause sid (.locked t (.landed second (.ok v))) := by
  simp only [callCommit, hc, Option.map_eq_some_iff] at h
  obtain ⟨⟨row', l'⟩, hp, rfl⟩ := h
  rcases Locked.commit_row (pauseFields_isEmpty t) hp with
    ⟨hr, second, v, e, rfl, hl', hv⟩ | ⟨row, second, v, hr, hw, hv, rfl, hl'⟩
  · refine Or.inl ⟨?_, ?_, second, e, by simp [hl']⟩
    · have : (m.sess sid).row.any (·.version = v) = false := by
        cases hrow : (m.sess sid).row with
        | none => rfl
        | some x => simpa using hv x hrow
      simp [callWrites, hc, this]
    · rw [account_setCall]
      funext i
      cases i <;> simp_all [account]
  · refine Or.inr ⟨by simp [callWrites, hc, hr, hv], ?_, second, v + 1, by simp [hl']⟩
    rw [account_setCall]
    funext i
    cases i <;> simp_all [account, paintPaused, pauseFields]

lemma resumeAck_of_resume {pc : ResumePc} (hc : m.calls cid = .resume sid pc)
    (hpc : ∀ v, pc ≠ .ack v) : m.resumeAck (.call cid r) ≠ some sid := by
  cases r with
  | ack b =>
      cases b with
      | true =>
          simp only [resumeAck, hc]
          split <;> simp_all
      | false => simp [resumeAck]
  | ok | credentials | started | swallowed | raise => simp [resumeAck]

/-- A `resume` of a session that is not paused changes nothing. -/
lemma refused_step {pc : ResumePc} (hop : op = .resume) (h₀ : m₀.resumes sid = false)
    (hc : m.calls cid = .resume sid pc) (hpc : pc = .missing ∨ ∃ e, pc = .done (.error e))
    (ha : Never pauseAck sid steps) (hw : Never callWrites sid steps)
    (hr : Never resumeAck sid steps) (ht : Never arms sid steps)
    (h : m.resumeStep cfg cid sid pc r = some m') :
    m'.account sid = m.account sid ∧
      Standing op sid m₀ ((m, .call cid r) :: steps) (m'.calls cid) 0 := by
  rcases hpc with rfl | ⟨e, rfl⟩
  · have hgo : ∀ e, Standing op sid m₀ ((m, .call cid r) :: steps)
        (.resume sid (.done (.error e))) 0 := fun e =>
      .refused hop h₀ (Or.inr ⟨e, rfl⟩) (ha.cons (pauseAck_of_resume hc))
        (hw.cons callWrites_of_call) (hr.cons (resumeAck_of_resume hc (by simp)))
        (ht.cons (by simp [arms, hc]))
    cases r with
    | ok | raise =>
        cases h
        refine ⟨by simp, ?_⟩
        simp only [setCall_calls, Function.update_self]
        exact hgo _
    | ack | credentials | started | swallowed => simp [resumeStep] at h
  · simp [resumeStep] at h

/-- The account when the timer is armed. -/
lemma account_armPausedTimer (cfg : ManagerConfig) (m : Manager) (sid : SessionId)
    (d : Option ℕ) : (m.armPausedTimer cfg sid d).account sid
      = m.account sid + Pi.single .timed (!(m.sess sid).timer.any Timer.isLive).toInt := by
  funext i
  cases i with
  | timed =>
      have hl : Option.any Timer.isLive (some (.armed (m.clock + d.getD cfg.pausedTimeoutS)))
          = true := rfl
      simp only [account, armPausedTimer_sess, Function.update_self, hl, Pi.add_apply,
        Pi.single_eq_same]
      cases (m.sess sid).timer.any Timer.isLive <;> rfl
  | paused | holds =>
      simp only [account, Pi.add_apply, ne_eq, reduceCtorEq, not_false_eq_true,
        Pi.single_eq_of_ne, add_zero]
      rfl
  | _ => simp [account]

/-- The account when the semaphore is replaced. -/
lemma account_sem (m : Manager) (sid : SessionId) (sem : Semaphore Waiter) :
    { m with sem := sem }.account sid
      = m.account sid + Pi.single .free ((sem.free : ℤ) - m.sem.free) := by
  funext i
  cases i <;> simp [account]

/-- A `resume` without a slot changes nothing but the semaphore and the timer. -/
lemma queueing_step {pc : ResumePc} (hop : op = .resume) (h₀ : m₀.resumes sid = true)
    (hc : m.calls cid = .resume sid pc)
    (hpc : pc = .version ∨ (∃ v, pc = .acquire v) ∨ ∃ e, pc = .done (.error e))
    (ha : Never pauseAck sid steps) (hw : Never callWrites sid steps)
    (hr : Never resumeAck sid steps) (ht : Never arms sid steps)
    (h : m.resumeStep cfg cid sid pc r = some m') :
    ∃ d, m'.account sid = m.account sid + d ∧
      Standing op sid m₀ ((m, .call cid r) :: steps) (m'.calls cid)
        (-Pi.single .timed (m₀.takesTimer sid op).toInt + d) := by
  have ha' := ha.cons (m := m) (l := .call cid r) (pauseAck_of_resume hc)
  have hw' := hw.cons (m := m) (l := .call cid r) callWrites_of_call
  have hr' := hr.cons (m := m) (l := .call cid r)
    (resumeAck_of_resume hc (by rintro v rfl; simp at hpc))
  -- the call goes on without a slot, or takes one
  have hqueue : m.arms (.call cid r) ≠ some sid → ∀ sem pc',
      m' = { m with sem := sem }.setCall cid (.resume sid pc') → sem.free = m.sem.free →
      (pc' = .version ∨ (∃ v, pc' = .acquire v) ∨ ∃ e, pc' = .done (.error e)) →
      ∃ d, m'.account sid = m.account sid + d ∧
        Standing op sid m₀ ((m, .call cid r) :: steps) (m'.calls cid)
          (-Pi.single .timed (m₀.takesTimer sid op).toInt + d) := by
    rintro hn sem pc' rfl hf hpc'
    refine ⟨0, by rw [account_setCall, account_sem, hf]; simp, ?_⟩
    simp only [setCall_calls, Function.update_self, add_zero]
    exact .queueing hop h₀ hpc' ha' hw' hr' (ht.cons hn)
  have htake : m.arms (.call cid r) ≠ some sid → ∀ sem v,
      m' = { m with sem := sem }.setCall cid (.resume sid (.ack v)) → sem.free + 1 = m.sem.free →
      ∃ d, m'.account sid = m.account sid + d ∧
        Standing op sid m₀ ((m, .call cid r) :: steps) (m'.calls cid)
          (-Pi.single .timed (m₀.takesTimer sid op).toInt + d) := by
    rintro hn sem v rfl hf
    have hd : (sem.free : ℤ) - m.sem.free = -1 := by omega
    refine ⟨-Pi.single .free 1, by rw [account_setCall, account_sem, hd, Pi.single_neg], ?_⟩
    simp only [setCall_calls, Function.update_self, ← sub_eq_add_neg]
    exact .holding hop h₀ ha' hw' hr' (ht.cons hn)
  rcases hpc with rfl | ⟨v, rfl⟩ | ⟨e, rfl⟩
  · have hn : m.arms (.call cid r) ≠ some sid := by simp [arms, hc]
    cases r with
    | ok =>
        simp only [resumeStep] at h
        split at h
        · cases h
          exact hqueue hn m.sem _ rfl rfl (by simp)
        · cases hs : m.sem.acquire (.call cid) with
          | mk sem atOnce =>
              simp only [hs, Option.some.injEq] at h
              subst h
              cases atOnce with
              | true => exact htake hn sem _ rfl (Semaphore.free_acquire_true hs)
              | false => exact hqueue hn sem _ rfl (Semaphore.free_acquire_false hs) (by simp)
    | raise e =>
        cases h
        exact hqueue hn m.sem _ rfl rfl (by simp)
    | ack | credentials | started | swallowed => simp [resumeStep] at h
  · cases r with
    | ok =>
        simp only [resumeStep, Option.map_eq_some_iff] at h
        obtain ⟨sem, hs, rfl⟩ := h
        exact htake (by simp [arms, hc]) sem _ rfl (Semaphore.free_resume hs)
    | raise e =>
        by_cases he : e = .timeoutError
        · subst he
          cases h
          refine ⟨Pi.single .timed (!(m.sess sid).timer.any Timer.isLive).toInt, ?_, ?_⟩
          · rw [account_setCall, account_armPausedTimer, account_sem]
            simp
          · simp only [setCall_calls, Function.update_self]
            exact .rolledBack hop h₀ ha' hw' hr' (ht.once (by simp [arms, hc]))
        · simp only [resumeStep, he, if_false, Option.some.injEq] at h
          exact hqueue (by simp [arms, hc, he]) _ _ h.symm (Semaphore.free_abandon ..) (by simp)
    | ack | credentials | started | swallowed => simp [resumeStep] at h
  · simp [resumeStep] at h

/-- A `resume` with a slot puts it back and arms the timer, or gets its ack. -/
lemma holding_step {v : ℕ} (hop : op = .resume) (h₀ : m₀.resumes sid = true)
    (hc : m.calls cid = .resume sid (.ack v))
    (ha : Never pauseAck sid steps) (hw : Never callWrites sid steps)
    (hr : Never resumeAck sid steps) (ht : Never arms sid steps)
    (h : m.resumeStep cfg cid sid (.ack v) r = some m') :
    ∃ d, m'.account sid = m.account sid + d ∧
      Standing op sid m₀ ((m, .call cid r) :: steps) (m'.calls cid)
        (-Pi.single .timed (m₀.takesTimer sid op).toInt - Pi.single .free 1 + d) := by
  have hback : m.arms (.call cid r) = some sid → m.resumeAck (.call cid r) ≠ some sid → ∀ e,
      m' = (m.resumeRollBack cfg sid).setCall cid (.resume sid (.done (.error e))) →
      ∃ d, m'.account sid = m.account sid + d ∧
        Standing op sid m₀ ((m, .call cid r) :: steps) (m'.calls cid)
          (-Pi.single .timed (m₀.takesTimer sid op).toInt - Pi.single .free 1 + d) := by
    rintro hn hn' e rfl
    have hs : m.semRelease.account sid = m.account sid + Pi.single .free 1 := by
      rw [semRelease, account_sem]
      simp
    refine ⟨Pi.single .free 1 + Pi.single .timed (!(m.sess sid).timer.any Timer.isLive).toInt,
      ?_, ?_⟩
    · rw [account_setCall, resumeRollBack, account_armPausedTimer, hs, add_assoc]
      rfl
    · simp only [setCall_calls, Function.update_self, ← add_assoc, sub_add_cancel]
      exact .rolledBack hop h₀ (ha.cons (pauseAck_of_resume hc)) (hw.cons callWrites_of_call)
        (hr.cons hn') (ht.once hn)
  cases r with
  | ack b =>
      cases b with
      | true =>
          cases h
          refine ⟨drift m (m.takeSlotBack sid) sid, by simp [drift], ?_⟩
          simp only [setCall_calls, Function.update_self]
          refine .resumed (Or.inl ⟨_, rfl⟩) ⟨_, List.mem_cons_self, by simp [resumeAck, hc]⟩ ?_
          simp [drift, account]
      | false =>
          cases h
          exact hback (by simp [arms, hc]) (by simp [resumeAck]) _ rfl
  | raise e =>
      cases h
      exact hback (by simp [arms, hc]) (by simp [resumeAck]) _ rfl
  | ok | credentials | started | swallowed => simp [resumeStep] at h

/-- A `resume` that has got its ack leaves the semaphore alone. -/
lemma resumed_step {pc : ResumePc} (hc : m.calls cid = .resume sid pc)
    (hpc : (∃ l, pc = .locked l) ∨ pc = .audit ∨ pc = .publish ∨ ∃ r, pc = .done r)
    (hr : ∃ p ∈ steps, p.1.resumeAck p.2 = some sid) (hf : own .free = -1)
    (h : m.resumeStep cfg cid sid pc r = some m') :
    ∃ d, m'.account sid = m.account sid + d ∧
      Standing op sid m₀ ((m, .call cid r) :: steps) (m'.calls cid) (own + d) := by
  refine ⟨drift m m' sid, by simp [drift], ?_⟩
  obtain ⟨p, hp, he⟩ := hr
  have hgo : ∀ pc', ((∃ l, pc' = .locked l) ∨ pc' = .audit ∨ pc' = .publish ∨ ∃ r, pc' = .done r) →
      m'.sem = m.sem → Standing op sid m₀ ((m, .call cid r) :: steps) (.resume sid pc')
        (own + drift m m' sid) := fun pc' hpc' hs =>
    .resumed hpc' ⟨p, by simp [hp], he⟩ (by simp [drift, account, hs, hf])
  rcases hpc with ⟨l, rfl⟩ | rfl | rfl | ⟨x, rfl⟩
  · simp only [resumeStep, Option.map_eq_some_iff] at h
    obtain ⟨x, hx, rfl⟩ := h
    cases x with
    | more | returned | raised =>
        simp only [setCall_calls, Function.update_self]
        exact hgo _ (by simp) rfl
  · cases r with
    | ok =>
        cases h
        simp only [setCall_calls, Function.update_self]
        exact hgo _ (by simp) rfl
    | raise e =>
        simp only [resumeStep] at h
        split at h
        · cases h
          simp only [setCall_calls, Function.update_self]
          exact hgo _ (by simp) rfl
        · cases h
          simp only [setCall_calls, Function.update_self]
          exact hgo _ (by simp) rfl
    | ack | credentials | started | swallowed => simp [resumeStep] at h
  · cases r with
    | ok | raise =>
        cases h
        simp only [setCall_calls, Function.update_self]
        exact hgo _ (by simp) rfl
    | ack | credentials | started | swallowed => simp [resumeStep] at h
  · simp [resumeStep] at h

/-- So does the database. -/
lemma resumeCommit_step {l : Locked} (hc : m.calls cid = .resume sid (.locked l))
    (hr : ∃ p ∈ steps, p.1.resumeAck p.2 = some sid) (hf : own .free = -1)
    (h : m.callCommit cid = some m') :
    ∃ d, m'.account sid = m.account sid + d ∧
      Standing op sid m₀ ((m, .callCommit cid) :: steps) (m'.calls cid) (own + d) := by
  refine ⟨drift m m' sid, by simp [drift], ?_⟩
  obtain ⟨p, hp, he⟩ := hr
  simp only [callCommit, hc, Option.map_eq_some_iff] at h
  obtain ⟨x, -, rfl⟩ := h
  simp only [setCall_calls, Function.update_self]
  exact .resumed (Or.inl ⟨_, rfl⟩) ⟨p, by simp [hp], he⟩ (by simp [drift, account, hf])

/-- **What one step of the call does is in its standing.** -/
theorem Standing.own_step {l : Label} (hl : l.runs cid = true) (h : m.step cfg l = some m')
    (hs : Standing op sid m₀ steps (m.calls cid) own) :
    ∃ d, m'.account sid = m.account sid + d ∧
      Standing op sid m₀ ((m, l) :: steps) (m'.calls cid) (own + d) := by
  generalize hc : m.calls cid = c at hs
  have hl' : (∃ r, l = .call cid r) ∨ l = .callCommit cid := by
    cases l <;> simp_all [Label.runs]
  rcases hl' with ⟨r, rfl⟩ | rfl
  · simp only [step, callStep, hc] at h
    cases hs with
    | asking hop hpc ha hw hr ht =>
        obtain ⟨d, hd, hs⟩ := asking_step hop hc hpc ha hw hr ht h
        exact ⟨d, hd, by rwa [zero_add]⟩
    | recording hop hpc ha hw hr ht =>
        obtain ⟨hd, hs⟩ := recording_step hop hc hpc ha hw hr ht h
        exact ⟨0, by rw [hd, add_zero], by rwa [add_zero]⟩
    | written hop hpc ha hw hr ht =>
        rcases written_step hop hc hpc ha hw hr ht h with hd | ⟨hd, hs⟩
        · exact ⟨drift m m' sid, by simp [drift], by rw [hd]; exact .paused⟩
        · exact ⟨0, by rw [hd, add_zero], by rwa [add_zero]⟩
    | paused => simp [pauseStep] at h
    | refused hop h₀ hpc ha hw hr ht =>
        obtain ⟨hd, hs⟩ := refused_step hop h₀ hc hpc ha hw hr ht h
        exact ⟨0, by rw [hd, add_zero], by rwa [add_zero]⟩
    | queueing hop h₀ hpc ha hw hr ht => exact queueing_step hop h₀ hc hpc ha hw hr ht h
    | holding hop h₀ ha hw hr ht => exact holding_step hop h₀ hc ha hw hr ht h
    | rolledBack => simp [resumeStep] at h
    | resumed hpc hr hf => exact resumed_step hc hpc hr hf h
  · simp only [step] at h
    cases hs with
    | recording hop hpc ha hw hr ht =>
        rcases hpc with ⟨t, l, rfl, -⟩ | ⟨e, rfl⟩
        · have ha' := ha.cons (m := m) (l := .callCommit cid) (by simp [pauseAck])
          have hr' := hr.cons (m := m) (l := .callCommit cid) (by simp [resumeAck])
          have ht' := ht.cons (m := m) (l := .callCommit cid) (by simp [arms])
          rcases pauseCommit_step hc h with ⟨hn, hd, _, _, hc'⟩ | ⟨hn, hd, _, _, hc'⟩
          · refine ⟨0, by rw [hd, add_zero], ?_⟩
            rw [hc', add_zero]
            exact .recording hop (Or.inl ⟨_, _, rfl, by simp⟩) ha' (hw.cons hn) hr' ht'
          · refine ⟨_, hd, ?_⟩
            rw [hc']
            exact .written hop (Or.inl ⟨_, _, _, rfl⟩) ha' (hw.once hn) hr' ht'
        · simp [callCommit, hc] at h
    | written hop hpc ha hw hr ht =>
        rcases hpc with ⟨t, second, v, rfl⟩ | rfl | rfl | ⟨e, rfl⟩ <;>
          simp [callCommit, hc, Locked.commit] at h
    | asking hop hpc ha hw hr ht =>
        rcases hpc with rfl | rfl | ⟨v, rfl⟩ | ⟨e, rfl⟩ <;> simp [callCommit, hc] at h
    | refused hop h₀ hpc ha hw hr ht =>
        rcases hpc with rfl | ⟨e, rfl⟩ <;> simp [callCommit, hc] at h
    | queueing hop h₀ hpc ha hw hr ht =>
        rcases hpc with rfl | ⟨v, rfl⟩ | ⟨e, rfl⟩ <;> simp [callCommit, hc] at h
    | resumed hpc hr hf =>
        rcases hpc with ⟨l, rfl⟩ | rfl | rfl | ⟨x, rfl⟩
        · exact resumeCommit_step hc hr hf h
        all_goals simp [callCommit, hc] at h
    | paused | holding | rolledBack => simp [callCommit, hc] at h

end Steps

/-! ### The whole call -/

section Whole

variable {cfg : ManagerConfig} {op : PauseOp} {sid : SessionId} {m₀ m : Manager}
  {steps : List (Manager × Label)} {own others : PauseItem → ℤ}

lemma standing_enter : ∃ own, (op.enter cfg m₀ sid).account sid = m₀.account sid + own ∧
    Standing op sid m₀ [] ((op.enter cfg m₀ sid).calls m₀.nextCall) own := by
  cases op with
  | pause =>
      have hgo : ∀ pc, (pc = .missing ∨ pc = .version ∨ (∃ v, pc = .ack v) ∨
          ∃ e, pc = .done (.error e)) →
          ∃ own, (m₀.newCall (.pause sid pc)).account sid = m₀.account sid + own ∧
            Standing .pause sid m₀ [] ((m₀.newCall (.pause sid pc)).calls m₀.nextCall) own := by
        intro pc hpc
        refine ⟨0, by simp, ?_⟩
        simp only [newCall_calls, Function.update_self]
        exact .asking rfl hpc .nil .nil .nil .nil
      simp only [PauseOp.enter, pauseEntry]
      split
      · exact hgo _ (by simp)
      · split
        · refine ⟨drift m₀ (m₀.armPausedTimer cfg sid none) sid, by simp [drift], ?_⟩
          simp only [newCall_calls, armPausedTimer_nextCall, Function.update_self]
          exact .paused
        · split
          · exact hgo _ (by simp)
          · exact hgo _ (by simp)
  | resume =>
      simp only [PauseOp.enter, resumeEntry]
      split
      · rename_i h
        refine ⟨0, by simp, ?_⟩
        simp only [newCall_calls, Function.update_self]
        exact .refused rfl (by simpa [resumes, or_iff_not_imp_left] using h) (Or.inl rfl) .nil .nil
          .nil .nil
      · rename_i h
        have h₀ : m₀.resumes sid = true := by simpa [resumes] using h
        refine ⟨-Pi.single .timed (m₀.takesTimer sid .resume).toInt, ?_, ?_⟩
        · rw [account_newCall]
          funext i
          cases i with
          | timed =>
              simp [account, takesTimer, h₀]
              cases (m₀.sess sid).timer.any Timer.isLive <;> rfl
          | paused | holds =>
              simp [account]
          | _ => simp [account]
        · simp only [newCall_calls, cancelPausedTimer_nextCall, Function.update_self]
          exact .queueing rfl h₀ (Or.inl rfl) .nil .nil .nil .nil

lemma Attempt.reachable (hr : (managerSystem cfg).Reachable m₀)
    (h : Attempt cfg op sid m₀ steps others m) : (managerSystem cfg).Reachable m := by
  induction h with
  | enter =>
      cases op with
      | pause => exact .step (l := .pause sid) hr trivial rfl
      | resume => exact .step (l := .resume sid) hr trivial rfl
  | own h hl hs ih => exact .step ih trivial hs
  | other h hl hs ih => exact .step ih trivial hs

lemma Standing.fixed {c : Call} (h : Standing op sid m₀ steps c own) :
    c.cancelTask = c ∧ c ≠ .idle := by
  cases h <;> exact ⟨rfl, by simp⟩

/-- **The account of a session is what it was before the call, with what the others have done to it
and what the call has.** -/
theorem Attempt.standing (hr : (managerSystem cfg).Reachable m₀)
    (h : Attempt cfg op sid m₀ steps others m) :
    ∃ own, m.account sid = m₀.account sid + others + own ∧
      Standing op sid m₀ steps (m.calls m₀.nextCall) own := by
  induction h with
  | enter => simpa using standing_enter
  | @own steps others m m' l h hl hs ih =>
      obtain ⟨own, ha, hst⟩ := ih
      obtain ⟨d, hd, hst'⟩ := hst.own_step hl hs
      exact ⟨own + d, by rw [hd, ha, add_assoc], hst'⟩
  | @other steps others m m' l h hl hs ih =>
      obtain ⟨own, ha, hst⟩ := ih
      have hw := wellFormed_of_reachable (h.reachable hr)
      have hc := step_calls_of_other hst.fixed.1 hs hl (hw.cid_lt hst.fixed.2)
      refine ⟨own, ?_, by rwa [hc]⟩
      rw [drift, ← sub_eq_zero, ha]
      abel

end Whole

/-! ### The condition -/

lemma bookkeeping_eq_zero_iff {s : Manager} {sid : SessionId} :
    drift s (s.pauseBookkeeping sid) sid = 0 ↔ s.Recorded sid := by
  rw [drift, sub_eq_zero, account_eq_iff]
  constructor
  · rintro ⟨hp, ht, hk, hh, -, -, -, -⟩
    refine ⟨by simpa using hp, ?_, by simpa using hh, fun k he => ?_⟩
    · simpa [eq_comm] using ht
    · have := hk k
      simp [he, incrementKey] at this
  · rintro ⟨hp, ht, hh, hk⟩
    refine ⟨by simp [hp], by simp [ht], fun k => ?_, by simp [hh], by simp [hh], by simp [hh],
      by simp, by simp⟩
    rw [pauseBookkeeping_pausedByKey]
    rcases ha : (s.sess sid).apiKey with _ | _ | k'
    · rfl
    · rfl
    · exact absurd ha (hk k')

lemma paintPaused_eq_zero_iff {w : Manager} {sid : SessionId} :
    w.paintPaused sid = 0 ↔ (w.sess sid).row.map (·.status) = some .paused := by
  constructor
  · intro h
    have := congrFun h (.status (some .paused))
    simp only [paintPaused, if_true, Pi.zero_apply] at this
    by_contra hn
    simp [hn] at this
  · intro h
    funext i
    cases i <;> simp [paintPaused, h]

/-- The bookkeeping of a `pause` and its write of the row are about different entries. -/
lemma bookkeeping_add_paintPaused_eq_zero_iff {s w : Manager} {sid : SessionId} :
    drift s (s.pauseBookkeeping sid) sid + w.paintPaused sid = 0 ↔
      drift s (s.pauseBookkeeping sid) sid = 0 ∧ w.paintPaused sid = 0 := by
  refine ⟨fun h => ?_, fun h => by rw [h.1, h.2, add_zero]⟩
  constructor
  · funext i
    have hi := congrFun h i
    cases i with
    | status st => simp [drift, account]
    | _ => simpa [paintPaused] using hi
  · funext i
    have hi := congrFun h i
    cases i with
    | status st => simpa [drift, account] using hi
    | _ => rfl

/-- What a call that has raised has done comes to nothing if and only if `Undone`. -/
lemma Standing.eq_zero_iff {op : PauseOp} {sid : SessionId} {m₀ : Manager}
    {steps : List (Manager × Label)} {own : PauseItem → ℤ} {c : Call}
    (h : Standing op sid m₀ steps c own) (hc : c.raised = true) :
    own = 0 ↔ Undone op sid m₀ steps := by
  -- events that never happened make for no condition
  have hnever : ∀ {event} {P : Manager × Label → Prop}, Never event sid steps →
      ∀ p ∈ steps, event p.1 p.2 = some sid → P p := fun hn p hp he => absurd he (hn p hp)
  have hnone : Never arms sid steps → ∀ {P : Manager × Label → Prop},
      ¬∃ p ∈ steps, p.1.arms p.2 = some sid ∧ P p := fun hn P ⟨p, hp, he, _⟩ => hn p hp he
  cases h with
  | asking hop hpc ha hw hr ht =>
      refine iff_of_true rfl ⟨hnever ha, hnever hw, hr, ?_⟩
      simp [hop, takesTimer, hnone ht]
  | @recording pc s hop hpc ha hw hr ht =>
      have hp := ha.forall_iff fun m => m.Recorded sid
      rw [bookkeeping_eq_zero_iff]
      refine ⟨fun hs => ⟨hp.mpr hs, hnever hw, hr, ?_⟩, fun h => hp.mp h.pauseAck⟩
      simp [hop, takesTimer, hnone ht]
  | @written pc s w hop hpc ha hw hr ht =>
      have hp := ha.forall_iff fun m => m.Recorded sid
      have hq := hw.forall_iff fun m => (m.sess sid).row.map (·.status) = some .paused
      rw [bookkeeping_add_paintPaused_eq_zero_iff, bookkeeping_eq_zero_iff,
        paintPaused_eq_zero_iff]
      refine ⟨fun hs => ⟨hp.mpr hs.1, hq.mpr hs.2, hr, ?_⟩,
        fun h => ⟨hp.mp h.pauseAck, hq.mp h.writes⟩⟩
      simp [hop, takesTimer, hnone ht]
  | paused => simp [Call.raised] at hc
  | refused hop h₀ hpc ha hw hr ht =>
      refine iff_of_true rfl ⟨hnever ha, hnever hw, hr, ?_⟩
      simp [hop, takesTimer, h₀, hnone ht]
  | queueing hop h₀ hpc ha hw hr ht =>
      have he : (-Pi.single .timed (m₀.takesTimer sid op).toInt : PauseItem → ℤ) = 0 ↔
          m₀.takesTimer sid op = false := by
        rw [neg_eq_zero, Pi.single_eq_zero_iff]
        cases m₀.takesTimer sid op <;> simp
      rw [he]
      refine ⟨fun hf => ⟨hnever ha, hnever hw, hr, by simp [hf, hnone ht]⟩, fun h => ?_⟩
      simpa [hnone ht] using h.timer
  | holding => simp [Call.raised] at hc
  | @rolledBack e s hop h₀ ha hw hr ht =>
      have he : (-Pi.single .timed (m₀.takesTimer sid op).toInt
          + Pi.single .timed (!(s.sess sid).timer.any Timer.isLive).toInt : PauseItem → ℤ) = 0 ↔
          (m₀.takesTimer sid op = true ↔ (s.sess sid).timer.any Timer.isLive = false) := by
        rw [neg_add_eq_zero, Pi.single_inj]
        cases m₀.takesTimer sid op <;> cases (s.sess sid).timer.any Timer.isLive <;> simp
      have hex := ht.exists_iff fun m => (m.sess sid).timer.any Timer.isLive = false
      rw [he, ← hex]
      exact ⟨fun hf => ⟨hnever ha, hnever hw, hr, hf⟩, fun h => h.timer⟩
  | resumed hpc hr hf =>
      refine iff_of_false (fun h => ?_) fun h => ?_
      · rw [h] at hf
        simp at hf
      · obtain ⟨p, hp, he⟩ := hr
        exact h.resumeAck p hp he

/-- **A `pause` or a `resume` that has raised leaves the pause state of its session as it was
before the call, but for what others have done to it, if and only if its steps are `Undone`.** -/
theorem failed_call_restores_iff {cfg : ManagerConfig} {op : PauseOp} {sid : SessionId}
    {m₀ m : Manager} {steps : List (Manager × Label)} {others : PauseItem → ℤ}
    (hr : (managerSystem cfg).Reachable m₀) (h : Attempt cfg op sid m₀ steps others m)
    (hc : (m.calls m₀.nextCall).raised = true) :
    m.account sid = m₀.account sid + others ↔ Undone op sid m₀ steps := by
  obtain ⟨own, ha, hs⟩ := h.standing hr
  rw [ha, add_eq_left]
  exact hs.eq_zero_iff hc

/-- The steps of a run, each with the state it is made in, the latest first. -/
def trace (cfg : ManagerConfig) (m : Manager) : List Label → List (Manager × Label)
  | [] => []
  | l :: ls =>
      match m.step cfg l with
      | some m' => trace cfg m' ls ++ [(m, l)]
      | none => []

lemma Attempt.of_run {cfg : ManagerConfig} {op : PauseOp} {sid : SessionId} {m₀ : Manager}
    {others : PauseItem → ℤ} : ∀ {ls : List Label} {steps : List (Manager × Label)} {m m' : Manager},
    Attempt cfg op sid m₀ steps others m → (∀ l ∈ ls, l.runs m₀.nextCall = true) →
    (managerSystem cfg).run m ls = some m' →
    Attempt cfg op sid m₀ (trace cfg m ls ++ steps) others m'
  | [], _, _, _, ha, _, h => by
      cases h
      exact ha
  | l :: ls, steps, m, m', ha, hl, h => by
      obtain ⟨t, ht, hrun⟩ := Option.bind_eq_some_iff.mp h
      have ht : m.step cfg l = some t := ht
      have := Attempt.of_run (.own ha (hl l (by simp)) ht) (fun l' hl' => hl l' (by simp [hl'])) hrun
      simpa [trace, ht] using this

/-- The runner refuses the call `1`, a `pause`. -/
def refusal : List Label := [.call 1 .ok, .call 1 (.ack false)]

/-- The `pause` gets its ack and writes the row, and the event bus cannot persist the change. -/
def publishFailure : List Label :=
  [.call 1 .ok, .call 1 (.ack true), .callCommit 1, .call 1 .ok, .call 1 .ok,
    .call 1 (.raise (.other "unknown" 500))]

/-- A `pause` that the runner refuses leaves everything as it was. -/
theorem failed_call_restores_of_refusal :
    ∃ m₀ m, (managerSystem oneSlot).run (fresh oneSlot []) driveRun = some m₀ ∧
      (managerSystem oneSlot).run (PauseOp.enter oneSlot m₀ 0 .pause) refusal = some m ∧
      m.account 0 = m₀.account 0 + 0 := by
  have hrun : (((managerSystem oneSlot).run (fresh oneSlot []) driveRun).bind fun m₀ =>
      ((managerSystem oneSlot).run (PauseOp.enter oneSlot m₀ 0 .pause) refusal).map fun m =>
        let steps := trace oneSlot (PauseOp.enter oneSlot m₀ 0 .pause) refusal
        (m₀.nextCall = 1 ∧ (m.calls m₀.nextCall).raised = true ∧ Never pauseAck 0 steps ∧
          Never callWrites 0 steps ∧ Never resumeAck 0 steps ∧ Never arms 0 steps : Bool))
      = some true := by decide
  obtain ⟨m₀, hm₀, hrun⟩ := Option.bind_eq_some_iff.mp hrun
  obtain ⟨m, hm, hall⟩ := Option.map_eq_some_iff.mp hrun
  obtain ⟨hn, hc, ha, hw, hr, ht⟩ := of_decide_eq_true hall
  have hat := Attempt.of_run (@Attempt.enter oneSlot .pause 0 m₀) (by rw [hn]; decide) hm
  rw [List.append_nil] at hat
  refine ⟨m₀, m, hm₀, hm, (failed_call_restores_iff (reachable_of_run hm₀) hat hc).mpr
    ⟨fun p hp he => absurd he (ha p hp), fun p hp he => absurd he (hw p hp), hr, ?_⟩⟩
  refine iff_of_false (by simp [takesTimer]) ?_
  rintro ⟨p, hp, he, -⟩
  exact ht p hp he

/-- A `pause` that fails at its last `await`, with nobody else at work, leaves the session
paused. -/
theorem failed_pause_keeps_session_paused :
    ∃ m₀ m steps, (managerSystem oneSlot).run (fresh oneSlot []) driveRun = some m₀ ∧
      (managerSystem oneSlot).Reachable m₀ ∧ Attempt oneSlot .pause 0 m₀ steps 0 m ∧
      (m.calls m₀.nextCall).raised = true ∧ 0 ∉ m₀.pausedSet ∧ 0 ∈ m.pausedSet ∧
      m.sem.value = m₀.sem.value + 1 ∧ m.account 0 ≠ m₀.account 0 := by
  have hrun : (((managerSystem oneSlot).run (fresh oneSlot []) driveRun).bind fun m₀ =>
      ((managerSystem oneSlot).run (PauseOp.enter oneSlot m₀ 0 .pause) publishFailure).map fun m =>
        (m₀.nextCall = 1 ∧ (m.calls m₀.nextCall).raised = true ∧ 0 ∉ m₀.pausedSet ∧
          0 ∈ m.pausedSet ∧ m.sem.value = m₀.sem.value + 1 : Bool)) = some true := by decide
  obtain ⟨m₀, hm₀, hrun⟩ := Option.bind_eq_some_iff.mp hrun
  obtain ⟨m, hm, hall⟩ := Option.map_eq_some_iff.mp hrun
  obtain ⟨hn, hc, h₀, h₁, hv⟩ := of_decide_eq_true hall
  have hat := Attempt.of_run (@Attempt.enter oneSlot .pause 0 m₀) (by rw [hn]; decide) hm
  refine ⟨m₀, m, _, hm₀, reachable_of_run hm₀, hat, hc, h₀, h₁, hv, fun he => ?_⟩
  exact h₀ ((account_eq_iff.mp he).1.mp h₁)

end Manager

end GgRelay
