import GgRelay.Session.Manager.WellFormed

/-!
The account of the concurrency slots: the counter of the semaphore and the slots somebody owns
make up `max_concurrent`.

* `Manager.slotsOwned` counts the owners: a slot granted to a waiter, a task from its
  acquisition to its `finally` block unless `pause` has released its slot, and a `resume` from
  its acquisition until it gives the slot to the session or puts it back;
* `SlotGuard` is the condition under which a step keeps the account, `SlotInv` the invariant;
* `slots_conserved` is the result about runs, `cancel_paused_releases_twice` a run that leaves
  one slot too many.
-/

namespace GgRelay

/-- The task has its slot: it has acquired one, has not ended and has not handed it over. -/
def Session.ownsSlot (s : Session) : Bool := decide (s.run.phase = .held) && !s.handedOver

/-- The call is a `resume` that has acquired a slot and has not handed it over or put it back. -/
def Call.ownsSlot (c : Call) : Bool :=
  match c.phase with
  | .holding _ => true
  | _ => false

namespace Manager

variable (cfg : ManagerConfig) (m : Manager)

/-- The slots that are in somebody's hands. -/
def slotsOwned : ℕ :=
  tally Session.ownsSlot m.sess m.nextSid + tally Call.ownsSlot m.calls m.nextCall + m.sem.granted

/-- The sessions that run and are not paused. -/
def runningUnpaused : ℕ :=
  Nat.count (fun sid => (m.sess sid).run.phase = .held ∧ sid ∉ m.pausedSet) m.nextSid

/-- The steps that keep the account: no `pause` gets its ack after the session has ended, no
`resume` gets it when the session is not paused any more, and no paused session is cancelled. -/
structure SlotGuard (l : Label) : Prop where
  pauseAck : ∀ sid ∈ m.pauseAck l, (m.sess sid).run.phase = .held
  resumeAck : ∀ sid ∈ m.resumeAck l, sid ∈ m.pausedSet
  cancels : ∀ sid ∈ m.cancels l, sid ∉ m.pausedSet

instance (l : Label) : Decidable (m.SlotGuard l) :=
  decidable_of_iff
    ((∀ sid ∈ m.pauseAck l, (m.sess sid).run.phase = .held) ∧
      (∀ sid ∈ m.resumeAck l, sid ∈ m.pausedSet) ∧ ∀ sid ∈ m.cancels l, sid ∉ m.pausedSet)
    ⟨fun h => ⟨h.1, h.2.1, h.2.2⟩, fun h => ⟨h.pauseAck, h.resumeAck, h.cancels⟩⟩

/-- The slots that are free and those that are owned make up `max_concurrent`. -/
def Balanced : Prop :=
  m.sem.free + tally Session.ownsSlot m.sess m.nextSid
    + tally Call.ownsSlot m.calls m.nextCall = cfg.maxConcurrent

/-- The account, and what `_paused_holds_slot` says about it. -/
structure SlotInv : Prop where
  balanced : m.sem.free + tally Session.ownsSlot m.sess m.nextSid
    + tally Call.ownsSlot m.calls m.nextCall = cfg.maxConcurrent
  holds : ∀ sid, sid ∈ m.pausedHoldsSlot ↔
    (m.sess sid).run.phase = .held ∧ (m.sess sid).handedOver = true
  paused : m.pausedSet = m.pausedHoldsSlot

variable {cfg m} {m' : Manager} {l : Label}

/-- A call that drafts a session has no slot, -/
lemma Drafts.ownsSlot {c : Call} {n : SessionId} (hc : m.Drafts c n) : c.ownsSlot = false := by
  rcases hc with ⟨h, -⟩ | ⟨h, -⟩ <;> simp [Call.ownsSlot, h]

/-- and the session it drafts has none. -/
lemma WellFormed.tally_drafts (hw : m.WellFormed) {c : Call} {n : SessionId}
    (hc : m.Drafts c n) :
    tally Session.ownsSlot m.sess n = tally Session.ownsSlot m.sess m.nextSid := by
  have hnew : (m.sess m.nextSid).ownsSlot = false := by
    rw [hw.unused _ le_rfl]
    rfl
  have hs := tally_succ Session.ownsSlot m.sess m.nextSid
  rw [hnew, Bool.toNat_false, Nat.add_zero] at hs
  rcases hc with ⟨-, rfl | rfl⟩ | ⟨-, rfl⟩
  · rfl
  · exact hs
  · exact hs

namespace SlotInv

lemma holds_step (hi : m.SlotInv cfg) (hw : m.WellFormed) (hg : m.SlotGuard l)
    (h : Move cfg m l m') : ∀ sid, sid ∈ m'.pausedHoldsSlot ↔
      (m'.sess sid).run.phase = .held ∧ (m'.sess sid).handedOver = true := by
  intro sid
  have hh := hi.holds sid
  have hn := hw.handed
  have hs := hw.submitting
  obtain ⟨ga, gr, gc⟩ := hg
  cases h with
  | _ =>
    simp [Function.update_apply] <;>
    grind

lemma paused_step (hi : m.SlotInv cfg) (hg : m.SlotGuard l)
    (h : Move cfg m l m') : m'.pausedSet = m'.pausedHoldsSlot := by
  have hh := hi.paused
  obtain ⟨ga, gr, gc⟩ := hg
  cases h with
  | _ =>
    simp <;>
    grind

/-- Stopping a watchdog moves no slot. -/
lemma ownsSlot_cancelTimerTask (calls : CallId → Call) (t : Option Timer) (cid : CallId) :
    (cancelTimerTask calls t cid).ownsSlot = (calls cid).ownsSlot := by
  grind [Call.ownsSlot]

lemma tally_cancelTimerTask (calls : CallId → Call) (t : Option Timer) (n : ℕ) :
    tally Call.ownsSlot (cancelTimerTask calls t) n = tally Call.ownsSlot calls n :=
  tally_congr _ fun _ _ => ownsSlot_cancelTimerTask _ _ _

section Balanced

variable {cid : CallId} {c : Call} {sid : SessionId}

lemma balanced_pauseAcked (hi : m.SlotInv cfg) (hw : m.WellFormed)
    (hheld : (m.sess sid).run.phase = .held) (h : (m.calls cid).phase = .asking sid)
    (hc : c.phase = .recording sid) :
    ((m.pauseBookkeeping sid).setCall cid c).Balanced cfg := by
  have hb := hi.balanced
  have hlt : sid < m.nextSid := hw.sid_lt (by simp [hheld])
  simp only [Balanced, setCall_sem, setCall_sess, setCall_nextSid, setCall_calls,
    setCall_nextCall, pauseBookkeeping_sem, pauseBookkeeping_nextSid, pauseBookkeeping_nextCall,
    pauseBookkeeping_calls, pauseBookkeeping_sess]
  rw [tally_update_congr Call.ownsSlot m.calls (by simp [Call.ownsSlot, h, hc])]
  by_cases hm : sid ∈ m.pausedHoldsSlot
  · -- the slot has been handed over before
    have hho := ((hi.holds sid).mp hm).2
    rw [if_pos hm, tally_update_congr Session.ownsSlot m.sess (by simp [Session.ownsSlot, hho])]
    exact hb
  · -- the task has its slot, and hands it over
    have hho : (m.sess sid).handedOver = false := by
      simpa [hheld] using (hi.holds sid).not.mp hm
    have hx := tally_update Session.ownsSlot m.sess hlt
      { m.sess sid with
        pausedAt := some m.clock
        handedOver := (m.sess sid).handedOver || decide (sid ∉ m.pausedHoldsSlot) }
    rw [if_neg hm, Semaphore.free_release]
    simp only [Session.ownsSlot, hho, hheld, hm, not_false_eq_true, decide_true, Bool.or_true,
      Bool.not_true, Bool.not_false, Bool.and_false, Bool.and_true, Bool.toNat_true,
      Bool.toNat_false] at hx ⊢
    omega

/-- The slot of the call becomes the slot of the task. -/
lemma balanced_resumeAcked (hi : m.SlotInv cfg) (hw : m.WellFormed) (hp : sid ∈ m.pausedSet)
    (h : (m.calls cid).phase = .holding sid) (hc : c.phase = .resumed sid) :
    ((m.takeSlotBack sid).setCall cid c).Balanced cfg := by
  have hb := hi.balanced
  obtain ⟨hheld, hho⟩ := (hi.holds sid).mp (hi.paused ▸ hp)
  have hlt : sid < m.nextSid := hw.sid_lt (by simp [hheld])
  have hlc : cid < m.nextCall := hw.cid_lt fun hidle => by simp [hidle] at h
  have hx := tally_update Session.ownsSlot m.sess hlt
    { m.sess sid with pausedAt := none, handedOver := false }
  have hy := tally_update Call.ownsSlot m.calls hlc c
  simp only [Session.ownsSlot, hho, hheld, decide_true, Bool.not_true, Bool.not_false,
    Bool.and_false, Bool.and_true, Bool.toNat_true, Bool.toNat_false] at hx
  simp only [Call.ownsSlot, h, hc, Bool.toNat_true, Bool.toNat_false] at hy
  simp only [Balanced, setCall_sem, setCall_sess, setCall_nextSid, setCall_calls,
    setCall_nextCall, takeSlotBack_sem, takeSlotBack_nextSid, takeSlotBack_nextCall,
    takeSlotBack_calls, takeSlotBack_sess]
  omega

/-- The call puts its slot back. -/
lemma balanced_resumeRolledBack (hi : m.SlotInv cfg) (hw : m.WellFormed)
    (h : (m.calls cid).phase = .holding sid) (hc : c.phase = .idle) :
    ((m.resumeRollBack cfg sid).setCall cid c).Balanced cfg := by
  have hb := hi.balanced
  have hlc : cid < m.nextCall := hw.cid_lt fun hidle => by simp [hidle] at h
  have hown : (cancelTimerTask m.calls (m.sess sid).timer cid).ownsSlot = true := by
    rw [ownsSlot_cancelTimerTask, Call.ownsSlot, h]
  have hnew : c.ownsSlot = false := by simp [Call.ownsSlot, hc]
  have hx := tally_update Call.ownsSlot (cancelTimerTask m.calls (m.sess sid).timer) hlc c
  rw [hown, hnew, tally_cancelTimerTask, Bool.toNat_true, Bool.toNat_false] at hx
  simp only [Balanced, resumeRollBack, setCall_sem, setCall_sess, setCall_nextSid, setCall_calls,
    setCall_nextCall, armPausedTimer_sem, armPausedTimer_sess, armPausedTimer_nextSid,
    armPausedTimer_calls, armPausedTimer_nextCall, semRelease_sem, semRelease_sess,
    semRelease_nextSid, semRelease_calls, semRelease_nextCall, Semaphore.free_release]
  rw [tally_update_congr Session.ownsSlot m.sess (by simp [Session.ownsSlot])]
  omega

lemma balanced_runEnded (hi : m.SlotInv cfg) (hw : m.WellFormed) {q : Bool} {e : EndState}
    (h : (m.sess sid).run.phase = .held) :
    ((m.modify sid fun s => { s with cancelRequested := q }).runFinally sid true e).Balanced
      cfg := by
  have hb := hi.balanced
  have hlt : sid < m.nextSid := hw.sid_lt (by simp [h])
  simp only [Balanced, runFinally_sem, runFinally_sess, runFinally_nextSid, runFinally_calls,
    runFinally_nextCall, modify_sem, modify_sess, modify_nextSid, modify_calls, modify_nextCall,
    modify_pausedHoldsSlot, Function.update_self, Function.update_idem, true_and,
    tally_cancelTimerTask]
  by_cases hm : sid ∈ m.pausedHoldsSlot
  · -- the slot has been handed over
    have hho := ((hi.holds sid).mp hm).2
    rw [if_neg (not_not.mpr hm), tally_update_congr Session.ownsSlot m.sess (by simp [Session.ownsSlot, hho])]
    exact hb
  · -- the task puts its slot back
    have hho : (m.sess sid).handedOver = false := by simpa [h] using (hi.holds sid).not.mp hm
    have hx := tally_update Session.ownsSlot m.sess hlt
      { m.sess sid with
        cancelRequested := q, timer := none, pausedAt := none, bridge := false, apiKey := none,
        owner := none, state := none, run := .terminal e m.clock .read }
    rw [if_pos hm, Semaphore.free_release]
    simp [Session.ownsSlot, hho, h] at hx ⊢
    omega

lemma balanced_entered (hi : m.SlotInv cfg) (hw : m.WellFormed) {a : Bool} {n : SessionId}
    (hc : m.Drafts c n) :
    ({ m with acceptingNew := a, nextSid := n }.newCall c).Balanced cfg := by
  have hb := hi.balanced
  have hn := hw.tally_drafts hc
  have ho := hc.ownsSlot
  simp only [Balanced, newCall_sem, newCall_sess, newCall_nextSid, newCall_calls,
    newCall_nextCall, tally_push, ho, Bool.toNat_false]
  omega

lemma balanced_lookedUp (hi : m.SlotInv cfg) (hw : m.WellFormed) {n : SessionId}
    (h : (m.calls cid).phase = .idle) (hc : m.Drafts c n) :
    ({ m with nextSid := n }.setCall cid c).Balanced cfg := by
  have hb := hi.balanced
  have hn := hw.tally_drafts hc
  have ho := hc.ownsSlot
  simp only [Balanced, setCall_sem, setCall_sess, setCall_nextSid, setCall_calls,
    setCall_nextCall]
  rw [tally_update_congr Call.ownsSlot m.calls (by rw [ho]; simp [Call.ownsSlot, h])]
  omega

lemma balanced_swept (hi : m.SlotInv cfg) (h : (m.calls cid).phase = .idle)
    (hc : c.phase = .idle) : (m.sweepTimers.setCall cid c).Balanced cfg := by
  have hb := hi.balanced
  have hs : tally Session.ownsSlot m.sweepTimers.sess m.nextSid
      = tally Session.ownsSlot m.sess m.nextSid :=
    tally_congr _ fun sid hlt => by simp [Session.ownsSlot, hlt]
  have hcalls : tally Call.ownsSlot (Function.update m.sweepTimers.calls cid c) m.nextCall
      = tally Call.ownsSlot m.calls m.nextCall := by
    refine tally_congr _ fun i _ => ?_
    by_cases hi : i = cid
    · subst hi
      simp [Call.ownsSlot, h, hc]
    · rw [Function.update_of_ne hi]
      grind [Call.ownsSlot]
  simp only [Balanced, setCall_sem, setCall_sess, setCall_nextSid, setCall_calls,
    setCall_nextCall, sweepTimers_sem, sweepTimers_nextSid, sweepTimers_nextCall, hs, hcalls]
  exact hb

lemma balanced_tasksCancelled (hi : m.SlotInv cfg) (h : (m.calls cid).phase = .idle)
    (hc : c.phase = .idle) : (m.cancelTasks.setCall cid c).Balanced cfg := by
  have hb := hi.balanced
  have hs : tally Session.ownsSlot m.cancelTasks.sess m.nextSid
      = tally Session.ownsSlot m.sess m.nextSid :=
    tally_congr _ fun sid _ => by simp [Session.ownsSlot]
  simp only [Balanced, setCall_sem, setCall_sess, setCall_nextSid, setCall_calls,
    setCall_nextCall, cancelTasks_sem, cancelTasks_nextSid, cancelTasks_nextCall,
    cancelTasks_calls, hs]
  rw [tally_update_congr Call.ownsSlot m.calls (by simp [Call.ownsSlot, h, hc])]
  exact hb

/-- A `resume` gets a slot, or queues for one. -/
lemma balanced_resumeSlot (hi : m.SlotInv cfg) (hw : m.WellFormed) {sem : Semaphore Waiter}
    (hu : m.calls cid ≠ .idle) (ho : (m.calls cid).ownsSlot = false)
    (hs : sem.free + c.ownsSlot.toNat = m.sem.free) :
    ({ m with sem := sem }.setCall cid c).Balanced cfg := by
  have hb := hi.balanced
  have hx := tally_update Call.ownsSlot m.calls (hw.cid_lt hu) c
  rw [ho, Bool.toNat_false] at hx
  simp only [Balanced, setCall_sem, setCall_sess, setCall_nextSid, setCall_calls,
    setCall_nextCall]
  omega

/-- A task gets a slot, or queues for one. -/
lemma balanced_runSlot (hi : m.SlotInv cfg) (hw : m.WellFormed) {sem : Semaphore Waiter}
    {pc : RunPc} {q : Bool} (hu : (m.sess sid).run.phase ≠ .absent)
    (hho : (m.sess sid).handedOver = false) (ho : (m.sess sid).run.phase ≠ .held)
    (hs : sem.free + (decide (pc.phase = .held)).toNat = m.sem.free) :
    ({ m with sem := sem }.modify sid fun s =>
      { s with run := pc, cancelRequested := q }).Balanced cfg := by
  have hb := hi.balanced
  have hold : (m.sess sid).ownsSlot = false := by simp [Session.ownsSlot, ho]
  have hnew : { m.sess sid with run := pc, cancelRequested := q }.ownsSlot
      = decide (pc.phase = .held) := by simp [Session.ownsSlot, hho]
  have hx := tally_update Session.ownsSlot m.sess (hw.sid_lt hu)
    { m.sess sid with run := pc, cancelRequested := q }
  rw [hnew, hold, Bool.toNat_false] at hx
  dsimp only at hx
  simp only [Balanced, modify_sem, modify_sess, modify_nextSid, modify_calls, modify_nextCall]
  omega

/-- The task of a session that nobody has launched yet. -/
lemma balanced_registered (hi : m.SlotInv cfg) (hw : m.WellFormed) {args : SubmitArgs}
    (h : (m.calls cid).phase = .submitting sid) (hc : c.phase = .idle) :
    ((m.submitRegister sid args).setCall cid c).Balanced cfg := by
  have hb := hi.balanced
  have hs := (hw.submitting cid sid h).2
  simp only [Balanced, submitRegister, setCall_sem, setCall_sess, setCall_nextSid, setCall_calls,
    setCall_nextCall, modify_sem, modify_sess, modify_nextSid, modify_calls, modify_nextCall]
  rw [tally_update_congr Call.ownsSlot m.calls (by simp [Call.ownsSlot, h, hc]),
    tally_update_congr Session.ownsSlot m.sess (by simp [Session.ownsSlot, hs])]
  exact hb

end Balanced

lemma balanced_step (hi : m.SlotInv cfg) (hw : m.WellFormed) (hg : m.SlotGuard l)
    (h : Move cfg m l m') : m'.Balanced cfg := by
  have hb := hi.balanced
  -- what most steps rewrite owns the same before and after
  have hs : ∀ sid s, s.ownsSlot = (m.sess sid).ownsSlot →
      tally Session.ownsSlot (Function.update m.sess sid s) m.nextSid
        = tally Session.ownsSlot m.sess m.nextSid := fun _ _ h => tally_update_congr _ _ h
  have hc : ∀ calls cid c, c.ownsSlot = (calls cid).ownsSlot →
      tally Call.ownsSlot (Function.update calls cid c) m.nextCall
        = tally Call.ownsSlot calls m.nextCall := fun _ _ _ h => tally_update_congr _ _ h
  have hct := tally_cancelTimerTask
  have hcc := ownsSlot_cancelTimerTask
  have hd := hw.handed
  cases h with
  | pauseAcked hl h hc => exact balanced_pauseAcked hi hw (hg.pauseAck _ hl) h hc
  | resumeRolledBack hl h hc => exact balanced_resumeRolledBack hi hw h hc
  | resumeAcked hl h hc => exact balanced_resumeAcked hi hw (hg.resumeAck _ hl) h hc
  | runEnded h he => exact balanced_runEnded hi hw h
  | entered hc => exact balanced_entered hi hw hc
  | lookedUp h hu hc => exact balanced_lookedUp hi hw h hc
  | swept hl h hu hc => exact balanced_swept hi h hc
  | tasksCancelled h hu hc => exact balanced_tasksCancelled hi h hc
  | registered h hc => exact balanced_registered hi hw h hc
  | resumeQueued hs h hc =>
      refine balanced_resumeSlot hi hw (fun hidle => by simp [hidle] at h)
        (by simp [Call.ownsSlot, h]) ?_
      simp [Call.ownsSlot, hc, Semaphore.free_acquire_false hs]
  | resumeTook hs hc =>
      rcases hs with ⟨hs, h⟩ | ⟨hs, h⟩
      · refine balanced_resumeSlot hi hw (fun hidle => by simp [hidle] at h)
          (by simp [Call.ownsSlot, h]) ?_
        simpa [Call.ownsSlot, hc] using Semaphore.free_acquire_true hs
      · refine balanced_resumeSlot hi hw (fun hidle => by simp [hidle] at h)
          (by simp [Call.ownsSlot, h]) ?_
        simpa [Call.ownsSlot, hc] using Semaphore.free_resume hs
  | runQueued hs h hp he =>
      refine balanced_runSlot hi hw (by simp [h]) (by grind) (by simp [h]) ?_
      simp [hp, Semaphore.free_acquire_false hs]
  | runTook hs hp he =>
      rcases hs with ⟨hs, h⟩ | ⟨hs, h⟩
      · refine balanced_runSlot hi hw (by simp [h]) (by grind) (by simp [h]) ?_
        simpa [hp] using Semaphore.free_acquire_true hs
      · refine balanced_runSlot hi hw (by simp [h]) (by grind) (by simp [h]) ?_
        simpa [hp] using Semaphore.free_resume hs
  | asked | rearmed | resumeStarted | fired =>
      simp [Balanced, tally_push]
      grind [Call.ownsSlot, Session.ownsSlot]
  | _ =>
      simp [Balanced]
      grind [Call.ownsSlot, Session.ownsSlot]

theorem step (hi : m.SlotInv cfg) (hw : m.WellFormed) (hg : m.SlotGuard l)
    (h : Move cfg m l m') : m'.SlotInv cfg where
  balanced := hi.balanced_step hw hg h
  holds := hi.holds_step hw hg h
  paused := hi.paused_step hg h

end SlotInv

lemma slotInv_fresh (cfg : ManagerConfig) (rows : List SessionRow) :
    (fresh cfg rows).SlotInv cfg where
  balanced := by
    have hs : tally Session.ownsSlot (fresh cfg rows).sess (fresh cfg rows).nextSid = 0 :=
      tally_eq_zero _ _ fun _ _ => rfl
    rw [hs]
    rfl
  holds sid := by simp [fresh]
  paused := rfl

/-- What the account of the slots promises of a state. -/
structure SlotsConserved (cfg : ManagerConfig) (m : Manager) : Prop where
  conserved : m.sem.value + m.slotsOwned = cfg.maxConcurrent
  value_le : m.sem.value ≤ cfg.maxConcurrent
  running_le : m.runningUnpaused ≤ cfg.maxConcurrent
  /-- every session has ended, and no `resume` waits for a slot or holds one -/
  ended : (∀ sid, (m.sess sid).run.phase = .absent ∨ (m.sess sid).run.isDone = true) →
    (∀ cid sid, (m.calls cid).phase ≠ .queueing sid ∧ (m.calls cid).phase ≠ .holding sid) →
      m.sem.value = cfg.maxConcurrent

lemma SlotInv.conserved (hi : m.SlotInv cfg) (hw : m.WellFormed) : m.SlotsConserved cfg where
  conserved := by
    have hb := hi.balanced
    rw [Semaphore.free] at hb
    rw [slotsOwned]
    omega
  value_le := by
    have hb := hi.balanced
    have hv := m.sem.value_le_free
    omega
  running_le := by
    have hle : m.runningUnpaused ≤ tally Session.ownsSlot m.sess m.nextSid := by
      refine Nat.count_mono_left fun sid _ hrun => ?_
      obtain ⟨hh, hp⟩ := hrun
      have hn := (hi.holds sid).not.mp (hi.paused ▸ hp)
      simp_all [Session.ownsSlot]
    have hb := hi.balanced
    omega
  ended he hq := by
    have hr : tally Session.ownsSlot m.sess m.nextSid = 0 := tally_eq_zero _ _ fun sid _ => by
      rcases he sid with h | h
      · simp [Session.ownsSlot, h]
      · simp [Session.ownsSlot, RunPc.phase_of_isDone h]
    have hc : tally Call.ownsSlot m.calls m.nextCall = 0 := tally_eq_zero _ _ fun cid _ => by
      have := (hq cid · |>.2)
      grind [Call.ownsSlot]
    have hg : m.sem.granted = 0 := by
      refine Semaphore.granted_eq_zero (List.eq_nil_iff_forall_not_mem.mpr fun w hmem => ?_)
      have hwait := hw.queue.2 w hmem
      cases w with
      | run sid =>
          rcases he sid with h | h
          · simp [Waits, h] at hwait
          · simp [Waits, RunPc.phase_of_isDone h] at hwait
      | call cid =>
          obtain ⟨sid, hqueue⟩ := hwait
          exact (hq cid sid).1 hqueue
    have hb := hi.balanced
    rw [Semaphore.free] at hb
    omega

/-- **The slots are conserved in every run that keeps to `SlotGuard`.** -/
theorem slots_conserved (h : (managerSystem cfg).ReachableVia SlotGuard m) :
    m.SlotsConserved cfg := by
  refine SlotInv.conserved (h.invariant_of (fun _ => wellFormed_of_reachable) ?_ ?_)
    (wellFormed_of_reachable h)
  · rintro _ ⟨rows, rfl⟩
    exact slotInv_fresh cfg rows
  · intro s l t hw hi hg hst
    exact hi.step hw hg (step_move hst)

/-- A session that is paused and resumed, and ends. -/
theorem slots_conserved_of_pause_resume :
    ∃ m, (managerSystem oneSlot).checkedRun SlotGuard (fresh oneSlot []) (resumeRun ++ endRun)
      = some m ∧ m.SlotsConserved oneSlot := by
  have hrun : ((managerSystem oneSlot).checkedRun SlotGuard (fresh oneSlot [])
      (resumeRun ++ endRun)).isSome := by decide
  obtain ⟨m, hm⟩ := Option.isSome_iff_exists.mp hrun
  exact ⟨m, hm, slots_conserved (reachableVia_of_run hm)⟩

/-- Cancelling a paused session releases its slot a second time: with one slot, the counter of
the semaphore is `2` when the task is in its `finally` block. -/
theorem cancel_paused_releases_twice :
    ∃ m, (managerSystem oneSlot).run (fresh oneSlot []) (pauseRun ++
        [.cancel 0, .call 2 .ok, .run 0 (.raise .cancelledError), .run 0 .ok]) = some m ∧
      (managerSystem oneSlot).Reachable m ∧ m.sem.value = 2 ∧ ¬m.SlotsConserved oneSlot := by
  have hrun : ((managerSystem oneSlot).run (fresh oneSlot []) (pauseRun ++
      [.cancel 0, .call 2 .ok, .run 0 (.raise .cancelledError), .run 0 .ok])).map
        (·.sem.value) = some 2 := by decide
  obtain ⟨m, hm, hv⟩ := Option.map_eq_some_iff.mp hrun
  refine ⟨m, hm, reachable_of_run hm, hv, fun h => ?_⟩
  have hle := h.value_le
  rw [hv] at hle
  exact absurd hle (by decide)

end Manager

end GgRelay
