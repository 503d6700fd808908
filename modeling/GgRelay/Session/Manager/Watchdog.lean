import GgRelay.Session.Manager.Caps

/-!
The paused-timeout watchdog: every paused session has a deadline, and nothing else has one.

While a `pause` or a `resume` is at work the session may be without a timer, and the call will
arm one at its end (`CallPhase.settles`), unless it fails where the source has no roll-back.

* `WatchGuard` is the condition under which a step keeps the sessions covered, `WatchInv` the
  invariant;
* `watchdog_covers` is the result about runs, `failed_pause_leaves_no_timer` a run in which a
  `pause` fails at its last `await` and leaves a paused session without a deadline.
-/

namespace GgRelay

/-- The timer is asleep. -/
def Timer.isArmed : Timer → Bool
  | .armed _ => true
  | _ => false

/-- The timer is asleep, or its `cancel` is under way. -/
def Timer.isLive : Timer → Bool
  | .armed _ | .fired _ => true
  | .expired => false

@[grind =]
lemma Timer.any_isArmed {t : Option Timer} :
    t.any isArmed = true ↔ ∃ d, t = some (.armed d) := by
  rcases t with _ | _ | _ | _ <;> simp [isArmed]

@[grind =]
lemma Timer.any_isLive {t : Option Timer} :
    t.any isLive = true ↔ (∃ d, t = some (.armed d)) ∨ ∃ c, t = some (.fired c) := by
  rcases t with _ | _ | _ | _ <;> simp [isLive]

/-- A `pause`, a `resume` or a `cancel` that is not through. -/
def Call.executing : Call → Bool
  | .pause _ (.done _) | .resume _ (.done _) | .cancel _ (.done _) | .watchdog _ _ (.done _) => false
  | .pause _ _ | .resume _ _ | .cancel _ _ | .watchdog _ _ _ | .shutdown (.cancelling _ _ _) => true
  | _ => false

lemma Call.phase_of_not_executing {c : Call} (h : c.executing = false) (sid : SessionId) :
    c.phase.settles ≠ some sid ∧ c.phase ≠ .watching sid := by
  cases c with
  | pause s pc => cases pc <;> simp_all [executing, phase, CallPhase.settles]
  | resume s pc => cases pc <;> simp_all [executing, phase, CallPhase.settles]
  | watchdog s b pc => cases pc <;> simp_all [executing, phase, CallPhase.settles]
  | submit a pc => cases pc <;> simp [phase, CallPhase.settles]
  | idle | cancel | shutdown => simp [phase, CallPhase.settles]

namespace Manager

/-- Some call, other than the one in `except`, is going to see to the timer of the session. -/
def SettledBy (m : Manager) (except : Option CallId) (sid : SessionId) : Prop :=
  ∃ c < m.nextCall, some c ≠ except ∧ (m.calls c).phase.settles = some sid

instance (m : Manager) (except : Option CallId) (sid : SessionId) :
    Decidable (m.SettledBy except sid) := by
  unfold SettledBy
  infer_instance

/-- The steps that keep the paused sessions covered: a `pause` gets its ack before the session has
ended, and is counted once; a timer is armed only on a session that is still paused; a `resume`
gets its ack while no timer is armed; a `pause` or a `resume` that fails without arming the timer
leaves a session that is not paused, or has a timer, or is seen to by another call; and `shutdown`
sweeps the timers of no session that stays paused. -/
structure WatchGuard (m : Manager) (l : Label) : Prop where
  pauseAck : ∀ sid ∈ m.pauseAck l, (m.sess sid).run.phase = .held ∧ m.CountedOnce sid
  arms : ∀ sid ∈ m.arms l, sid ∈ m.pausedSet
  resumeAck : ∀ sid ∈ m.resumeAck l, (m.sess sid).timer.any Timer.isArmed = false
  givesUp : ∀ sid ∈ m.givesUp l, sid ∈ m.pausedSet →
    (m.sess sid).timer.any Timer.isLive = true ∨ m.SettledBy l.cid? sid
  sweeps : m.sweeps l = true → ∀ sid ∈ m.pausedSet, m.SettledBy none sid

instance (m : Manager) (l : Label) : Decidable (m.WatchGuard l) :=
  decidable_of_iff
    ((∀ sid ∈ m.pauseAck l, (m.sess sid).run.phase = .held ∧ m.CountedOnce sid) ∧
      (∀ sid ∈ m.arms l, sid ∈ m.pausedSet) ∧
      (∀ sid ∈ m.resumeAck l, (m.sess sid).timer.any Timer.isArmed = false) ∧
      (∀ sid ∈ m.givesUp l, sid ∈ m.pausedSet →
        (m.sess sid).timer.any Timer.isLive = true ∨ m.SettledBy l.cid? sid) ∧
      (m.sweeps l = true → ∀ sid ∈ m.pausedSet, m.SettledBy none sid))
    ⟨fun h => ⟨h.1, h.2.1, h.2.2.1, h.2.2.2.1, h.2.2.2.2⟩,
      fun h => ⟨h.pauseAck, h.arms, h.resumeAck, h.givesUp, h.sweeps⟩⟩

/-- Where the paused sessions get their deadlines from. -/
structure WatchInv (m : Manager) : Prop where
  live : ∀ sid ∈ m.pausedSet, (m.sess sid).run.phase = .held
  armed : ∀ sid d, (m.sess sid).timer = some (.armed d) → sid ∈ m.pausedSet
  /-- a task in its `finally` block has dropped its timer -/
  kept : ∀ sid, (m.sess sid).timer ≠ none → (m.sess sid).run.phase = .held
  covered : ∀ sid ∈ m.pausedSet, (m.sess sid).timer.any Timer.isLive = true ∨
    ∃ cid, (m.calls cid).phase.settles = some sid

lemma watchInv_fresh (cfg : ManagerConfig) (rows : List SessionRow) :
    (fresh cfg rows).WatchInv where
  live _ h := by simp [fresh] at h
  armed _ _ h := by simp [fresh] at h
  kept _ h := by simp [fresh] at h
  covered _ h := by simp [fresh] at h

namespace WatchInv

variable {cfg : ManagerConfig} {m m' : Manager} {l : Label}

lemma live_step (hi : m.WatchInv) (hw : m.WellFormed) (hg : m.WatchGuard l)
    (h : Move cfg m l m') : ∀ sid ∈ m'.pausedSet, (m'.sess sid).run.phase = .held := by
  intro sid
  have hl := hi.live sid
  have hsub := hw.submitting
  have ga := hg.pauseAck
  cases h with
  | _ =>
    simp [Function.update_apply] <;> grind

lemma armed_step (hi : m.WatchInv) (hg : m.WatchGuard l) (h : Move cfg m l m') :
    ∀ sid d, (m'.sess sid).timer = some (.armed d) → sid ∈ m'.pausedSet := by
  intro sid d
  have ha := hi.armed sid
  have ga := hg.arms
  have gr := hg.resumeAck
  cases h with
  | _ =>
    simp [Function.update_apply] <;> grind

lemma kept_step (hi : m.WatchInv) (hw : m.WellFormed) (hg : m.WatchGuard l)
    (h : Move cfg m l m') :
    ∀ sid, (m'.sess sid).timer ≠ none → (m'.sess sid).run.phase = .held := by
  intro sid
  have hk := hi.kept sid
  have hl := hi.live sid
  have hsub := hw.submitting
  have ga := hg.arms
  cases h with
  | _ =>
    simp [Function.update_apply] <;> grind

/-- A session that is seen to by a call stays so until it has a timer again. -/
lemma settles_step (hw : m.WellFormed) (hg : m.WatchGuard l) (h : Move cfg m l m')
    {sid : SessionId} (hm : sid ∈ m.pausedSet) (hs : sid ∈ m'.pausedSet) {c : CallId}
    (hc : (m.calls c).phase.settles = some sid) :
    (m'.sess sid).timer.any Timer.isLive = true ∨
      ∃ cid, (m'.calls cid).phase.settles = some sid := by
  have hn := hw.noCall
  by_contra hne
  simp only [not_or, not_exists] at hne
  obtain ⟨hl, hno⟩ := hne
  have h₀ := hno c
  revert hs hl h₀
  cases h with
  | pauseDropped hl | resumeFailed hl | resumeDropped hl =>
    have hgive := hg.givesUp _ hl.2
    rw [hl.1] at hgive
    simp [Function.update_apply] at hno ⊢
    grind [SettledBy]
  | _ =>
    simp [Function.update_apply] <;> grind

/-- A paused session whose timer goes is seen to by the call that takes it. -/
lemma timed_step (hi : m.WatchInv) (hw : m.WellFormed) (hg : m.WatchGuard l)
    (h : Move cfg m l m') {sid : SessionId} (hm : sid ∈ m.pausedSet) (hs : sid ∈ m'.pausedSet)
    (ht : (m.sess sid).timer.any Timer.isLive = true) :
    (m'.sess sid).timer.any Timer.isLive = true ∨
      ∃ cid, (m'.calls cid).phase.settles = some sid := by
  have hlive := hi.live sid hm
  by_contra hne
  simp only [not_or, not_exists] at hne
  obtain ⟨hl, hno⟩ := hne
  have h₀ := hno m.nextCall
  revert hs hl h₀
  cases h with
  | swept hl =>
    rcases hl with hl | hl
    · obtain ⟨c, -, -, hc⟩ := hg.sweeps hl sid hm
      have h₁ := hno c
      simp [Function.update_apply] at h₁ ⊢
      grind
    · -- a task that holds a slot is in `_running_tasks`
      have htr := hw.tracked sid (by simp [hlive]) (by simp [hlive])
      have hlt : sid < m.nextSid := hw.sid_lt (by simp [hlive])
      have hmem : sid ∈ m.trackedSids := by simp [trackedSids, htr, hlt]
      simp [hl] at hmem
  | _ =>
    simp [Function.update_apply] <;> grind

lemma covered_step (hi : m.WatchInv) (hw : m.WellFormed) (hg : m.WatchGuard l)
    (h : Move cfg m l m') : ∀ sid ∈ m'.pausedSet, (m'.sess sid).timer.any Timer.isLive = true ∨
      ∃ cid, (m'.calls cid).phase.settles = some sid := by
  intro sid hs
  by_cases hm : sid ∈ m.pausedSet
  · rcases hi.covered sid hm with ht | ⟨c, hc⟩
    · exact timed_step hi hw hg h hm hs ht
    · exact settles_step hw hg h hm hs hc
  · -- the session has just been paused, and the call is going to arm its timer
    cases h with
    | @pauseAcked cid c sid' hl h hc =>
      have he : sid = sid' := by simpa [hm] using hs
      exact Or.inr ⟨cid, by simp [hc, he]⟩
    | _ => simp_all

theorem step (hi : m.WatchInv) (hw : m.WellFormed) (hg : m.WatchGuard l)
    (h : Move cfg m l m') : m'.WatchInv where
  live := hi.live_step hw hg h
  armed := hi.armed_step hg h
  kept := hi.kept_step hw hg h
  covered := hi.covered_step hw hg h

end WatchInv

/-- What the watchdog promises of a state in which no `pause`, `resume` or `cancel` is at work. -/
structure WatchdogCovers (m : Manager) : Prop where
  /-- a paused session has a task that runs, and a timer that sleeps -/
  paused : ∀ sid ∈ m.pausedSet, (m.sess sid).cancellable = true ∧
    ∃ d, (m.sess sid).timer = some (.armed d)
  armed : ∀ sid d, (m.sess sid).timer = some (.armed d) → sid ∈ m.pausedSet
  /-- a session that has ended has no timer and is not paused -/
  ended : ∀ sid, (m.sess sid).run.phase ≠ .held →
    (m.sess sid).timer = none ∧ sid ∉ m.pausedSet
  /-- the shares of the keys are those of the paused sessions -/
  shares : KeyCounts m.pausedByKey m.pausedWith

variable {cfg : ManagerConfig} {m : Manager}

lemma WatchInv.covers (hi : m.WatchInv) (hw : m.WellFormed) (hk : m.CountInv)
    (hq : ∀ cid < m.nextCall, (m.calls cid).executing = false) : m.WatchdogCovers where
  paused sid hm := by
    have hlive := hi.live sid hm
    have hidle : ∀ cid, (m.calls cid).executing = false := fun cid => by
      by_cases hc : cid < m.nextCall
      · exact hq cid hc
      · rw [hw.noCall cid (Nat.le_of_not_lt hc)]
        rfl
    refine ⟨?_, ?_⟩
    · have htr := hw.tracked sid (by simp [hlive]) (by simp [hlive])
      have hd : (m.sess sid).run.isDone = false := by
        by_contra hd
        have hp : (m.sess sid).run.phase = .settled := RunPc.phase_of_isDone (by simpa using hd)
        simp [hlive] at hp
      simp [Session.cancellable, htr, hd]
    · rcases hi.covered sid hm with ht | ⟨cid, hc⟩
      · rcases Timer.any_isLive.mp ht with hd | ⟨c, hf⟩
        · exact hd
        · -- a timer that fired is in its `cancel`
          exact absurd (hw.watched sid c hf) (Call.phase_of_not_executing (hidle c) sid).2
      · exact absurd hc (Call.phase_of_not_executing (hidle cid) sid).1
  armed := hi.armed
  ended sid hn := by
    refine ⟨?_, fun hm => hn (hi.live sid hm)⟩
    by_contra ht
    exact hn (hi.kept sid ht)
  shares := hk.counts

/-- **The watchdog covers the paused sessions in every run that keeps to `WatchGuard`**, whenever
no `pause`, `resume` or `cancel` is at work. -/
theorem watchdog_covers (h : (managerSystem cfg).ReachableVia WatchGuard m)
    (hq : ∀ cid < m.nextCall, (m.calls cid).executing = false) : m.WatchdogCovers := by
  have hinv : m.WatchInv ∧ m.CountInv := by
    refine h.invariant_of (I := fun m => m.WatchInv ∧ m.CountInv)
      (fun _ => wellFormed_of_reachable) ?_ ?_
    · rintro _ ⟨rows, rfl⟩
      exact ⟨watchInv_fresh cfg rows, countInv_fresh cfg rows⟩
    · intro s l t hw hi hg hst
      have hmove := step_move hst
      exact ⟨hi.1.step hw hg hmove,
        hi.2.step hw (fun sid hl => (hg.pauseAck sid hl).2) hmove⟩
  exact hinv.1.covers (wellFormed_of_reachable h) hinv.2 hq

/-- A session that is paused. -/
theorem watchdog_covers_of_pause :
    ∃ m, (managerSystem oneSlot).checkedRun WatchGuard (fresh oneSlot []) pauseRun = some m ∧
      (∀ cid < m.nextCall, (m.calls cid).executing = false) ∧ 0 ∈ m.pausedSet ∧
      m.WatchdogCovers := by
  have hrun : ((managerSystem oneSlot).checkedRun WatchGuard (fresh oneSlot []) pauseRun).any
      (fun m => (∀ cid < m.nextCall, (m.calls cid).executing = false) ∧ 0 ∈ m.pausedSet)
        = true := by decide
  obtain ⟨m, hm, hq⟩ := (Option.any_eq_true _ _).mp hrun
  obtain ⟨hq, h0⟩ := of_decide_eq_true hq
  exact ⟨m, hm, hq, h0, watchdog_covers (reachableVia_of_run hm) hq⟩

/-- The call `1` pauses the session `0`, writes the row, and fails when the event bus cannot
persist the state change. -/
def failedPause : List Label :=
  driveRun ++ [.pause 0, .call 1 .ok, .call 1 (.ack true), .callCommit 1, .call 1 .ok, .call 1 .ok,
    .call 1 (.raise (.other "unknown" 500))]

/-- A `pause` that fails at its last `await` leaves the session paused without a deadline. -/
theorem failed_pause_leaves_no_timer :
    ∃ m, (managerSystem oneSlot).run (fresh oneSlot []) failedPause = some m ∧
      (managerSystem oneSlot).Reachable m ∧
      (∀ cid < m.nextCall, (m.calls cid).executing = false) ∧ 0 ∈ m.pausedSet ∧
      (m.sess 0).timer = none ∧ ¬m.WatchdogCovers := by
  have hrun : ((managerSystem oneSlot).run (fresh oneSlot []) failedPause).any
      (fun m => (∀ cid < m.nextCall, (m.calls cid).executing = false) ∧ 0 ∈ m.pausedSet ∧
        (m.sess 0).timer = none) = true := by decide
  obtain ⟨m, hm, he⟩ := (Option.any_eq_true _ _).mp hrun
  obtain ⟨hq, h0, ht⟩ := of_decide_eq_true he
  refine ⟨m, hm, reachable_of_run hm, hq, h0, ht, fun h => ?_⟩
  obtain ⟨d, hd⟩ := (h.paused 0 h0).2
  rw [ht] at hd
  simp at hd

end Manager

end GgRelay
