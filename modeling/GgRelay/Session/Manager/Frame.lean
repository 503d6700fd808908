import GgRelay.Session.Manager.Phases

/-!
A call is suspended where it is until one of its own steps: nobody else's step moves it.

The one exception is the task of a timer, which others may cancel; `Call.cancelTask` does nothing
to any other call, and `step_calls_of_other` is stated for the calls it leaves alone.
-/

namespace GgRelay

/-- The step is one of the call `cid`, or of the database on its behalf. -/
def Label.runs (cid : CallId) : Label → Bool
  | .call c _ | .callCommit c => c = cid
  | _ => false

namespace Manager

variable {cfg : ManagerConfig} {m m' : Manager} {l : Label} {cid c : CallId} {sid : SessionId}
  {r : Reply}

/-! ### Where the helpers leave a call -/

lemma setCall_calls_of_ne {x : Call} (hc : cid ≠ c) : (m.setCall c x).calls cid = m.calls cid :=
  Function.update_of_ne hc ..

lemma newCall_calls_of_lt {x : Call} (hc : cid < m.nextCall) :
    (m.newCall x).calls cid = m.calls cid :=
  Function.update_of_ne (Nat.ne_of_lt hc) ..

lemma modify_calls_apply (f : Session → Session) : (m.modify sid f).calls cid = m.calls cid := rfl

lemma semRelease_calls_apply : m.semRelease.calls cid = m.calls cid := rfl

lemma takeSlotBack_calls_apply : (m.takeSlotBack sid).calls cid = m.calls cid := rfl

lemma pauseBookkeeping_calls_apply : (m.pauseBookkeeping sid).calls cid = m.calls cid := by
  rw [pauseBookkeeping_calls]

section Fixed

variable (hf : (m.calls cid).cancelTask = m.calls cid)
include hf

lemma cancelTimerTask_of_fixed (t : Option Timer) : cancelTimerTask m.calls t cid = m.calls cid := by
  rw [cancelTimerTask_apply, hf, ite_self]

lemma cancelPausedTimer_calls_of_fixed : (m.cancelPausedTimer sid).calls cid = m.calls cid :=
  cancelTimerTask_of_fixed hf _

lemma armPausedTimer_calls_of_fixed (d : Option ℕ) :
    (m.armPausedTimer cfg sid d).calls cid = m.calls cid :=
  cancelTimerTask_of_fixed hf _

lemma cancelBlock_calls_of_fixed : (m.cancelBlock sid).calls cid = m.calls cid := by
  rw [cancelBlock_calls, cancelTimerTask_of_fixed hf]

lemma runFinally_calls_of_fixed (b : Bool) (e : EndState) :
    (m.runFinally sid b e).calls cid = m.calls cid := by
  rw [runFinally_calls, cancelTimerTask_of_fixed hf]

lemma sweepTimers_calls_of_fixed : m.sweepTimers.calls cid = m.calls cid := by
  rcases m.sweepTimers_calls cid with h | h
  · exact h
  · rw [h, hf]

end Fixed

/-! ### Where the steps of others leave it -/

lemma submitStep_calls_of_ne {args : SubmitArgs} {pc : SubmitPc}
    (h : m.submitStep cfg c args pc r = some m') (hc : cid ≠ c) : m'.calls cid = m.calls cid := by
  fun_cases submitStep cfg m c args pc r
  all_goals grind [submitStep, submitLookedUp, submitRegister, setCall_calls_of_ne,
    modify_calls_apply]

lemma callCommit_calls_of_ne (h : m.callCommit c = some m') (hc : cid ≠ c) :
    m'.calls cid = m.calls cid := by
  simp only [callCommit] at h
  split at h
  all_goals simp only [reduceCtorEq, Option.some.injEq, Option.map_eq_some_iff] at h
  all_goals grind [setCall_calls_of_ne, modify_calls_apply]

section Others

variable (hf : (m.calls cid).cancelTask = m.calls cid)
include hf

lemma pauseStep_calls_of_ne {pc : PausePc} (h : m.pauseStep cfg c sid pc r = some m')
    (hc : cid ≠ c) : m'.calls cid = m.calls cid := by
  fun_cases pauseStep cfg m c sid pc r
  all_goals simp only [pauseStep, reduceCtorEq, Option.some.injEq, Option.map_eq_some_iff] at h
  all_goals grind [setCall_calls_of_ne, pauseBookkeeping_calls_apply,
    armPausedTimer_calls_of_fixed, modify_calls_apply]

lemma resumeStep_calls_of_ne {pc : ResumePc} (h : m.resumeStep cfg c sid pc r = some m')
    (hc : cid ≠ c) : m'.calls cid = m.calls cid := by
  fun_cases resumeStep cfg m c sid pc r
  all_goals
    simp only [resumeStep, resumeRollBack, reduceCtorEq, Option.some.injEq,
      Option.map_eq_some_iff] at h
  all_goals grind [setCall_calls_of_ne, takeSlotBack_calls_apply, armPausedTimer_calls_of_fixed,
    modify_calls_apply, semRelease_calls_apply]

lemma cancelStep_calls_of_ne {pc : CancelPc} (h : m.cancelStep c sid pc r = some m')
    (hc : cid ≠ c) : m'.calls cid = m.calls cid := by
  fun_cases cancelStep m c sid pc r
  all_goals grind [setCall_calls_of_ne, cancelBlock_calls_of_fixed, cancelStep]

lemma watchdogStep_calls_of_ne {b : Bool} {pc : CancelPc}
    (h : m.watchdogStep c sid b pc r = some m') (hc : cid ≠ c) : m'.calls cid = m.calls cid := by
  fun_cases watchdogStep m c sid b pc r
  all_goals grind [setCall_calls_of_ne, cancelBlock_calls_of_fixed, watchdogStep]

lemma shutdownStep_calls_of_ne {pc : ShutdownPc} (h : m.shutdownStep c pc r = some m')
    (hc : cid ≠ c) : m'.calls cid = m.calls cid := by
  have hs := sweepTimers_calls_of_fixed hf
  fun_cases shutdownStep m c pc r
  all_goals grind [setCall_calls_of_ne, cancelBlock_calls_of_fixed, shutdownStep, graceLoop,
    cancelTasks_calls]

lemma callStep_calls_of_ne (h : m.callStep cfg c r = some m') (hc : cid ≠ c) :
    m'.calls cid = m.calls cid := by
  rw [callStep] at h
  split at h
  · simp at h
  · exact submitStep_calls_of_ne h hc
  · exact pauseStep_calls_of_ne hf h hc
  · exact resumeStep_calls_of_ne hf h hc
  · exact cancelStep_calls_of_ne hf h hc
  · exact watchdogStep_calls_of_ne hf h hc
  · exact shutdownStep_calls_of_ne hf h hc

lemma runExcept_calls_of_fixed (b : Bool) (e : Exn) :
    (m.runExcept sid b e).calls cid = m.calls cid := by
  fun_cases runExcept m sid b e
  all_goals grind [runFinally_calls_of_fixed, setRun, modify_calls_apply]

lemma runResume_calls_of_fixed {pc : RunPc} (h : m.runResume sid pc r = some m') :
    m'.calls cid = m.calls cid := by
  fun_cases runResume m sid pc r
  all_goals simp only [runResume, reduceCtorEq, Option.some.injEq, Option.map_eq_some_iff] at h
  all_goals grind [runFinally_calls_of_fixed, runExcept_calls_of_fixed, setRun,
    modify_calls_apply]

lemma runStep_calls_of_fixed (h : m.runStep sid r = some m') : m'.calls cid = m.calls cid := by
  rw [runStep] at h
  split at h
  · simp at h
  · have hd : (m.runDeliver sid r).calls = m.calls := by
      rw [runDeliver]
      split <;> rfl
    rw [← hd] at hf ⊢
    exact runResume_calls_of_fixed hf h

/-- **Nobody else's step moves a call**, unless it is the task of a timer. -/
theorem step_calls_of_other (h : m.step cfg l = some m') (hl : l.runs cid = false)
    (hlt : cid < m.nextCall) : m'.calls cid = m.calls cid := by
  cases l with
  | submit args =>
      cases h
      rw [submitEntry]
      split
      · exact newCall_calls_of_lt hlt
      · split
        · exact newCall_calls_of_lt hlt
        · exact newCall_calls_of_lt hlt
  | pause sid =>
      cases h
      rw [pauseEntry]
      split
      · exact newCall_calls_of_lt hlt
      · split
        · exact (newCall_calls_of_lt (m := m.armPausedTimer cfg sid none) hlt).trans
            (armPausedTimer_calls_of_fixed hf none)
        · split <;> exact newCall_calls_of_lt hlt
  | resume sid =>
      cases h
      rw [resumeEntry]
      split
      · exact newCall_calls_of_lt hlt
      · exact (newCall_calls_of_lt (m := m.cancelPausedTimer sid) hlt).trans
          (cancelPausedTimer_calls_of_fixed hf)
  | cancel sid =>
      cases h
      exact newCall_calls_of_lt hlt
  | shutdown cancelPaused graceS =>
      cases h
      rw [shutdownEntry]
      split <;> exact newCall_calls_of_lt hlt
  | call c r => exact callStep_calls_of_ne hf h fun he => by simp [Label.runs, he] at hl
  | callCommit c => exact callCommit_calls_of_ne h fun he => by simp [Label.runs, he] at hl
  | run sid r => exact runStep_calls_of_fixed hf h
  | runCommit sid =>
      simp only [step, runCommit] at h
      split at h
      all_goals simp only [reduceCtorEq, Option.map_eq_some_iff] at h
      all_goals grind [modify_calls_apply]
  | reap sid => grind [step, reap, modify_calls_apply]
  | fire sid => grind [step, fire, modify_calls_apply, newCall_calls_of_lt, modify_nextCall]
  | tick =>
      cases h
      rfl

end Others

end Manager

end GgRelay
