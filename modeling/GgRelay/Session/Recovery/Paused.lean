import GgRelay.Session.Manager.Moves

/-!
`recover_paused_timers` (`session/recovery.py`): a fresh manager and the rows that an earlier process
left `paused`.

The recovery cancels the rows that are overdue and arms a timer for the others.  The new process
has no task for any of them, so `cancel` has nobody to tell, and a timer that fires finds the
session missing from `_paused_set`.

* `Recovery` is the coroutine on its manager, interleaved with whatever else the manager does;
* `Orphan` is a session of an earlier process, `Orphan.step` says that no step of the manager
  touches its row;
* `Settled` is what the recovery promises, `recovery_settles_iff` says when it keeps it;
* `recovery_arms` is what it does do: the rows that are not overdue get the timer they had.
-/

namespace GgRelay

/-- The rows `list_paused` finds, with their ids. -/
def pausedRows (rows : List SessionRow) : List (SessionId × Time) :=
  rows.zipIdx.filterMap fun p =>
    if p.1.status = .paused then p.1.pausedAt.map fun t => (p.2, t) else none

lemma mem_pausedRows {rows : List SessionRow} {sid : SessionId} {t : Time} :
    (sid, t) ∈ pausedRows rows ↔
      ∃ r, rows[sid]? = some r ∧ r.status = .paused ∧ r.pausedAt = some t := by
  rw [pausedRows, List.mem_filterMap]
  constructor
  · rintro ⟨⟨r, i⟩, hr, h⟩
    have hget : rows[i]? = some r := List.mk_mem_zipIdx_iff_getElem?.mp hr
    by_cases hp : r.status = .paused
    · simp only [hp, if_true, Option.map_eq_some_iff, Prod.mk.injEq] at h
      obtain ⟨_, ht, rfl, rfl⟩ := h
      exact ⟨r, hget, hp, ht⟩
    · simp [hp] at h
  · rintro ⟨r, hget, hp, ht⟩
    exact ⟨(r, sid), List.mk_mem_zipIdx_iff_getElem?.mpr hget, by simp [hp, ht]⟩

/-- `recover_paused_timers` on its manager. -/
structure Recovery where
  manager : Manager
  /-- `current` -/
  current : Time
  /-- the rows that are left -/
  todo : List (SessionId × Time)
  /-- the `cancel` it awaits -/
  awaiting : Option CallId := none
  rearmed : ℕ := 0
  cancelled : ℕ := 0

inductive RecoveryLabel where
  /-- the next turn of the loop -/
  | next
  /-- the awaited `cancel` is over -/
  | back
  | manager (l : Label)
  deriving DecidableEq, Repr

namespace Recovery

variable (cfg : ManagerConfig) (s : Recovery)

def step : RecoveryLabel → Option Recovery
  | .manager l => (s.manager.step cfg l).map fun m => { s with manager := m }
  | .next =>
      match s.awaiting, s.todo with
      | none, (sid, pausedAt) :: todo =>
          if pausedAt + cfg.pausedTimeoutS ≤ s.current then
            some { s with
              manager := s.manager.newCall (.cancel sid .audit)
              todo
              awaiting := some s.manager.nextCall }
          else
            let remaining := pausedAt + cfg.pausedTimeoutS - s.current
            some { s with
              manager := s.manager.armPausedTimer cfg sid (some remaining)
              todo
              rearmed := s.rearmed + 1 }
      | _, _ => none
  | .back =>
      match s.awaiting with
      | none => none
      | some cid =>
          match s.manager.calls cid with
          | .cancel _ (.done (.ok ())) =>
              some { s with awaiting := none, cancelled := s.cancelled + 1 }
          | .cancel _ (.done (.error e)) =>
              -- `except Exception` lets a cancellation of the recovery itself pass
              if e = .cancelledError then none else some { s with awaiting := none }
          | _ => none

/-- The recovery has returned. -/
def Done : Prop := s.awaiting = none ∧ s.todo = []

instance : Decidable s.Done := by
  unfold Done
  infer_instance

end Recovery

/-- The recovery on a fresh manager over the rows of earlier processes. -/
def recoverySystem (cfg : ManagerConfig) (rows : List SessionRow) :
    System Recovery RecoveryLabel where
  init s := s.manager = { Manager.fresh cfg rows with clock := s.current } ∧
    s.todo.Perm (pausedRows rows) ∧ s.todo.Pairwise (fun p q => q.2 ≤ p.2) ∧ s.awaiting = none
  step s l := s.step cfg l

/-! ### Sessions of earlier processes -/

/-- A session of an earlier process: there is a row, and nothing else that could change it. -/
structure Orphan (m : Manager) (sid : SessionId) (row : Option SessionRow) : Prop where
  noTask : (m.sess sid).run = .absent
  kept : (m.sess sid).row = row
  noBridge : (m.sess sid).bridge = false
  notPaused : sid ∉ m.pausedSet
  unfired : ∀ c, (m.sess sid).timer ≠ some (.fired c)
  numbered : sid < m.nextSid
  unserved : ∀ cid, (m.calls cid).phase.serves ≠ some sid
  undrawn : ∀ cid, (m.calls cid).phase.draws ≠ some sid

namespace Orphan

open Manager

variable {cfg : ManagerConfig} {m m' : Manager} {l : Label} {sid : SessionId}
  {row : Option SessionRow}

lemma fresh {rows : List SessionRow} {r : SessionRow} (h : rows[sid]? = some r) (now : Time) :
    Orphan { Manager.fresh cfg rows with clock := now } sid (some r) where
  noTask := rfl
  kept := h
  noBridge := rfl
  notPaused := by simp [Manager.fresh]
  unfired := by simp [Manager.fresh]
  numbered := (List.getElem?_eq_some_iff.mp h).1
  unserved := by simp [Manager.fresh, CallPhase.serves]
  undrawn := by simp [Manager.fresh, CallPhase.draws]

lemma sess_step (ho : Orphan m sid row) (h : Move cfg m l m') :
    (m'.sess sid).run = .absent ∧ (m'.sess sid).row = row ∧ (m'.sess sid).bridge = false ∧
      sid ∉ m'.pausedSet ∧ sid < m'.nextSid ∧ ∀ c, (m'.sess sid).timer ≠ some (.fired c) := by
  obtain ⟨hrun, hrow, hbridge, hpaused, hfired, hnum, hserve, hdraw⟩ := ho
  have hphase : (m.sess sid).run.phase = .absent := by rw [hrun]; rfl
  simp only [ne_eq, CallPhase.serves_eq_some] at hserve
  simp only [ne_eq, CallPhase.draws_eq_some] at hdraw
  cases h with
  | _ =>
    simp [Function.update_apply] <;> grind [Drafts, RunPc.isDone]

lemma calls_step (ho : Orphan m sid row) (h : Move cfg m l m') :
    ∀ cid, (m'.calls cid).phase.serves ≠ some sid ∧ (m'.calls cid).phase.draws ≠ some sid := by
  intro cid
  obtain ⟨hrun, hrow, hbridge, hpaused, hfired, hnum, hserve, hdraw⟩ := ho
  simp only [ne_eq, CallPhase.serves_eq_some] at hserve ⊢
  simp only [ne_eq, CallPhase.draws_eq_some] at hdraw ⊢
  cases h with
  | swept =>
    simp [Function.update_apply]
    grind
  | _ =>
    simp [Function.update_apply] <;> grind [Drafts]

/-- **No step of the manager touches a session of an earlier process.** -/
theorem step (ho : Orphan m sid row) (h : Move cfg m l m') : Orphan m' sid row := by
  obtain ⟨hrun, hrow, hbridge, hpaused, hnum, hfired⟩ := ho.sess_step h
  exact ⟨hrun, hrow, hbridge, hpaused, hfired, hnum, fun cid => (ho.calls_step h cid).1,
    fun cid => (ho.calls_step h cid).2⟩

lemma leads (ho : Orphan m sid row)
    (h : (managerSystem cfg).Leads (fun _ _ => True) m m') : Orphan m' sid row := by
  induction h with
  | refl => exact ho
  | tail _ hs ih =>
      obtain ⟨l, -, hl⟩ := hs
      exact ih.step (step_move hl)

/-- A new `cancel` owes nothing to any session yet. -/
lemma newCancel (ho : Orphan m sid row) (i : SessionId) :
    Orphan (m.newCall (.cancel i .audit)) sid row :=
  have hmove : Move oneSlot m (.cancel i) (m.newCall (.cancel i .audit)) := step_move rfl
  ho.step hmove

/-- Arming a timer, on this session or another, leaves it what it is. -/
lemma arm (ho : Orphan m sid row) (i : SessionId) (remaining : Option ℕ) :
    Orphan (m.armPausedTimer cfg i remaining) sid row := by
  obtain ⟨hrun, hrow, hbridge, hpaused, hfired, hnum, hserve, hdraw⟩ := ho
  simp only [ne_eq, CallPhase.serves_eq_some] at hserve
  simp only [ne_eq, CallPhase.draws_eq_some] at hdraw
  constructor <;> simp [Function.update_apply] <;> grind

/-- A timer that fires on it only expires. -/
lemma fire (ho : Orphan m sid row) (h : m.fire sid = some m') :
    m' = m.modify sid fun s => { s with timer := some .expired } := by
  simp only [Manager.fire, ho.notPaused, if_false] at h
  split at h
  · split at h
    · exact (Option.some.inj h).symm
    · cases h
  · cases h

end Orphan

namespace Recovery

open Manager

variable {cfg : ManagerConfig} {rows : List SessionRow} {s : Recovery}

lemma orphan_step {s t : Recovery} {l : RecoveryLabel} {sid : SessionId}
    {row : Option SessionRow} (ho : Orphan s.manager sid row) (h : s.step cfg l = some t) :
    Orphan t.manager sid row := by
  cases l with
  | manager l =>
      obtain ⟨m, hm, rfl⟩ := Option.map_eq_some_iff.mp h
      exact ho.step (step_move hm)
  | next =>
      simp only [step] at h
      split at h
      · split at h
        · cases h
          exact ho.newCancel _
        · cases h
          exact ho.arm _ _
      · cases h
  | back =>
      simp only [step] at h
      split at h
      · cases h
      · split at h
        · cases h
          exact ho
        · split at h
          · cases h
          · cases h
            exact ho
        · cases h

/-- Whatever the recovery and the manager do, the rows of the earlier processes are orphans. -/
lemma orphan (h : (recoverySystem cfg rows).Reachable s) {sid : SessionId} {r : SessionRow}
    (hr : rows[sid]? = some r) : Orphan s.manager sid (some r) := by
  refine System.ReachableVia.invariant (I := fun s => Orphan s.manager sid (some r)) ?_ ?_ h
  · rintro s ⟨hm, -⟩
    rw [hm]
    exact Orphan.fresh hr s.current
  · intro s l t ho _ hs
    exact orphan_step ho hs

/-! ### The promise -/

/-- The timer's task and the session's task are through. -/
def Through (m : Manager) (sid : SessionId) : Prop :=
  (∀ cid, (m.sess sid).timer = some (.fired cid) →
    ∃ b r, m.calls cid = .watchdog sid b (.done r)) ∧
  ((m.sess sid).run = .absent ∨ (m.sess sid).run.isDone = true)

/-- The row of the session has reached a terminal status. -/
def Ended (m : Manager) (sid : SessionId) : Prop :=
  ∃ r, (m.sess sid).row = some r ∧ r.status.Terminal

/-- What the recovery promises of the rows it found. -/
structure Settled (cfg : ManagerConfig) (rows : List SessionRow) (s : Recovery) : Prop where
  /-- an overdue row has been settled -/
  overdue : ∀ sid t, (sid, t) ∈ pausedRows rows → t + cfg.pausedTimeoutS ≤ s.current →
    Ended s.manager sid
  /-- any other is armed with what is left of its time -/
  armed : ∀ sid t, (sid, t) ∈ pausedRows rows → s.current < t + cfg.pausedTimeoutS →
    ∃ d, (s.manager.sess sid).timer = some (.armed d) ∧ t + cfg.pausedTimeoutS ≤ d
  /-- and is settled by the timer -/
  fires : ∀ sid t, (sid, t) ∈ pausedRows rows → s.current < t + cfg.pausedTimeoutS →
    ∀ m m' m'', (managerSystem cfg).Leads (fun _ _ => True) s.manager m → m.fire sid = some m' →
      (managerSystem cfg).Leads (fun _ _ => True) m' m'' → Through m'' sid → Ended m'' sid
  /-- a second recovery finds no overdue row -/
  again : ∀ sid r t, sid < rows.length → (s.manager.sess sid).row = some r → r.status = .paused →
    r.pausedAt = some t → s.manager.clock < t + cfg.pausedTimeoutS

/-- Time passes. -/
lemma leads_tick (m : Manager) (n : ℕ) :
    (managerSystem cfg).Leads (fun _ _ => True) m { m with clock := m.clock + n } := by
  induction n with
  | zero => exact .refl
  | succ n ih => exact ih.tail ⟨.tick, trivial, rfl⟩

/-- A row that was paused is not settled by the recovery, whichever side of its deadline it is. -/
lemma not_settled (h : (recoverySystem cfg rows).Reachable s) {sid : SessionId} {t : Time}
    (hp : (sid, t) ∈ pausedRows rows) : ¬ Settled cfg rows s := by
  intro hs
  obtain ⟨r, hr, hstatus, -⟩ := mem_pausedRows.mp hp
  have ho := orphan h hr
  have hlive : ∀ m, Orphan m sid (some r) → ¬ Ended m sid := by
    rintro m hm ⟨r', hr', hterm⟩
    cases hm.kept.symm.trans hr'
    rw [hstatus] at hterm
    exact hterm
  rcases Nat.lt_or_ge s.current (t + cfg.pausedTimeoutS) with hlt | hge
  · -- the timer fires, finds the session missing from `_paused_set` and does nothing
    obtain ⟨d, hd, -⟩ := hs.armed sid t hp hlt
    have hlead : (managerSystem cfg).Leads (fun _ _ => True) s.manager
        { s.manager with clock := s.manager.clock + d } := leads_tick s.manager d
    have hfire : Manager.fire { s.manager with clock := s.manager.clock + d } sid
        = some (Manager.modify { s.manager with clock := s.manager.clock + d } sid
            fun s => { s with timer := some .expired }) := by
      have hpast : d ≤ s.manager.clock + d := Nat.le_add_left ..
      simp [Manager.fire, hd, ho.notPaused, hpast]
    have hmove : Move cfg { s.manager with clock := s.manager.clock + d } (.fire sid)
        (Manager.modify { s.manager with clock := s.manager.clock + d } sid
          fun s => { s with timer := some .expired }) := step_move hfire
    have hafter : Orphan (Manager.modify { s.manager with clock := s.manager.clock + d } sid
        fun s => { s with timer := some .expired }) sid (some r) := (ho.leads hlead).step hmove
    refine hlive _ hafter (hs.fires sid t hp hlt _ _ _ hlead hfire .refl ⟨?_, Or.inl hafter.noTask⟩)
    intro cid hcid
    exact absurd hcid (hafter.unfired cid)
  · exact hlive _ ho (hs.overdue sid t hp hge)

/-- At every point of the recovery, and when it has returned, its promise is kept if and only if
there is nothing to recover. -/
theorem recovery_settles_iff (h : (recoverySystem cfg rows).Reachable s) :
    Settled cfg rows s ↔ ∀ r ∈ rows, r.status = .paused → r.pausedAt = none := by
  constructor
  · intro hs r hr hp
    by_contra hne
    obtain ⟨t, ht⟩ := Option.ne_none_iff_exists'.mp hne
    obtain ⟨sid, hsid⟩ := List.getElem?_of_mem hr
    exact not_settled h (mem_pausedRows.mpr ⟨r, hsid, hp, ht⟩) hs
  · intro hn
    have hnone : ∀ sid t, (sid, t) ∉ pausedRows rows := by
      intro sid t hmem
      obtain ⟨r, hr, hp, ht⟩ := mem_pausedRows.mp hmem
      rw [hn r (List.mem_of_getElem? hr) hp] at ht
      cases ht
    refine ⟨?_, ?_, ?_, ?_⟩
    · intro sid t hmem
      exact absurd hmem (hnone sid t)
    · intro sid t hmem
      exact absurd hmem (hnone sid t)
    · intro sid t hmem
      exact absurd hmem (hnone sid t)
    · intro sid r t hlt hrow hp ht
      have hget : rows[sid]? = some rows[sid] := List.getElem?_eq_getElem hlt
      cases (orphan h hget).kept.symm.trans hrow
      rw [hn _ (List.getElem_mem hlt) hp] at ht
      cases ht

/-- A session that was paused at `0`, for a manager that lets it pause for an hour. -/
def pausedRow : SessionRow := { SessionRow.created with status := .paused, pausedAt := some 0 }

/-- The recovery, a day later. -/
def dayLater : Recovery where
  manager := { Manager.fresh oneSlot [pausedRow] with clock := 86400 }
  current := 86400
  todo := [(0, 0)]

lemma dayLater_reachable : (recoverySystem oneSlot [pausedRow]).Reachable dayLater :=
  .init ⟨rfl, .refl _, List.pairwise_singleton .., rfl⟩

/-- It cancels the overdue session. -/
def cancelOverdue : List RecoveryLabel := [.next, .manager (.call 0 .ok), .back]

/-- The condition is met by a database whose rows have ended. -/
theorem recovery_settles_of_ended :
    let row := { SessionRow.created with status := .completed }
    let s := { dayLater with
      manager := { Manager.fresh oneSlot [row] with clock := 86400 }, todo := [] }
    Settled oneSlot [row] s ↔ ∀ r ∈ [row], r.status = .paused → r.pausedAt = none := by
  intro row s
  have hreach : (recoverySystem oneSlot [row]).Reachable s :=
    .init ⟨rfl, .refl _, List.Pairwise.nil, rfl⟩
  exact recovery_settles_iff hreach

/-- The recovery reports one session as cancelled, and the session is still paused. -/
theorem overdue_row_stays_paused : ∃ s, (recoverySystem oneSlot [pausedRow]).Reachable s ∧ s.Done ∧
    s.cancelled = 1 ∧ (s.manager.sess 0).row = some pausedRow ∧
    ¬ Settled oneSlot [pausedRow] s := by
  have hrun : ((recoverySystem oneSlot [pausedRow]).run dayLater cancelOverdue).map
      (fun s => (decide s.Done, s.cancelled, (s.manager.sess 0).row))
        = some (true, 1, some pausedRow) := by decide
  obtain ⟨s, hs, he⟩ := Option.map_eq_some_iff.mp hrun
  simp only [Prod.mk.injEq, decide_eq_true_eq] at he
  have hreach : (recoverySystem oneSlot [pausedRow]).Reachable s := .of_run dayLater_reachable hs
  exact ⟨s, hreach, he.1, he.2.1, he.2.2, not_settled hreach (List.mem_singleton.mpr rfl)⟩

/-! ### What it does do -/

/-- Nothing runs but the recovery and the `cancel` it awaits. -/
def Undisturbed (s : Recovery) : RecoveryLabel → Prop
  | .next | .back => True
  | .manager l => ∃ cid r, s.awaiting = some cid ∧ l = .call cid r

/-- Every row within its window is still to come, or has the timer it had. -/
structure Arming (cfg : ManagerConfig) (rows : List SessionRow) (s : Recovery) : Prop where
  clock : s.manager.clock = s.current
  listed : ∀ p ∈ s.todo, p ∈ pausedRows rows
  cancels : ∀ cid, s.awaiting = some cid → ∃ i t pc, s.manager.calls cid = .cancel i pc ∧
    (i, t) ∈ pausedRows rows ∧ t + cfg.pausedTimeoutS ≤ s.current
  timed : ∀ sid t, (sid, t) ∈ pausedRows rows → s.current < t + cfg.pausedTimeoutS →
    (sid, t) ∈ s.todo ∨ (s.manager.sess sid).timer = some (.armed (t + cfg.pausedTimeoutS))

lemma pausedRows_unique {sid : SessionId} {t u : Time} (ht : (sid, t) ∈ pausedRows rows)
    (hu : (sid, u) ∈ pausedRows rows) : t = u := by
  obtain ⟨r, hr, -, hrt⟩ := mem_pausedRows.mp ht
  obtain ⟨r', hr', -, hru⟩ := mem_pausedRows.mp hu
  cases hr.symm.trans hr'
  exact Option.some.inj (hrt.symm.trans hru)

/-- The awaited `cancel` runs on: it touches its own session, if any. -/
lemma cancel_call {m m' : Manager} {cid : CallId} {i : SessionId} {pc : CancelPc} {r : Reply}
    (hc : m.calls cid = .cancel i pc) (h : m.callStep cfg cid r = some m') :
    m'.clock = m.clock ∧ (∃ pc', m'.calls cid = .cancel i pc') ∧
      ∀ sid, sid ≠ i → m'.sess sid = m.sess sid := by
  simp only [callStep, hc] at h
  have hclock : (m.cancelBlock i).clock = m.clock := by
    simp only [cancelBlock]
    split <;> rfl
  have hblock : ∀ c, ((m.cancelBlock i).setCall cid (.cancel i c)).clock = m.clock ∧
      (∃ pc', ((m.cancelBlock i).setCall cid (.cancel i c)).calls cid = .cancel i pc') ∧
        ∀ sid, sid ≠ i → ((m.cancelBlock i).setCall cid (.cancel i c)).sess sid = m.sess sid := by
    intro c
    refine ⟨hclock, ⟨c, by simp⟩, ?_⟩
    intro sid hne
    simp [hne]
  cases pc with
  | done => simp [cancelStep] at h
  | audit =>
      cases r with
      | ok =>
          cases h
          exact hblock _
      | raise e =>
          simp only [cancelStep] at h
          split at h
          · cases h
            exact ⟨rfl, ⟨.done (.error e), by simp⟩, fun _ _ => rfl⟩
          · cases h
            exact hblock _
      | ack | credentials | started | swallowed => simp [cancelStep] at h

lemma arming_step {s t : Recovery} {l : RecoveryLabel} (hi : Arming cfg rows s)
    (hg : Undisturbed s l) (h : s.step cfg l = some t) : Arming cfg rows t := by
  obtain ⟨hclock, hlisted, hcancels, htimed⟩ := hi
  cases l with
  | manager l =>
      obtain ⟨cid, r, hcid, rfl⟩ := hg
      obtain ⟨m, hm, rfl⟩ := Option.map_eq_some_iff.mp h
      obtain ⟨i, u, pc, hc, hmem, hover⟩ := hcancels cid hcid
      obtain ⟨hmclock, ⟨pc', hpc'⟩, hsess⟩ := cancel_call hc hm
      refine ⟨hmclock.trans hclock, hlisted, ?_, ?_⟩
      · intro c hc'
        cases hcid.symm.trans hc'
        exact ⟨i, u, pc', hpc', hmem, hover⟩
      · intro sid t ht hlt
        have hne : sid ≠ i := by
          rintro rfl
          cases pausedRows_unique ht hmem
          exact absurd hover (Nat.not_le.mpr hlt)
        show _ ∨ (m.sess sid).timer = _
        rw [hsess sid hne]
        exact htimed sid t ht hlt
  | next =>
      simp only [step] at h
      split at h
      · rename_i i u todo hawait htodo
        have hmem : (i, u) ∈ pausedRows rows := hlisted _ (by rw [htodo]; exact List.mem_cons_self)
        have hrest : ∀ p ∈ todo, p ∈ pausedRows rows := by
          intro p hp
          exact hlisted p (by rw [htodo]; exact List.mem_cons_of_mem _ hp)
        split at h
        · rename_i hover
          cases h
          refine ⟨hclock, hrest, ?_, ?_⟩
          · intro cid hcid
            cases hcid
            exact ⟨i, u, .audit, by simp, hmem, hover⟩
          · intro sid t ht hlt
            rcases htimed sid t ht hlt with hin | harmed
            · rw [htodo] at hin
              rcases List.mem_cons.mp hin with heq | hin
              · cases heq
                exact absurd hover (Nat.not_le.mpr hlt)
              · exact Or.inl hin
            · exact Or.inr harmed
        · rename_i hwithin
          cases h
          refine ⟨hclock, hrest, ?_, ?_⟩
          · intro cid hcid
            cases hawait.symm.trans hcid
          · intro sid t ht hlt
            by_cases hsid : sid = i
            · subst hsid
              have heq := pausedRows_unique ht hmem
              refine Or.inr ?_
              have hleft : s.manager.clock + (u + cfg.pausedTimeoutS - s.current)
                  = t + cfg.pausedTimeoutS := by
                have hlt' : s.current < u + cfg.pausedTimeoutS := heq ▸ hlt
                rw [hclock, heq]
                exact Nat.add_sub_of_le (Nat.le_of_lt hlt')
              simp [hleft]
            · rcases htimed sid t ht hlt with hin | harmed
              · rw [htodo] at hin
                rcases List.mem_cons.mp hin with heq | hin
                · cases heq
                  exact absurd rfl hsid
                · exact Or.inl hin
              · exact Or.inr (by simpa [hsid] using harmed)
      · cases h
  | back =>
      simp only [step] at h
      have hdone : ∀ n, Arming cfg rows { s with awaiting := none, cancelled := n } := by
        intro n
        exact ⟨hclock, hlisted, fun _ hcid => absurd hcid (by simp), htimed⟩
      split at h
      · cases h
      · split at h
        · cases h
          exact hdone _
        · split at h
          · cases h
          · cases h
            exact hdone _
        · cases h

/-- Undisturbed, the recovery gives every row within its window the timer it had. -/
theorem recovery_arms (h : (recoverySystem cfg rows).ReachableVia Undisturbed s) (hd : s.Done)
    {sid : SessionId} {t : Time} (hp : (sid, t) ∈ pausedRows rows)
    (hlt : s.current < t + cfg.pausedTimeoutS) :
    (s.manager.sess sid).timer = some (.armed (t + cfg.pausedTimeoutS)) := by
  have hi : Arming cfg rows s := by
    refine h.invariant ?_ ?_
    · rintro s ⟨hm, hperm, -, hawait⟩
      refine ⟨by rw [hm], fun p hp => hperm.mem_iff.mp hp, ?_, ?_⟩
      · intro cid hcid
        cases hawait.symm.trans hcid
      · intro sid t ht _
        exact Or.inl (hperm.mem_iff.mpr ht)
    · intro s l t hi hg hs
      exact arming_step hi hg hs
  rcases hi.timed sid t hp hlt with hin | harmed
  · rw [hd.2] at hin
    cases hin
  · exact harmed

end Recovery

end GgRelay
