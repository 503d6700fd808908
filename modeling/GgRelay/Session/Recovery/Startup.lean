import GgRelay.Store.Versions

/-!
`recover_on_startup` and `recover_queued_rows` (`session/recovery.py`) with several workers on one
store.

The recovery of a worker interrupts whatever row says `running`, and `queued` since before the
worker started.  A row does not say which worker runs its session.

* `Cluster` is the store with what the processes of the workers hold: `Cluster.step` starts and stops
  workers, executes one statement of a recovery, or lets a worker get on with a session;
* `RowsKept` is the invariant: a row says what its worker wrote last, unless it was interrupted;
* `RecoverGuard` is the condition, `recovery_spares_live` the result about runs, and
  `live_session_is_interrupted` a run in which a second worker starts.
-/

namespace GgRelay

/-- A session as the worker that runs it knows it. -/
structure Holding where
  /-- `none` once that worker has stopped -/
  worker : Option ℕ
  /-- the `_run` task is there, and not done -/
  alive : Bool
  /-- the status that was written last -/
  status : SessionState
  submittedAt : Time
  deriving DecidableEq, Repr

/-- The row of this session, as its worker wrote it, is in the `WHERE` clause. -/
def Sweep.hits (o : Holding) : Sweep → Bool
  | .inFlight => o.status = .running
  | .queued cutoff => o.status = .queued && decide (o.submittedAt < cutoff)

/-- How far the lifespan of a worker has come; `cutoff` is `lifespan_started_at`. -/
inductive WorkerStage where
  | down
  | starting (cutoff : Time)
  /-- in `mark_in_flight_as_interrupted`, after its `SELECT` -/
  | promoting (cutoff : Time)
  | promoted (cutoff : Time)
  /-- in `mark_queued_as_interrupted`, after its `SELECT` -/
  | interrupting (cutoff : Time)
  | up
  deriving DecidableEq, Repr

/-- Any number of workers on one store. -/
structure Cluster where
  store : SessionStore
  stage : ℕ → WorkerStage := fun _ => .down
  held : Dict String Holding := ∅

inductive ClusterLabel where
  /-- the process of a worker starts -/
  | start (w : ℕ) (now : Time)
  /-- the next statement of its recovery -/
  | recover (w : ℕ) (now : Time)
  /-- the process ends, or is killed -/
  | stop (w : ℕ)
  /-- `submit` inserts the row -/
  | submit (w : ℕ) (sid : String) (now : Time)
  /-- and creates the task -/
  | spawn (sid : String)
  /-- the worker of a session writes its row, in the call `x` -/
  | write (x : ℕ) (sid : String) (f : StatusFields) (expected : ℕ)
  /-- the task is done -/
  | finish (sid : String)
  | delete (sid : String)
  deriving DecidableEq

namespace Cluster

variable (s : Cluster)

/-- The worker `w` executes a statement of its recovery and comes to the next stage. -/
def recoverBy (w : ℕ) (l : StoreLabel) (next : WorkerStage) : Option Cluster :=
  (s.store.step l).map fun store =>
    { s with store := store, stage := Function.update s.stage w next }

def step : ClusterLabel → Option Cluster
  | .start w now =>
      if s.stage w = .down then some { s with stage := Function.update s.stage w (.starting now) }
      else none
  | .recover w now =>
      match s.stage w with
      | .starting cutoff => s.recoverBy w (.find w .inFlight) (.promoting cutoff)
      | .promoting cutoff => s.recoverBy w (.sweep w now) (.promoted cutoff)
      | .promoted cutoff => s.recoverBy w (.find w (.queued cutoff)) (.interrupting cutoff)
      | .interrupting _ => s.recoverBy w (.sweep w now) .up
      | _ => none
  | .stop w =>
      some { s with
        store := s.store.setWriter w .idle
        stage := Function.update s.stage w .down
        held := s.held.mapValues fun _ o =>
          if o.worker = some w then { o with worker := none, alive := false } else o }
  | .submit w sid now =>
      -- the id is a fresh `uuid4`
      if s.stage w = .up ∧ sid ∉ s.held then
        (s.store.step (.create sid now)).map fun store =>
          { s with store := store, held := s.held.insert sid ⟨some w, false, .queued, now⟩ }
      else none
  | .spawn sid =>
      match s.held.lookup sid with
      | none => none
      | some o =>
          if o.worker = none then none
          else some { s with held := s.held.insert sid { o with alive := true } }
  | .write x sid f expected =>
      match s.held.lookup sid with
      | none => none
      | some o =>
          if o.worker = none then none
          else
            (s.store.step (.update x sid f expected)).map fun store =>
              if store.writers x = .returned (expected + 1) then
                { s with
                  store := store
                  held := s.held.insert sid { o with status := f.status.getD o.status } }
              else { s with store := store }
  | .finish sid =>
      match s.held.lookup sid with
      | none => none
      | some o => some { s with held := s.held.insert sid { o with alive := false } }
  | .delete sid => (s.store.step (.delete sid)).map fun store => { s with store := store }

/-- The status of a row. -/
def status? (sid : String) : Option SessionState := (s.store.table.lookup sid).map (·.status)

end Cluster

/-- The workers over any table that earlier processes left behind. -/
def clusterSystem : System Cluster ClusterLabel where
  init s := (∀ w, s.stage w = .down) ∧ (∀ w, s.store.writers w = .idle) ∧ s.held = ∅
  step := Cluster.step

/-- The recovery of a worker leaves alone what another worker runs. -/
def Spares (s t : Cluster) (l : ClusterLabel) : Prop :=
  ∀ w now, l = .recover w now → ∀ sid o, s.held.lookup sid = some o → o.alive = true →
    o.worker ≠ some w → t.status? sid = s.status? sid

/-- When the bulk update of a recovery is executed, no session that another worker runs is
`running`, or `queued` since before the cutoff. -/
def RecoverGuard (s : Cluster) : ClusterLabel → Prop
  | .recover w _ =>
      match s.store.writers w with
      | .sweeping q ids => ids = [] ∨ ∀ p ∈ s.held.entries, p.2.alive = true →
          p.2.worker ≠ some w → q.hits p.2 = false
      | _ => True
  | _ => True

instance (s : Cluster) (l : ClusterLabel) : Decidable (RecoverGuard s l) := by
  unfold RecoverGuard
  split
  · split <;> infer_instance
  · infer_instance

/-! ### Rows and sessions -/

/-- The row of a session says what its worker wrote last, unless a recovery has interrupted it. -/
structure RowKept (o : Holding) (r : StoredSession) : Prop where
  status : r.status = .interrupted ∨ r.status = o.status
  submittedAt : r.submittedAt = o.submittedAt

lemma RowKept.finds_eq_false {o : Holding} {r : StoredSession} (h : RowKept o r) {q : Sweep}
    (hq : q.hits o = false) : q.finds r = false := by
  by_contra hne
  have hf : q.finds r = true := by simpa using hne
  rcases h.status with hst | hst
  · exact Sweep.status_of_finds hf hst
  · have heq : q.finds r = q.hits o := by
      cases q with
      | inFlight => simp [Sweep.finds, Sweep.hits, hst]
      | queued cutoff => simp [Sweep.finds, Sweep.hits, hst, h.submittedAt]
    rw [heq, hq] at hf
    cases hf

/-- Interrupting a row keeps it. -/
lemma RowKept.sweep {o : Holding} {r : StoredSession} (h : RowKept o r) (q : Sweep) (now : Time) :
    RowKept o (if q.finds r then q.put now r else r) := by
  split
  · exact ⟨Or.inl rfl, h.submittedAt⟩
  · exact h

/-- What the worker writes is what the row says, unless nothing is said about the status. -/
lemma RowKept.put {o : Holding} {r : StoredSession} (h : RowKept o r) (f : StatusFields) (v : ℕ) :
    RowKept { o with status := f.status.getD o.status } (r.put f v) := by
  refine ⟨?_, h.submittedAt⟩
  show f.status.getD r.status = _ ∨ f.status.getD r.status = f.status.getD o.status
  cases f.status with
  | none => exact h.status
  | some st => exact Or.inr rfl

def RowsKept (s : Cluster) : Prop :=
  ∀ sid o r, s.held.lookup sid = some o → s.store.table.lookup sid = some r → RowKept o r

namespace SessionStore

variable {s t : SessionStore}

/-- The `SELECT` of a bulk update writes nothing. -/
lemma table_find {w : ℕ} {q : Sweep} (h : s.step (.find w q) = some t) : t.table = s.table := by
  simp only [step] at h
  split at h
  · cases h
    rfl
  · cases h

/-- Its `UPDATE` rewrites the rows it finds. -/
lemma lookup_sweep {w : ℕ} {now : Time} (h : s.step (.sweep w now) = some t) :
    ∃ q ids, s.writers w = .sweeping q ids ∧ ∀ i, t.table.lookup i =
      if ids = [] then s.table.lookup i
      else (s.table.lookup i).map fun r => if q.finds r then q.put now r else r := by
  simp only [step] at h
  split at h
  · rename_i q ids hw
    refine ⟨q, ids, hw, ?_⟩
    intro i
    split at h
    · rename_i hids
      cases h
      rw [if_pos hids]
      rfl
    · rename_i hids
      cases h
      rw [if_neg hids]
      exact Dict.lookup_mapValues ..
  · cases h

/-- A versioned update writes one row, or none. -/
lemma lookup_update {x v : ℕ} {sid : String} {f : StatusFields}
    (h : s.step (.update x sid f v) = some t) (i : String) :
    t.writers x ≠ .returned (v + 1) ∧ t.table.lookup i = s.table.lookup i ∨
      t.writers x = .returned (v + 1) ∧ t.table.lookup i =
        if i = sid then (s.table.lookup sid).map (·.put f (v + 1)) else s.table.lookup i := by
  simp only [step] at h
  split at h
  · split at h
    · cases h
      exact Or.inl ⟨by simp, rfl⟩
    · split at h
      · cases h
        exact Or.inl ⟨by simp, rfl⟩
      · rename_i r hr
        split at h
        · cases h
          refine Or.inr ⟨by simp, ?_⟩
          rw [setWriter_table, lookup_write, hr]
          rfl
        · cases h
          exact Or.inl ⟨by simp, rfl⟩
  · cases h

end SessionStore

namespace Cluster

variable {s t : Cluster}

lemma recoverBy_eq {w : ℕ} {l : StoreLabel} {next : WorkerStage}
    (h : s.recoverBy w l next = some t) : t.held = s.held ∧ s.store.step l = some t.store := by
  obtain ⟨store, hstore, rfl⟩ := Option.map_eq_some_iff.mp h
  exact ⟨rfl, hstore⟩

/-- A statement of a recovery: a `SELECT`, which writes nothing, or the `UPDATE` that goes with it. -/
lemma step_recover {w : ℕ} {now : Time} (h : s.step (.recover w now) = some t) :
    t.held = s.held ∧ (t.store.table = s.store.table ∨
      ∃ q ids, s.store.writers w = .sweeping q ids ∧ ∀ i, t.store.table.lookup i =
        if ids = [] then s.store.table.lookup i
        else (s.store.table.lookup i).map fun r => if q.finds r then q.put now r else r) := by
  simp only [step] at h
  split at h
  · obtain ⟨hheld, hstore⟩ := recoverBy_eq h
    exact ⟨hheld, Or.inl (SessionStore.table_find hstore)⟩
  · obtain ⟨hheld, hstore⟩ := recoverBy_eq h
    exact ⟨hheld, Or.inr (SessionStore.lookup_sweep hstore)⟩
  · obtain ⟨hheld, hstore⟩ := recoverBy_eq h
    exact ⟨hheld, Or.inl (SessionStore.table_find hstore)⟩
  · obtain ⟨hheld, hstore⟩ := recoverBy_eq h
    exact ⟨hheld, Or.inr (SessionStore.lookup_sweep hstore)⟩
  · cases h

/-- What is held for one session is replaced by something that keeps the same row. -/
lemma rowsKept_insert {sid : String} {o : Holding} (o' : Holding) (hi : RowsKept s)
    (ho : s.held.lookup sid = some o) (hst : o'.status = o.status)
    (hsub : o'.submittedAt = o.submittedAt) {stage : ℕ → WorkerStage} :
    RowsKept ⟨s.store, stage, s.held.insert sid o'⟩ := by
  intro i x r hx hr
  by_cases hs : i = sid
  · subst hs
    cases (AList.lookup_insert s.held).symm.trans hx
    have hk := hi i o r ho hr
    exact ⟨hst ▸ hk.status, hsub ▸ hk.submittedAt⟩
  · have hx' : s.held.lookup i = some x := by
      rwa [AList.lookup_insert_ne hs] at hx
    exact hi i x r hx' hr

/-- Every step keeps the rows what their workers made them, or interrupts them. -/
lemma rowsKept_step {l : ClusterLabel} (hi : RowsKept s) (h : s.step l = some t) :
    RowsKept t := by
  cases l with
  | start w now =>
      simp only [step] at h
      split at h
      · cases h
        exact hi
      · cases h
  | recover w now =>
      obtain ⟨hheld, htable⟩ := step_recover h
      intro i o r ho hr
      rw [hheld] at ho
      rcases htable with htable | ⟨q, ids, -, hlookup⟩
      · rw [htable] at hr
        exact hi i o r ho hr
      · rw [hlookup i] at hr
        by_cases hids : ids = []
        · rw [if_pos hids] at hr
          exact hi i o r ho hr
        · rw [if_neg hids] at hr
          obtain ⟨r₀, hr₀, rfl⟩ := Option.map_eq_some_iff.mp hr
          exact (hi i o r₀ ho hr₀).sweep q now
  | stop w =>
      cases h
      intro i x r hx hr
      rw [Dict.lookup_mapValues] at hx
      obtain ⟨o, ho, rfl⟩ := Option.map_eq_some_iff.mp hx
      have hk := hi i o r ho hr
      split <;> exact ⟨hk.status, hk.submittedAt⟩
  | submit w sid now =>
      simp only [step] at h
      split at h
      · obtain ⟨store, hstore, rfl⟩ := Option.map_eq_some_iff.mp h
        simp only [SessionStore.step] at hstore
        split at hstore
        · cases hstore
        · cases hstore
          intro i x r hx hr
          by_cases hs : i = sid
          · subst hs
            cases (AList.lookup_insert s.held).symm.trans hx
            cases (AList.lookup_insert s.store.table).symm.trans hr
            exact ⟨Or.inr rfl, rfl⟩
          · have hx' : s.held.lookup i = some x := by
              rwa [AList.lookup_insert_ne hs] at hx
            have hr' : s.store.table.lookup i = some r := by
              rwa [AList.lookup_insert_ne hs] at hr
            exact hi i x r hx' hr'
      · cases h
  | spawn sid =>
      simp only [step] at h
      split at h
      · cases h
      · rename_i o ho
        split at h
        · cases h
        · cases h
          exact rowsKept_insert { o with alive := true } hi ho rfl rfl
  | write x sid f expected =>
      simp only [step] at h
      split at h
      · cases h
      · rename_i o ho
        split at h
        · cases h
        · obtain ⟨store, hstore, rfl⟩ := Option.map_eq_some_iff.mp h
          intro i y r hy hr
          rcases SessionStore.lookup_update hstore i with ⟨hw, hlookup⟩ | ⟨hw, hlookup⟩
          · rw [if_neg hw] at hy hr
            exact hi i y r hy (hlookup ▸ hr)
          · rw [if_pos hw] at hy hr
            rw [show store.table.lookup i = _ from hlookup] at hr
            by_cases hs : i = sid
            · subst hs
              rw [if_pos rfl] at hr
              obtain ⟨r₀, hr₀, rfl⟩ := Option.map_eq_some_iff.mp hr
              cases (AList.lookup_insert s.held).symm.trans hy
              exact (hi i o r₀ ho hr₀).put f _
            · rw [if_neg hs] at hr
              have hy' : s.held.lookup i = some y := by
                rwa [AList.lookup_insert_ne hs] at hy
              exact hi i y r hy' hr
  | finish sid =>
      simp only [step] at h
      split at h
      · cases h
      · rename_i o ho
        cases h
        exact rowsKept_insert { o with alive := false } hi ho rfl rfl
  | delete sid =>
      simp only [step, SessionStore.step, Option.map_some, Option.some.injEq] at h
      subst h
      intro i o r ho hr
      by_cases hs : i = sid
      · subst hs
        rw [AList.lookup_erase] at hr
        cases hr
      · have hr' : s.store.table.lookup i = some r := by
          rwa [AList.lookup_erase_ne hs] at hr
        exact hi i o r ho hr'

end Cluster

/-- Along every run, whatever the guard. -/
lemma clusterSystem_rowsKept {ok : Cluster → ClusterLabel → Prop} {s : Cluster}
    (h : clusterSystem.ReachableVia ok s) : RowsKept s := by
  refine h.invariant ?_ ?_
  · rintro s ⟨-, -, hheld⟩ i o r ho
    rw [hheld] at ho
    cases ho
  · intro s l t hi _ hs
    exact Cluster.rowsKept_step hi hs

/-- In every run in which the bulk updates meet `RecoverGuard`, no recovery changes the status of a
session that another worker runs. -/
theorem recovery_spares_live {s t : Cluster} {l : ClusterLabel}
    (h : clusterSystem.ReachableVia RecoverGuard s) (hg : RecoverGuard s l)
    (hs : clusterSystem.step s l = some t) : Spares s t l := by
  rintro w now rfl sid o ho halive hw
  obtain ⟨-, htable⟩ := Cluster.step_recover hs
  show (t.store.table.lookup sid).map _ = (s.store.table.lookup sid).map _
  rcases htable with htable | ⟨q, ids, hq, hlookup⟩
  · rw [htable]
  · rw [hlookup sid]
    by_cases hids : ids = []
    · rw [if_pos hids]
    · rw [if_neg hids]
      simp only [RecoverGuard, hq] at hg
      have hmiss : q.hits o = false :=
        hg.resolve_left hids _ (AList.mem_lookup_iff.mp ho) halive hw
      cases hr : s.store.table.lookup sid with
      | none => rfl
      | some r =>
          have hfinds : q.finds r = false :=
            (clusterSystem_rowsKept h sid o r ho hr).finds_eq_false hmiss
          simp [hfinds]

/-- A store with a row that an earlier process left `running`. -/
def leftRunning : Cluster where
  store :=
    { table := (∅ : Dict String StoredSession).insert "old"
        { StoredSession.created 0 with status := .running } }

lemma leftRunning_reachable {ok : Cluster → ClusterLabel → Prop} :
    clusterSystem.ReachableVia ok leftRunning :=
  .init ⟨fun _ => rfl, fun _ => rfl, rfl⟩

/-- The worker `0` starts and gets a session to run. -/
def firstWorker : List ClusterLabel :=
  [.start 0 1, .recover 0 1, .recover 0 1, .recover 0 1, .recover 0 1, .submit 0 "s" 2, .spawn "s",
    .write 5 "s" { status := some .running } 0]

/-- The session is paused when the worker `1` starts, and comes to its first bulk update. -/
theorem recovery_spares_live_of_paused : ∃ s t,
    clusterSystem.ReachableVia RecoverGuard s ∧ RecoverGuard s (.recover 1 4) ∧
      clusterSystem.step s (.recover 1 4) = some t ∧ t.status? "s" = some .paused ∧
      Spares s t (.recover 1 4) := by
  have hrun : ((clusterSystem.checkedRun RecoverGuard leftRunning
      (firstWorker ++ [.write 5 "s" { status := some .paused } 1, .start 1 3, .recover 1 4])).bind
        fun s => (clusterSystem.step s (.recover 1 4)).map fun t =>
          (decide (RecoverGuard s (.recover 1 4)), t.status? "s")) = some (true, some .paused) := by
    decide
  obtain ⟨s, hs, ht⟩ := Option.bind_eq_some_iff.mp hrun
  obtain ⟨t, hst, he⟩ := Option.map_eq_some_iff.mp ht
  simp only [Prod.mk.injEq, decide_eq_true_eq] at he
  have hreach := System.ReachableVia.of_checkedRun leftRunning_reachable hs
  exact ⟨s, t, hreach, he.1, hst, he.2, recovery_spares_live hreach he.1 hst⟩

/-- The session runs when the worker `1` starts: the recovery interrupts its row. -/
theorem live_session_is_interrupted : ∃ s t,
    clusterSystem.Reachable s ∧ clusterSystem.step s (.recover 1 4) = some t ∧
      s.held.lookup "s" = some ⟨some 0, true, .running, 2⟩ ∧
      t.status? "s" = some .interrupted ∧ ¬ Spares s t (.recover 1 4) := by
  have hrun : ((clusterSystem.run leftRunning (firstWorker ++ [.start 1 3, .recover 1 4])).bind
      fun s => (clusterSystem.step s (.recover 1 4)).map fun t =>
        (s.held.lookup "s", s.status? "s", t.status? "s"))
        = some (some ⟨some 0, true, .running, 2⟩, some .running, some .interrupted) := by
    decide
  obtain ⟨s, hs, ht⟩ := Option.bind_eq_some_iff.mp hrun
  obtain ⟨t, hst, he⟩ := Option.map_eq_some_iff.mp ht
  simp only [Prod.mk.injEq] at he
  obtain ⟨hheld, hbefore, hafter⟩ := he
  refine ⟨s, t, .of_run leftRunning_reachable hs, hst, hheld, hafter, ?_⟩
  intro hspares
  have hsame := hspares 1 4 rfl "s" _ hheld rfl (by decide)
  rw [hbefore, hafter] at hsame
  cases hsame

end GgRelay
