import GgRelay.Lib.Dict
import GgRelay.Lib.Stamp
import GgRelay.Lib.System
import GgRelay.Store.SessionRow

/-!
The version of a `sessions` row under any number of writers, one statement at a time.

`SqlAlchemyStore` writes the status of a row in four ways: the versioned `update_session_status`,
the same without an `expected_version`, and two bulk updates at startup.  All but the first are
a `SELECT` and an `UPDATE`, between which others get in.

* `Writer` is where a call of one of them is, `SessionStore.step` executes one statement;
* `StepSound` is what a statement owes: a change of the status raises the version, and a versioned
  update goes through only if nothing changed since the version was read;
* `LockGuard` is the condition: no bulk update finds a row and no unversioned update is overtaken;
* `TableMove` sums up what an admitted statement does to the rows;
* `updateSessionStatus_of_step` compares the versioned update with the transaction as a whole;
* `optimistic_lock_sound` is the result about runs, `interrupted_row_is_paused` a run in which the
  recovery of another worker goes unnoticed.
-/

namespace GgRelay

/-- A row of the `sessions` table. -/
structure StoredSession extends SessionRow where
  submittedAt : Time
  deriving DecidableEq, Repr

/-- The row `create_session` inserts. -/
def StoredSession.created (submittedAt : Time) : StoredSession :=
  { SessionRow.created with submittedAt }

/-- `update(sessions).values(...)` on the row, with the new version. -/
def StoredSession.put (r : StoredSession) (f : StatusFields) (version : ℕ) : StoredSession :=
  { f.write r.toSessionRow version with submittedAt := r.submittedAt }

@[simp] lemma StoredSession.put_version (r : StoredSession) (f : StatusFields) (v : ℕ) :
    (r.put f v).version = v := rfl

/-- A bulk update: `mark_in_flight_as_interrupted`, `mark_queued_as_interrupted`. -/
inductive Sweep where
  | inFlight
  | queued (cutoff : Time)
  deriving DecidableEq, Repr

namespace Sweep

/-- The `WHERE` clause. -/
def finds (r : StoredSession) : Sweep → Bool
  | .inFlight => r.status = .running
  | .queued cutoff => r.status = .queued && decide (r.submittedAt < cutoff)

/-- `end_reason`. -/
def reason : Sweep → String
  | .inFlight => "interrupted_on_startup"
  | .queued _ => "queued_interrupted_on_startup"

/-- `update(sessions).values(...)`: the version is not among the columns. -/
def put (q : Sweep) (now : Time) (r : StoredSession) : StoredSession :=
  { r with status := .interrupted, endedAt := some now, endReason := some q.reason }

lemma status_of_finds {q : Sweep} {r : StoredSession} (h : q.finds r = true) :
    r.status ≠ .interrupted := by
  cases q with
  | inFlight =>
      have hr : r.status = .running := of_decide_eq_true h
      simp [hr]
  | queued cutoff =>
      simp only [finds, Bool.and_eq_true, decide_eq_true_eq] at h
      simp [h.1]

end Sweep

/-- Where a call into the store is. -/
inductive Writer where
  | idle
  /-- the versioned `UPDATE` matched no row: the current version is to be read -/
  | refused (sid : String)
  /-- an unversioned update, after its `SELECT` -/
  | bumping (sid : String) (f : StatusFields) (version : ℕ)
  /-- a bulk update, after its `SELECT` -/
  | sweeping (q : Sweep) (ids : List String)
  | returned (version : ℕ)
  | raised (e : ConcurrencyError)
  | swept (ids : List String)
  deriving DecidableEq

/-- The call is over, or there was none. -/
def Writer.isDone : Writer → Bool
  | .refused _ | .bumping _ _ _ | .sweeping _ _ => false
  | _ => true

/-- The `sessions` table and the calls that work on it. -/
structure SessionStore where
  table : Dict String StoredSession
  writers : ℕ → Writer := fun _ => .idle
  /-- history: the changes of the status of a row since it was inserted -/
  changes : String → ℕ := fun _ => 0
  /-- history: the versions that were read, each with the number of changes at that time -/
  reads : String → List (ℕ × ℕ) := fun _ => []

/-- A statement. -/
inductive StoreLabel where
  | create (sid : String) (now : Time)
  | delete (sid : String)
  /-- `get_session`, `get_session_version` or a list of rows -/
  | read (sid : String)
  /-- the `UPDATE` of `update_session_status` with `expected_version` -/
  | update (w : ℕ) (sid : String) (f : StatusFields) (expected : ℕ)
  /-- the `SELECT` after an `UPDATE` that matched no row -/
  | reread (w : ℕ)
  /-- the `SELECT` of `update_session_status` without `expected_version` -/
  | select (w : ℕ) (sid : String) (f : StatusFields)
  /-- its `UPDATE` -/
  | bump (w : ℕ)
  /-- the `SELECT` of a bulk update -/
  | find (w : ℕ) (q : Sweep)
  /-- its `UPDATE` -/
  | sweep (w : ℕ) (now : Time)
  deriving DecidableEq

namespace SessionStore

variable (s : SessionStore)

def setWriter (w : ℕ) (x : Writer) : SessionStore :=
  { s with writers := Function.update s.writers w x }

/-- A row is rewritten. -/
def write (sid : String) (r r' : StoredSession) : SessionStore :=
  { s with
    table := s.table.insert sid r'
    changes :=
      if r'.status = r.status then s.changes
      else Function.update s.changes sid (s.changes sid + 1) }

/-- The `UPDATE` of a bulk update. -/
def sweepRows (q : Sweep) (now : Time) : SessionStore :=
  { s with
    table := s.table.mapValues fun _ r => if q.finds r then q.put now r else r
    changes := fun sid =>
      if (s.table.lookup sid).any q.finds then s.changes sid + 1 else s.changes sid }

/-- The ids a bulk update finds. -/
def found (q : Sweep) : List String :=
  (s.table.entries.filter fun p => q.finds p.2).map (·.1)

def step : StoreLabel → Option SessionStore
  | .create sid now =>
      -- the primary key refuses a second row
      if sid ∈ s.table then none
      else
        some { s with
          table := s.table.insert sid (.created now)
          changes := Function.update s.changes sid 0
          reads := Function.update s.reads sid [] }
  | .delete sid => some { s with table := s.table.erase sid }
  | .read sid =>
      match s.table.lookup sid with
      | none => some s
      | some r =>
          some { s with
            reads := Function.update s.reads sid ((r.version, s.changes sid) :: s.reads sid) }
  | .update w sid f expected =>
      if (s.writers w).isDone then
        if f.isEmpty then some (s.setWriter w (.returned expected))
        else
          match s.table.lookup sid with
          | none => some (s.setWriter w (.refused sid))
          | some r =>
              if r.version = expected then
                some ((s.write sid r (r.put f (expected + 1))).setWriter w
                  (.returned (expected + 1)))
              else some (s.setWriter w (.refused sid))
      else none
  | .reread w =>
      match s.writers w with
      | .refused sid => some (s.setWriter w (.raised ⟨(s.table.lookup sid).map (·.version)⟩))
      | _ => none
  | .select w sid f =>
      if (s.writers w).isDone then
        if f.isEmpty then some (s.setWriter w (.returned 0))
        else
          match s.table.lookup sid with
          | none => some (s.setWriter w (.returned 0))
          | some r => some (s.setWriter w (.bumping sid f (r.version + 1)))
      else none
  | .bump w =>
      match s.writers w with
      | .bumping sid f version =>
          match s.table.lookup sid with
          | none => some (s.setWriter w (.returned version))
          | some r => some ((s.write sid r (r.put f version)).setWriter w (.returned version))
      | _ => none
  | .find w q =>
      if (s.writers w).isDone then some (s.setWriter w (.sweeping q (s.found q))) else none
  | .sweep w now =>
      match s.writers w with
      | .sweeping q ids =>
          if ids = [] then some (s.setWriter w (.swept ids))
          else some ((s.sweepRows q now).setWriter w (.swept ids))
      | _ => none

end SessionStore

/-- The store over any table that earlier processes left behind. -/
def storeSystem : System SessionStore StoreLabel where
  init s := (∀ w, s.writers w = .idle) ∧ ∀ sid, s.reads sid = []
  step := SessionStore.step

/-! ### What is asked, and the condition -/

/-- What a statement owes to the rows and to its caller. -/
structure StepSound (s t : SessionStore) (l : StoreLabel) : Prop where
  /-- a change of the status raises the version -/
  bumps : ∀ sid r r', s.table.lookup sid = some r → t.table.lookup sid = some r' →
    r'.status ≠ r.status → r.version < r'.version
  /-- a versioned update that goes through found the version it expected, nothing has changed since
  that version was read, and the caller is given the next one -/
  succeeds : ∀ w sid f v n, l = .update w sid f v → f.isEmpty = false →
    t.writers w = .returned n → n = v + 1 ∧
      (∃ r, s.table.lookup sid = some r ∧ r.version = v ∧ t.table.lookup sid = some (r.put f n)) ∧
      ∀ c, (v, c) ∈ s.reads sid → c = s.changes sid
  /-- one that does not go through leaves the table alone -/
  refuses : ∀ w sid f v, l = .update w sid f v → f.isEmpty = false →
    (∀ n, t.writers w ≠ .returned n) → t.writers w = .refused sid ∧ t.table = s.table
  /-- and its caller is told the current version -/
  raises : ∀ w sid, l = .reread w → s.writers w = .refused sid →
    t.writers w = .raised ⟨(s.table.lookup sid).map (·.version)⟩ ∧ t.table = s.table

/-- No bulk update finds a row to change, and no unversioned update is overtaken between its two
statements. -/
def LockGuard (s : SessionStore) : StoreLabel → Prop
  | .bump w =>
      match s.writers w with
      | .bumping sid _ version => ∀ r ∈ s.table.lookup sid, r.version < version
      | _ => True
  | .sweep w _ =>
      match s.writers w with
      | .sweeping q ids => ids = [] ∨ ∀ p ∈ s.table.entries, q.finds p.2 = false
      | _ => True
  | _ => True

instance (s : SessionStore) (l : StoreLabel) : Decidable (LockGuard s l) := by
  unfold LockGuard
  split
  · split <;> infer_instance
  · split <;> infer_instance
  · infer_instance

/-! ### What a statement does to the rows -/

namespace SessionStore

variable {s t : SessionStore} {sid : String} {r r' : StoredSession}

@[simp] lemma setWriter_table (w : ℕ) (x : Writer) : (s.setWriter w x).table = s.table := rfl

@[simp] lemma setWriter_writers (w : ℕ) (x : Writer) : (s.setWriter w x).writers w = x :=
  Function.update_self ..

lemma lookup_write (i : String) : (s.write sid r r').table.lookup i =
    if i = sid then some r' else s.table.lookup i := by
  by_cases hi : i = sid
  · subst hi
    rw [if_pos rfl]
    exact AList.lookup_insert _
  · rw [if_neg hi]
    exact AList.lookup_insert_ne hi

lemma changes_write_of_ne {i : String} (hi : i ≠ sid) :
    (s.write sid r r').changes i = s.changes i := by
  simp only [write]
  split
  · rfl
  · exact Function.update_of_ne hi ..

lemma le_changes_write (i : String) : s.changes i ≤ (s.write sid r r').changes i := by
  by_cases hi : i = sid
  · subst hi
    simp only [write]
    split
    · exact le_refl _
    · simp
  · exact (changes_write_of_ne hi).ge

/-- A bulk update that finds no row writes none. -/
lemma lookup_sweepRows {q : Sweep} (h : ∀ p ∈ s.table.entries, q.finds p.2 = false) (now : Time)
    (i : String) : (s.sweepRows q now).table.lookup i = s.table.lookup i := by
  show (Dict.mapValues _ s.table).lookup i = s.table.lookup i
  rw [Dict.lookup_mapValues]
  cases hi : s.table.lookup i with
  | none => rfl
  | some r =>
      have hr : q.finds r = false := h _ (AList.mem_lookup_iff.mp hi)
      simp [hr]

lemma changes_sweepRows {q : Sweep} (h : ∀ p ∈ s.table.entries, q.finds p.2 = false) (now : Time)
    (i : String) : (s.sweepRows q now).changes i = s.changes i := by
  show (if (s.table.lookup i).any q.finds then _ else _) = _
  cases hi : s.table.lookup i with
  | none => rfl
  | some r =>
      have hr : q.finds r = false := h _ (AList.mem_lookup_iff.mp hi)
      simp [hr]

end SessionStore

/-- What an admitted statement does to the rows and to their history: nothing, or it reads,
rewrites, inserts or deletes one of them, a rewritten row getting a greater version. -/
inductive TableMove (s t : SessionStore) : Prop
  | still (htable : ∀ i, t.table.lookup i = s.table.lookup i)
      (hchanges : ∀ i, t.changes i = s.changes i) (hreads : t.reads = s.reads)
  | noted (sid : String) (r : StoredSession) (hr : s.table.lookup sid = some r)
      (htable : t.table = s.table) (hchanges : t.changes = s.changes)
      (hreads : t.reads = Function.update s.reads sid ((r.version, s.changes sid) :: s.reads sid))
  | wrote (sid : String) (r r' : StoredSession) (hr : s.table.lookup sid = some r)
      (hv : r.version < r'.version) (htable : t.table = (s.write sid r r').table)
      (hchanges : t.changes = (s.write sid r r').changes) (hreads : t.reads = s.reads)
  | created (sid : String) (now : Time) (hsid : s.table.lookup sid = none)
      (htable : t.table = s.table.insert sid (.created now))
      (hchanges : t.changes = Function.update s.changes sid 0)
      (hreads : t.reads = Function.update s.reads sid [])
  | deleted (sid : String) (htable : t.table = s.table.erase sid)
      (hchanges : t.changes = s.changes) (hreads : t.reads = s.reads)

namespace SessionStore

variable {s t : SessionStore}

lemma TableMove.setWriter (w : ℕ) (x : Writer) : TableMove s (s.setWriter w x) :=
  .still (fun _ => rfl) (fun _ => rfl) rfl

/-- Every admitted statement is such a move. -/
lemma step_move {l : StoreLabel} (hg : LockGuard s l) (h : s.step l = some t) :
    TableMove s t := by
  cases l with
  | create sid now =>
      simp only [step] at h
      split at h
      · cases h
      · rename_i hsid
        cases h
        exact .created sid now (AList.lookup_eq_none.mpr hsid) rfl rfl rfl
  | delete sid =>
      cases h
      exact .deleted sid rfl rfl rfl
  | read sid =>
      simp only [step] at h
      split at h
      · cases h
        exact .still (fun _ => rfl) (fun _ => rfl) rfl
      · rename_i r hr
        cases h
        exact .noted sid r hr rfl rfl rfl
  | update w sid f expected =>
      simp only [step] at h
      split at h
      · split at h
        · cases h
          exact TableMove.setWriter ..
        · split at h
          · cases h
            exact TableMove.setWriter ..
          · rename_i r hr
            split at h
            · rename_i hv
              cases h
              refine .wrote sid r _ hr ?_ rfl rfl rfl
              rw [StoredSession.put_version, hv]
              exact Nat.lt_succ_self _
            · cases h
              exact TableMove.setWriter ..
      · cases h
  | reread w =>
      simp only [step] at h
      split at h
      · cases h
        exact TableMove.setWriter ..
      · cases h
  | select w sid f =>
      simp only [step] at h
      split at h
      · split at h
        · cases h
          exact TableMove.setWriter ..
        · split at h <;> cases h <;> exact TableMove.setWriter ..
      · cases h
  | bump w =>
      simp only [step] at h
      split at h
      · rename_i sid f version hw
        split at h
        · cases h
          exact TableMove.setWriter ..
        · rename_i r hr
          simp only [LockGuard, hw] at hg
          cases h
          exact .wrote sid r _ hr (hg r hr) rfl rfl rfl
      · cases h
  | find w q =>
      simp only [step] at h
      split at h
      · cases h
        exact TableMove.setWriter ..
      · cases h
  | sweep w now =>
      simp only [step] at h
      split at h
      · rename_i q ids hw
        simp only [LockGuard, hw] at hg
        split at h
        · cases h
          exact TableMove.setWriter ..
        · rename_i hids
          have hq := hg.resolve_left hids
          cases h
          exact .still (lookup_sweepRows hq now) (changes_sweepRows hq now) rfl
      · cases h

end SessionStore

/-! ### The invariant -/

/-- The versions certify to the readers that nothing has changed. -/
def VersionInv (s : SessionStore) : Prop :=
  ∀ sid r, s.table.lookup sid = some r → Certifies r.version (s.changes sid) (s.reads sid)

namespace TableMove

variable {s t : SessionStore}

/-- Every move keeps the versions certifying: a read takes a note, a rewritten row advances, and a
new row has not been read. -/
lemma versionInv (h : TableMove s t) (hi : VersionInv s) : VersionInv t := by
  intro i x hx
  cases h with
  | still htable hchanges hreads =>
      rw [htable] at hx
      rw [hchanges, hreads]
      exact hi i x hx
  | noted sid r hr htable hchanges hreads =>
      rw [htable] at hx
      rw [hchanges, hreads]
      by_cases hs : i = sid
      · subst hs
        cases hr.symm.trans hx
        rw [Function.update_self]
        exact (hi i _ hr).note
      · rw [Function.update_of_ne hs]
        exact hi i x hx
  | wrote sid r r' hr hv htable hchanges hreads =>
      rw [htable, SessionStore.lookup_write] at hx
      rw [hchanges, hreads]
      by_cases hs : i = sid
      · subst hs
        rw [if_pos rfl] at hx
        cases hx
        exact (hi i r hr).advance hv (SessionStore.le_changes_write i)
      · rw [if_neg hs] at hx
        rw [SessionStore.changes_write_of_ne hs]
        exact hi i x hx
  | created sid now hsid htable hchanges hreads =>
      rw [hchanges, hreads]
      by_cases hs : i = sid
      · subst hs
        rw [Function.update_self, Function.update_self]
        exact Certifies.nil
      · rw [htable, AList.lookup_insert_ne hs] at hx
        rw [Function.update_of_ne hs, Function.update_of_ne hs]
        exact hi i x hx
  | deleted sid htable hchanges hreads =>
      rw [htable] at hx
      rw [hchanges, hreads]
      by_cases hs : i = sid
      · subst hs
        rw [AList.lookup_erase] at hx
        cases hx
      · rw [AList.lookup_erase_ne hs] at hx
        exact hi i x hx

/-- No move changes the status of a row and leaves its version. -/
lemma bumps (h : TableMove s t) {i : String} {x x' : StoredSession}
    (hx : s.table.lookup i = some x) (hx' : t.table.lookup i = some x')
    (hst : x'.status ≠ x.status) : x.version < x'.version := by
  have hsame : t.table.lookup i ≠ s.table.lookup i := by
    intro heq
    rw [hx, hx'] at heq
    cases heq
    exact hst rfl
  cases h with
  | still htable _ _ => exact absurd (htable i) hsame
  | noted sid r _ htable _ _ => exact absurd (by rw [htable]) hsame
  | wrote sid r r' hr hv htable _ _ =>
      rw [htable, SessionStore.lookup_write] at hx' hsame
      by_cases hs : i = sid
      · subst hs
        cases hr.symm.trans hx
        rw [if_pos rfl] at hx'
        cases hx'
        exact hv
      · rw [if_neg hs] at hsame
        exact absurd rfl hsame
  | created sid now hsid htable _ _ =>
      by_cases hs : i = sid
      · subst hs
        cases hsid.symm.trans hx
      · rw [htable, AList.lookup_insert_ne hs] at hsame
        exact absurd rfl hsame
  | deleted sid htable _ _ =>
      by_cases hs : i = sid
      · subst hs
        rw [htable, AList.lookup_erase] at hx'
        cases hx'
      · rw [htable, AList.lookup_erase_ne hs] at hsame
        exact absurd rfl hsame

end TableMove

/-- The versions certify along every admitted run. -/
lemma storeSystem_versionInv {s : SessionStore} (h : storeSystem.ReachableVia LockGuard s) :
    VersionInv s := by
  refine h.invariant ?_ ?_
  · intro s h0 i x _
    rw [h0.2 i]
    exact Certifies.nil
  · intro s l t hi hg hs
    exact (SessionStore.step_move hg hs).versionInv hi

/-! ### The versioned update -/

namespace SessionStore

variable {s t : SessionStore} {w v : ℕ} {sid : String} {f : StatusFields}

/-- A versioned update on the row it addresses: it goes through, or it is refused and writes
nothing. -/
lemma step_update (hf : f.isEmpty = false) (h : s.step (.update w sid f v) = some t) :
    (∃ r, s.table.lookup sid = some r ∧ r.version = v ∧ t.writers w = .returned (v + 1) ∧
        t.table.lookup sid = some (r.put f (v + 1))) ∨
      ((∀ r ∈ s.table.lookup sid, r.version ≠ v) ∧ t.writers w = .refused sid ∧
        t.table = s.table) := by
  simp only [step, hf, Bool.false_eq_true, if_false] at h
  split at h
  · split at h
    · rename_i hr
      cases h
      refine .inr ⟨?_, setWriter_writers .., rfl⟩
      intro r hm
      rw [hr] at hm
      cases hm
    · rename_i r hr
      split at h
      · rename_i hv
        cases h
        refine .inl ⟨r, hr, hv, setWriter_writers .., ?_⟩
        rw [setWriter_table, lookup_write, if_pos rfl]
      · rename_i hv
        cases h
        refine .inr ⟨?_, setWriter_writers .., rfl⟩
        intro r' hm
        rw [hr] at hm
        cases hm
        exact hv
  · cases h

/-- The rest of a refused one. -/
lemma step_reread (hw : s.writers w = .refused sid) (h : s.step (.reread w) = some t) :
    t.writers w = .raised ⟨(s.table.lookup sid).map (·.version)⟩ ∧ t.table = s.table := by
  simp only [step, hw] at h
  cases h
  exact ⟨setWriter_writers .., rfl⟩

end SessionStore

/-- Statement by statement the versioned update is `updateSessionStatus` on the row it finds. -/
theorem updateSessionStatus_of_step {s t : SessionStore} {w v : ℕ} {sid : String}
    {f : StatusFields} (h : s.step (.update w sid f v) = some t) :
    match updateSessionStatus ((s.table.lookup sid).map (·.toSessionRow)) f (some v) with
    | .ok (row, n) =>
        t.writers w = .returned n ∧ (t.table.lookup sid).map (·.toSessionRow) = row
    | .error e => t.writers w = .refused sid ∧
        ∀ u, t.step (.reread w) = some u → u.writers w = .raised e := by
  by_cases hf : f.isEmpty
  · simp only [SessionStore.step, hf, if_true] at h
    split at h
    · cases h
      simp [updateSessionStatus, hf]
    · cases h
  · have hf' : f.isEmpty = false := by simpa using hf
    rcases SessionStore.step_update hf' h with ⟨r, hr, hv, hw, ht⟩ | ⟨hv, hw, ht⟩
    · simp [updateSessionStatus, hf, hr, hv, hw, ht, StoredSession.put]
    · have hread : ∀ u, t.step (.reread w) = some u →
          u.writers w = .raised ⟨(s.table.lookup sid).map (·.version)⟩ := by
        intro u hu
        rw [← ht]
        exact (SessionStore.step_reread hw hu).1
      cases hr : s.table.lookup sid with
      | none =>
          rw [hr] at hread
          simpa [updateSessionStatus, hf, hw] using hread
      | some r =>
          rw [hr] at hread
          have hne : r.version ≠ v := hv r hr
          simpa [updateSessionStatus, hf, hne, hw] using hread

/-- Soundness of the optimistic lock: along every run in which no bulk update finds a row and no
unversioned update is overtaken, every statement is sound. -/
theorem optimistic_lock_sound {s t : SessionStore} {l : StoreLabel}
    (h : storeSystem.ReachableVia LockGuard s) (hg : LockGuard s l)
    (hs : storeSystem.step s l = some t) : StepSound s t l where
  bumps := by
    intro sid r r' hr hr' hst
    exact (SessionStore.step_move hg hs).bumps hr hr' hst
  succeeds := by
    rintro w sid f v n rfl hf hn
    rcases SessionStore.step_update hf hs with ⟨r, hr, hv, hw, ht⟩ | ⟨-, hw, -⟩
    · cases hn.symm.trans hw
      refine ⟨rfl, ⟨r, hr, hv, ht⟩, ?_⟩
      intro c hc
      subst hv
      exact (storeSystem_versionInv h sid r hr).unchanged hc
    · cases hn.symm.trans hw
  refuses := by
    rintro w sid f v rfl hf hn
    rcases SessionStore.step_update hf hs with ⟨r, -, -, hw, -⟩ | ⟨-, hw, ht⟩
    · exact absurd hw (hn _)
    · exact ⟨hw, ht⟩
  raises := by
    rintro w sid rfl hw
    exact SessionStore.step_reread hw hs

/-- An empty store. -/
def SessionStore.empty : SessionStore where
  table := ∅

lemma storeSystem_empty {ok : SessionStore → StoreLabel → Prop} :
    storeSystem.ReachableVia ok .empty :=
  .init ⟨fun _ => rfl, fun _ => rfl⟩

/-- A session starts to run, a writer reads its row, and a pause is written under the version read. -/
def pausedAfterRead : List StoreLabel :=
  [.create "s" 0, .update 0 "s" { status := some .running } 0, .read "s"]

theorem optimistic_lock_sound_of_pause : ∃ s t,
    storeSystem.ReachableVia LockGuard s ∧ LockGuard s (.update 1 "s" { status := some .paused } 1) ∧
      storeSystem.step s (.update 1 "s" { status := some .paused } 1) = some t ∧
      t.writers 1 = .returned 2 ∧
      StepSound s t (.update 1 "s" { status := some .paused } 1) := by
  have hrun : ((storeSystem.checkedRun LockGuard .empty pausedAfterRead).bind fun s =>
      storeSystem.step s (.update 1 "s" { status := some .paused } 1)).map (·.writers 1)
        = some (.returned 2) := by decide
  obtain ⟨t, ht, hw⟩ := Option.map_eq_some_iff.mp hrun
  obtain ⟨s, hs, hst⟩ := Option.bind_eq_some_iff.mp ht
  have hreach := System.ReachableVia.of_checkedRun storeSystem_empty hs
  exact ⟨s, t, hreach, trivial, hst, hw, optimistic_lock_sound hreach trivial hst⟩

/-- A session runs and a writer reads its row at version 1; another worker starts and interrupts
what runs. -/
def interruptedAfterRead : List StoreLabel :=
  pausedAfterRead ++ [.find 2 .inFlight, .sweep 2 1]

/-- The row is still at version 1, so the pause goes through and the interrupted session is paused. -/
theorem interrupted_row_is_paused : ∃ s t,
    storeSystem.Reachable s ∧
      storeSystem.step s (.update 1 "s" { status := some .paused } 1) = some t ∧
      (s.table.lookup "s").map (·.status) = some .interrupted ∧
      (t.table.lookup "s").map (·.status) = some .paused ∧
      ¬ StepSound s t (.update 1 "s" { status := some .paused } 1) := by
  have hrun : ((storeSystem.run .empty interruptedAfterRead).bind fun s =>
      (storeSystem.step s (.update 1 "s" { status := some .paused } 1)).map fun t =>
        ((s.table.lookup "s").map (·.status), (t.table.lookup "s").map (·.status),
          t.writers 1, decide ((1, 1) ∈ s.reads "s"), s.changes "s"))
        = some (some .interrupted, some .paused, .returned 2, true, 2) := by decide
  obtain ⟨s, hs, ht⟩ := Option.bind_eq_some_iff.mp hrun
  obtain ⟨t, hst, heq⟩ := Option.map_eq_some_iff.mp ht
  simp only [Prod.mk.injEq, decide_eq_true_eq] at heq
  obtain ⟨hs1, ht1, hw, hread, hch⟩ := heq
  refine ⟨s, t, .of_run storeSystem_empty hs, hst, hs1, ht1, ?_⟩
  intro hsound
  have h12 : 1 = s.changes "s" := (hsound.succeeds 1 "s" _ 1 2 rfl rfl hw).2.2 1 hread
  rw [hch] at h12
  exact absurd h12 (by decide)

end GgRelay
