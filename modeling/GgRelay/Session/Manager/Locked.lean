import GgRelay.Session.Manager.State

/-!
`SessionManager._update_status_locked`: one version-checked write of the `sessions` row with
one re-anchored retry, as a coroutine inside the coroutines that call it.

* `Locked.commit` is the database's part, the transaction of `update_session_status`;
* `Locked.resume` is the coroutine's part, from one `await` to the next;
* `pauseFields`, `resumeFields`, `beginFields`, `runtimeFields`, `endFields` are the columns its
  five callers write.
-/

namespace GgRelay

/-- What a step of `_update_status_locked` comes to. -/
inductive LockedStep where
  | more (l : Locked)
  | returned (version : ℕ)
  | raised (e : Exn)

namespace Locked

/-- `_update_status_locked` runs on from its `await`; `row` is the row a read would find. -/
def resume (row : Option SessionRow) : Locked → Reply → Option LockedStep
  | .read, .ok =>
      match row with
      | none => some (.raised .sessionNotFound)
      | some r => some (.more (.write false r.version))
  | .reread, .ok =>
      match row with
      | none => some (.raised .sessionNotFound)
      | some r => some (.more (.write true r.version))
  | .landed _ (.ok v), .ok => some (.returned v)
  | .landed false (.error e), .ok => some (.more (.jitter e.actualVersion))
  | .landed true (.error _), .ok => some (.raised .concurrency)
  | .jitter (some v), .ok => some (.more (.write true v))
  | .jitter none, .ok => some (.more .reread)
  | _, .raise e => some (.raised e)
  | _, _ => none

/-- The transaction of a pending `update_session_status` on the row: what it leaves, and where
the coroutine is then. -/
def commit (f : StatusFields) (row : Option SessionRow) : Locked → Option (Option SessionRow × Locked)
  | .write second expected =>
      match updateSessionStatus row f (some expected) with
      | .ok (row', v) => some (row', .landed second (.ok v))
      | .error e => some (row, .landed second (.error e))
  | _ => none

end Locked

/-- The columns `pause` writes. -/
def pauseFields (pausedAt : Time) : StatusFields :=
  { status := some .paused, pausedAt := some pausedAt }

/-- The columns `resume` writes. -/
def resumeFields : StatusFields := { status := some .running }

/-- The columns `_run` writes when it has its slot. -/
def beginFields (startedAt : Time) : StatusFields :=
  { status := some .running, startedAt := some startedAt }

/-- The column `_run` writes when the executor has started. -/
def runtimeFields (runtimeId : String) : StatusFields := { runtimeId := some runtimeId }

/-- The columns of the terminal write. -/
def endFields (e : EndState) (endedAt : Time) : StatusFields :=
  { status := some e.status, endedAt := some endedAt, endReason := e.reason }

@[simp, grind =] lemma endFields_status (e : EndState) (t : Time) :
    (endFields e t).status = some e.status := rfl

@[simp] lemma pauseFields_isEmpty (t : Time) : (pauseFields t).isEmpty = false := rfl

@[simp] lemma resumeFields_isEmpty : resumeFields.isEmpty = false := rfl

@[simp] lemma beginFields_isEmpty (t : Time) : (beginFields t).isEmpty = false := rfl

@[simp] lemma runtimeFields_isEmpty (i : String) : (runtimeFields i).isEmpty = false := rfl

@[simp] lemma endFields_isEmpty (e : EndState) (t : Time) : (endFields e t).isEmpty = false := rfl

namespace Locked

/-- `_update_status_locked` returns only after a write that succeeded. -/
lemma resume_returned {row : Option SessionRow} {l : Locked} {r : Reply} {v : ℕ}
    (h : resume row l r = some (.returned v)) : ∃ second, l = .landed second (.ok v) := by
  cases l with
  | landed second result =>
      cases result with
      | ok w =>
          cases r <;> simp [resume] at h
          exact ⟨second, by rw [h]⟩
      | error e => cases second <;> cases r <;> simp [resume] at h
  | read | reread =>
      cases r with
      | ok => cases row <;> simp [resume] at h
      | raise | ack | credentials | started | swallowed => simp [resume] at h
  | write second expected => cases r <;> simp [resume] at h
  | jitter actual => cases actual <;> cases r <;> simp [resume] at h

/-- `_update_status_locked` goes on only as long as no write has succeeded. -/
lemma resume_more {row : Option SessionRow} {l l' : Locked} {r : Reply}
    (h : resume row l r = some (.more l')) :
    (∀ second v, l ≠ .landed second (.ok v)) ∧ ∀ second result, l' ≠ .landed second result := by
  cases l with
  | landed second result =>
      cases result with
      | ok w => cases r <;> simp [resume] at h
      | error e =>
          cases second <;> cases r <;> simp [resume] at h
          subst h
          exact ⟨by simp, by simp⟩
  | read | reread =>
      cases r with
      | ok =>
          cases row <;> simp [resume] at h
          subst h
          exact ⟨by simp, by simp⟩
      | raise | ack | credentials | started | swallowed => simp [resume] at h
  | write second expected => cases r <;> simp [resume] at h
  | jitter actual =>
      cases actual <;> cases r <;> simp [resume] at h <;> subst h <;> exact ⟨by simp, by simp⟩

/-- What a commit does to the row: nothing, or the write of its columns on top of the version
it was anchored to. -/
lemma commit_row {f : StatusFields} (hf : f.isEmpty = false) {row row' : Option SessionRow}
    {l l' : Locked} (h : commit f row l = some (row', l')) :
    (row' = row ∧ ∃ second v e, l = .write second v ∧ l' = .landed second (.error e) ∧
        ∀ r, row = some r → r.version ≠ v) ∨
      ∃ r second v, row = some r ∧ row' = some (f.write r (v + 1)) ∧ r.version = v ∧
        l = .write second v ∧ l' = .landed second (.ok (v + 1)) := by
  cases l with
  | write second v =>
      rw [commit] at h
      cases hu : updateSessionStatus row f (some v) with
      | error e =>
          rw [hu] at h
          cases h
          exact Or.inl ⟨rfl, second, v, e, rfl, rfl, (updateSessionStatus_error hu).2⟩
      | ok p =>
          obtain ⟨row₁, n⟩ := p
          rw [hu] at h
          cases h
          obtain ⟨r, hr, hv, hw, hn⟩ := updateSessionStatus_ok hf hu
          exact Or.inr ⟨r, second, v, hr, hw, hv, rfl, by rw [hn]⟩
  | read | landed | jitter | reread => simp [commit] at h

end Locked

end GgRelay
