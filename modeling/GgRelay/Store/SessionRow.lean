import Mathlib.Tactic

/-!
The `sessions` row and its optimistic lock: `core/domain.py` (`SessionState`, the terminal
states) and `SqlAlchemyStore.update_session_status` of `store/repository.py`.

`updateSessionStatus` is the whole transaction as a function of the row it finds.  Its
behaviour under an expected version is summed up by `updateSessionStatus_ok` (it succeeds on
that version only, bumps it, and writes the status it was asked to write) and
`updateSessionStatus_error` (it fails on any other version and reports the current one).
-/

namespace GgRelay

/-- Lifecycle of a session (`core/domain.py`). -/
inductive SessionState where
  | queued | running | paused | completed | failed | cancelled | interrupted
  deriving DecidableEq, Repr

namespace SessionState

/-- `TERMINAL_STATES`: completed, failed, cancelled, interrupted. -/
@[grind =]
def Terminal : SessionState → Prop
  | .completed | .failed | .cancelled | .interrupted => True
  | .queued | .running | .paused => False

instance : DecidablePred Terminal := fun s => by
  cases s <;> first | exact isTrue trivial | exact isFalse id

end SessionState

/-- Wall-clock time, in seconds. -/
abbrev Time := ℕ

/-- The columns of a `sessions` row that the manager reads and writes. -/
structure SessionRow where
  status : SessionState
  version : ℕ
  startedAt : Option Time
  endedAt : Option Time
  endReason : Option String
  runtimeId : Option String
  pausedAt : Option Time
  deriving DecidableEq, Repr

/-- The row `create_session` inserts: `queued`, at the schema's default version `0`. -/
def SessionRow.created : SessionRow where
  status := .queued
  version := 0
  startedAt := none
  endedAt := none
  endReason := none
  runtimeId := none
  pausedAt := none

@[simp, grind =] lemma SessionRow.created_status : SessionRow.created.status = .queued := rfl

/-- The column arguments of `update_session_status`; `none` leaves a column alone. -/
structure StatusFields where
  status : Option SessionState := none
  startedAt : Option Time := none
  endedAt : Option Time := none
  endReason : Option String := none
  runtimeId : Option String := none
  pausedAt : Option Time := none
  deriving DecidableEq, Repr

namespace StatusFields

/-- `not values`: there is nothing to write. -/
def isEmpty (f : StatusFields) : Bool :=
  f.status.isNone && f.startedAt.isNone && f.endedAt.isNone && f.endReason.isNone
    && f.runtimeId.isNone && f.pausedAt.isNone

/-- `update(sessions).values(**values)` with the new version. -/
def write (f : StatusFields) (r : SessionRow) (version : ℕ) : SessionRow where
  status := f.status.getD r.status
  version := version
  startedAt := f.startedAt <|> r.startedAt
  endedAt := f.endedAt <|> r.endedAt
  endReason := f.endReason <|> r.endReason
  runtimeId := f.runtimeId <|> r.runtimeId
  pausedAt := f.pausedAt <|> r.pausedAt

@[simp, grind =] lemma write_status (f : StatusFields) (r : SessionRow) (v : ℕ) :
    (f.write r v).status = f.status.getD r.status := rfl

end StatusFields

/-- `ConcurrencyError`, carrying the version the row has now (`none`: there is no row). -/
structure ConcurrencyError where
  actualVersion : Option ℕ
  deriving DecidableEq, Repr

/-- `SqlAlchemyStore.update_session_status`, one transaction on the row it addresses: the row
it leaves behind and the version it returns. -/
def updateSessionStatus (row : Option SessionRow) (f : StatusFields)
    (expectedVersion : Option ℕ) : Except ConcurrencyError (Option SessionRow × ℕ) :=
  match expectedVersion with
  | none =>
      if f.isEmpty then .ok (row, 0)
      else
        match row with
        | none => .ok (none, 0)
        | some r => .ok (some (f.write r (r.version + 1)), r.version + 1)
  | some v =>
      if f.isEmpty then .ok (row, v)
      else
        match row with
        | none => .error ⟨none⟩
        | some r =>
            if r.version = v then .ok (some (f.write r (v + 1)), v + 1)
            else .error ⟨some r.version⟩

/-- A version-checked write that succeeds found the expected version and bumped it. -/
lemma updateSessionStatus_ok {row row' : Option SessionRow} {f : StatusFields} {v n : ℕ}
    (hf : f.isEmpty = false) (h : updateSessionStatus row f (some v) = .ok (row', n)) :
    ∃ r, row = some r ∧ r.version = v ∧ row' = some (f.write r (v + 1)) ∧ n = v + 1 := by
  simp only [updateSessionStatus, hf, Bool.false_eq_true, if_false] at h
  cases row with
  | none => simp at h
  | some r =>
      by_cases hv : r.version = v
      · simp only [hv, if_true, Except.ok.injEq, Prod.mk.injEq] at h
        exact ⟨r, rfl, hv, h.1.symm, h.2.symm⟩
      · simp [hv] at h

/-- A version-checked write that fails did not find the expected version; it reports the one
it found. -/
lemma updateSessionStatus_error {row : Option SessionRow} {f : StatusFields} {v : ℕ}
    {e : ConcurrencyError} (h : updateSessionStatus row f (some v) = .error e) :
    e.actualVersion = row.map (·.version) ∧ ∀ r, row = some r → r.version ≠ v := by
  by_cases hf : f.isEmpty
  · simp [updateSessionStatus, hf] at h
  · simp only [updateSessionStatus, hf, Bool.false_eq_true, if_false] at h
    cases row with
    | none =>
        cases h
        exact ⟨rfl, fun r hr => by simp at hr⟩
    | some r =>
        by_cases hv : r.version = v
        · simp [hv] at h
        · simp only [hv, if_false, Except.error.injEq] at h
          subst h
          exact ⟨rfl, fun r' hr => by cases hr; exact hv⟩

end GgRelay
