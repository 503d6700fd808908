import GgRelay.Store.SessionRow

/-!
The `hitl_requests` row: `SqlAlchemyStore.upsert_hitl` of `store/repository.py`.

`upsertHitl` is the whole transaction as a function of the row it finds under the id, on the
SQLite dialect.  The session of an existing row is never overwritten (`upsertHitl_sessionId`), an
expected version admits exactly the row that still carries it (`upsertHitl_of_version`).
-/

namespace GgRelay

/-- A `hitl_requests` row, less its key. -/
structure HitlRow where
  sessionId : String
  tool : String
  argsJson : String
  status : String
  createdAt : Time
  resolvedAt : Option Time := none
  reason : Option String := none
  resolver : Option String := none
  version : ℕ := 0
  deriving DecidableEq, Repr

/-- The column arguments of `upsert_hitl`. -/
structure HitlFields where
  sessionId : String
  tool : String
  argsJson : String
  status : String
  createdAt : Option Time
  resolvedAt : Option Time
  reason : Option String
  resolver : Option String
  deriving DecidableEq, Repr

namespace HitlFields

variable (f : HitlFields)

/-- The row of the `INSERT`, at the schema's default version `0`; `created_at or _utcnow()`. -/
def insert (now : Time) : HitlRow where
  sessionId := f.sessionId
  tool := f.tool
  argsJson := f.argsJson
  status := f.status
  createdAt := f.createdAt.getD now
  resolvedAt := f.resolvedAt
  reason := f.reason
  resolver := f.resolver

/-- The `UPDATE`: every column but `id`, `session_id` and `created_at`. -/
def update (r : HitlRow) (version : ℕ) : HitlRow where
  sessionId := r.sessionId
  tool := f.tool
  argsJson := f.argsJson
  status := f.status
  createdAt := r.createdAt
  resolvedAt := f.resolvedAt
  reason := f.reason
  resolver := f.resolver
  version := version

end HitlFields

/-- `upsert_hitl`: the row it leaves behind, and the version it returns. -/
def upsertHitl (f : HitlFields) (expectedVersion : Option ℕ) (now : Time)
    (row : Option HitlRow) : Except ConcurrencyError (HitlRow × Option ℕ) :=
  match expectedVersion, row with
  | some v, some r =>
      if r.version = v then .ok (f.update r (v + 1), some (v + 1)) else .error ⟨some r.version⟩
  | some _, none => .error ⟨none⟩
  | none, some r => .ok (f.update r (r.version + 1), none)
  | none, none => .ok (f.insert now, none)

variable {f : HitlFields} {now : Time} {row : Option HitlRow}

/-- Nothing was written since the version was read: the write goes through. -/
lemma upsertHitl_of_version (f : HitlFields) (now : Time) (row : Option HitlRow) :
    ∃ res, upsertHitl f (row.map (·.version)) now row = .ok res := by
  cases row with
  | none => exact ⟨_, rfl⟩
  | some r => exact ⟨_, if_pos rfl⟩

/-- A write that goes through leaves its status. -/
lemma upsertHitl_status {v : Option ℕ} {res : HitlRow × Option ℕ}
    (h : upsertHitl f v now row = .ok res) : res.1.status = f.status := by
  cases row <;> cases v <;> simp only [upsertHitl] at h
  case some.some r v =>
    split at h
    · cases h
      rfl
    · cases h
  all_goals cases h <;> rfl

/-- The session of a row is that of its first writer. -/
lemma upsertHitl_sessionId {v : Option ℕ} {res : HitlRow × Option ℕ}
    (h : upsertHitl f v now row = .ok res) :
    res.1.sessionId = (row.map (·.sessionId)).getD f.sessionId := by
  cases row <;> cases v <;> simp only [upsertHitl] at h
  case some.some r v =>
    split at h
    · cases h
      rfl
    · cases h
  all_goals cases h <;> rfl

end GgRelay
