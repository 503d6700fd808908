import Mathlib.Tactic
import GgRelay.Store.SessionRow

/-!
The `api_keys` table and the statements of `ApiKeyStore` (`auth/store.py`).

`ApiKeyTable` carries the unique index on the labels, so that `getByLabel` finds the one row there is
(`getByLabel_eq_some`).  A revoked row stays in the table and keeps its label; `revoke` changes
nothing else of a row (`mem_revoke`).
-/

namespace GgRelay

/-- A row of the `api_keys` table. -/
structure ApiKeyRow where
  label : String
  keyHash : String
  role : String
  createdByLabel : Option String := none
  expiresAt : Option Time := none
  revokedAt : Option Time := none
  lastUsedAt : Option Time := none
  notes : Option String := none
  deriving DecidableEq, Repr

namespace ApiKeyRow

/-- The resolver refuses the key from then on: `expires_at < now`. -/
def expired (r : ApiKeyRow) (now : Time) : Bool := r.expiresAt.any fun t => decide (t < now)

/-- An admin row that `count_active_admins` counts. -/
def isActiveAdmin (r : ApiKeyRow) : Bool := r.role = "admin" && r.revokedAt.isNone

/-- A row the resolver takes for a valid key. -/
def isValid (r : ApiKeyRow) (now : Time) : Bool := r.revokedAt.isNone && !r.expired now

lemma isValid_of_revoked {r : ApiKeyRow} (h : r.revokedAt ≠ none) (now : Time) :
    r.isValid now = false := by
  cases hr : r.revokedAt with
  | none => exact absurd hr h
  | some t => simp [isValid, hr]

end ApiKeyRow

/-- The `api_keys` table, the oldest row first, under `ux_api_keys_label`. -/
structure ApiKeyTable where
  rows : List ApiKeyRow
  labels : (rows.map (·.label)).Nodup

namespace ApiKeyTable

/-- The table before its first row. -/
def empty : ApiKeyTable where
  rows := []
  labels := List.nodup_nil

variable (t : ApiKeyTable)

/-- `get_by_hash`. -/
def getByHash (keyHash : String) : Option ApiKeyRow := t.rows.find? fun r => r.keyHash = keyHash

/-- `get_by_label`. -/
def getByLabel (label : String) : Option ApiKeyRow := t.rows.find? fun r => r.label = label

/-- Rewrite the rows and leave their labels. -/
def mapRows (f : ApiKeyRow → ApiKeyRow) (hf : ∀ r, (f r).label = r.label) : ApiKeyTable where
  rows := t.rows.map f
  labels := by
    rw [List.map_map, show (fun r : ApiKeyRow => r.label) ∘ f = fun r => r.label from funext hf]
    exact t.labels

/-- `create`: `none` stands for `ApiKeyConflictError`. -/
def create (r : ApiKeyRow) : Option ApiKeyTable :=
  if h : r.label ∈ t.rows.map (·.label) then none
  else
    some {
      rows := t.rows ++ [r]
      labels := by
        rw [List.map_append, List.nodup_append]
        refine ⟨t.labels, List.nodup_singleton _, ?_⟩
        rintro a ha b hb rfl
        rw [List.map_singleton, List.mem_singleton] at hb
        exact h (hb ▸ ha) }

/-- `revoke` on one row. -/
def revokeRow (label : String) (now : Time) (r : ApiKeyRow) : ApiKeyRow :=
  if r.label = label ∧ r.revokedAt = none then { r with revokedAt := some now } else r

lemma revokeRow_label (label : String) (now : Time) (r : ApiKeyRow) :
    (revokeRow label now r).label = r.label := by
  simp only [revokeRow]
  split <;> rfl

lemma revokeRow_of_ne {label : String} {now : Time} {r : ApiKeyRow} (h : r.label ≠ label) :
    revokeRow label now r = r := if_neg fun hr => h hr.1

/-- The row with the label is revoked, now or from before. -/
lemma revokedAt_revokeRow {label : String} {r : ApiKeyRow} (h : r.label = label) (now : Time) :
    (revokeRow label now r).revokedAt ≠ none := by
  simp only [revokeRow]
  split
  · simp
  · rename_i hne
    exact fun hr => hne ⟨h, hr⟩

/-- `revoke`, without its result. -/
def revoke (label : String) (now : Time) : ApiKeyTable :=
  t.mapRows (revokeRow label now) (revokeRow_label label now)

/-- `count_active_admins`. -/
def countActiveAdmins : ℕ := t.rows.countP (·.isActiveAdmin)

variable {t}

lemma getByLabel_eq_some {label : String} {r : ApiKeyRow} :
    t.getByLabel label = some r ↔ r ∈ t.rows ∧ r.label = label := by
  constructor
  · intro h
    exact ⟨List.mem_of_find?_eq_some h, by simpa using List.find?_some h⟩
  · rintro ⟨hr, hl⟩
    obtain ⟨r', hr'⟩ : ∃ r', t.getByLabel label = some r' := by
      rw [← Option.isSome_iff_exists, getByLabel, List.find?_isSome]
      exact ⟨r, hr, by simpa using hl⟩
    have hmem := List.mem_of_find?_eq_some hr'
    have hlabel : r'.label = label := by simpa using List.find?_some hr'
    have heq : r' = r := List.inj_on_of_nodup_map t.labels hmem hr (hlabel.trans hl.symm)
    rw [hr', heq]

lemma getByLabel_eq_none {label : String} :
    t.getByLabel label = none ↔ ∀ r ∈ t.rows, r.label ≠ label := by
  rw [getByLabel, List.find?_eq_none]
  simp

/-- A row after `revoke` is a row from before, revoked if it is the one. -/
lemma mem_revoke {label : String} {now : Time} {r : ApiKeyRow} :
    r ∈ (t.revoke label now).rows ↔ ∃ r₀ ∈ t.rows, revokeRow label now r₀ = r :=
  List.mem_map

@[simp] lemma revokeRow_role (label : String) (now : Time) (r : ApiKeyRow) :
    (revokeRow label now r).role = r.role := by
  simp only [revokeRow]
  split <;> rfl

lemma getByHash_mapRows {f : ApiKeyRow → ApiKeyRow} {hf : ∀ r, (f r).label = r.label}
    (hk : ∀ r, (f r).keyHash = r.keyHash) (key : String) :
    (t.mapRows f hf).getByHash key = (t.getByHash key).map f := by
  show (t.rows.map f).find? _ = _
  rw [List.find?_map]
  congr 2
  funext r
  simp [hk]

lemma getByHash_revoke (label : String) (now : Time) (key : String) :
    (t.revoke label now).getByHash key = (t.getByHash key).map (revokeRow label now) := by
  refine getByHash_mapRows ?_ key
  intro r
  simp only [revokeRow]
  split <;> rfl

lemma getByHash_create {r x : ApiKeyRow} {t' : ApiKeyTable} {key : String}
    (h : t.create r = some t') (hx : t.getByHash key = some x) : t'.getByHash key = some x := by
  simp only [create] at h
  split at h
  · cases h
  · cases h
    rw [getByHash] at hx
    rw [getByHash, List.find?_append, hx]
    rfl

lemma getByLabel_revoke (label : String) (now : Time) (x : String) :
    (t.revoke label now).getByLabel x = (t.getByLabel x).map (revokeRow label now) := by
  show (t.rows.map _).find? _ = _
  rw [List.find?_map]
  congr 2
  funext r
  simp [revokeRow_label]

variable (t) in
/-- The role of the row with this label. -/
def roleOf (label : String) : Option String := (t.getByLabel label).map (·.role)

@[simp] lemma roleOf_revoke (label : String) (now : Time) (x : String) :
    (t.revoke label now).roleOf x = t.roleOf x := by
  rw [roleOf, getByLabel_revoke, Option.map_map]
  congr 1
  funext r
  exact revokeRow_role ..

lemma roleOf_of_mem {r : ApiKeyRow} (hr : r ∈ t.rows) : t.roleOf r.label = some r.role := by
  rw [roleOf, getByLabel_eq_some.mpr ⟨hr, rfl⟩]
  rfl

/-- Where no row has the label, the new row goes to the end of the table. -/
lemma rows_create {r : ApiKeyRow} (h : t.getByLabel r.label = none) :
    ∃ t', t.create r = some t' ∧ t'.rows = t.rows ++ [r] := by
  have hfree : r.label ∉ t.rows.map (·.label) := by
    intro hmem
    obtain ⟨x, hx, hl⟩ := List.mem_map.mp hmem
    exact getByLabel_eq_none.mp h x hx hl
  exact ⟨_, by rw [create, dif_neg hfree], rfl⟩

lemma create_eq_none {r : ApiKeyRow} :
    t.create r = none ↔ ∃ x ∈ t.rows, x.label = r.label := by
  simp only [create]
  split
  · rename_i h
    simpa using h
  · rename_i h
    simpa using h

end ApiKeyTable

end GgRelay
