import Mathlib.Tactic

/-!
The rows of a table under a unique index, in the order of their insertion, and the statements that
change them.

* `UniqueRows key` carries the index, so that `get?` finds the one row there is;
* `insert`, `upsert`, `update` and `delete` are the statements, `get?_insert`, `get?_upsert`,
  `get?_update` and `get?_delete` what a key leads to afterwards.
-/

namespace GgRelay

universe u v

/-- Rows no two of which have the same key. -/
structure UniqueRows {ρ : Type u} {κ : Type v} (key : ρ → κ) where
  rows : List ρ
  unique : (rows.map key).Nodup

namespace UniqueRows

variable {ρ : Type u} {κ : Type v} {key : ρ → κ}

/-- The table before its first row. -/
def empty : UniqueRows key := ⟨[], List.nodup_nil⟩

/-- `UPDATE … WHERE p`, of columns that are not in the index. -/
@[simps]
def update (t : UniqueRows key) (p : ρ → Bool) (f : ρ → ρ) (hf : ∀ r, key (f r) = key r) :
    UniqueRows key where
  rows := t.rows.map fun r => if p r then f r else r
  unique := by
    have hkey : key ∘ (fun r => if p r then f r else r) = key := by
      funext r
      rw [Function.comp_apply]
      split_ifs
      · exact hf r
      · rfl
    rw [List.map_map, hkey]
    exact t.unique

/-- `DELETE … WHERE p`. -/
@[simps]
def delete (t : UniqueRows key) (p : ρ → Bool) : UniqueRows key where
  rows := t.rows.filter fun r => !p r
  unique := t.unique.sublist (List.filter_sublist.map key)

variable [DecidableEq κ] (t : UniqueRows key)

/-- The row with a key. -/
def get? (k : κ) : Option ρ := t.rows.find? fun r => key r = k

/-- `INSERT`, where there is no row with the key. -/
@[simps]
def append (r : ρ) (h : key r ∉ t.rows.map key) : UniqueRows key where
  rows := t.rows ++ [r]
  unique := by
    rw [List.map_append, List.nodup_append]
    refine ⟨t.unique, List.nodup_singleton _, ?_⟩
    rintro a ha b hb rfl
    rw [List.map_singleton, List.mem_singleton] at hb
    exact h (hb ▸ ha)

/-- `INSERT`; `none` stands for an `IntegrityError`. -/
def insert (r : ρ) : Option (UniqueRows key) :=
  if h : key r ∈ t.rows.map key then none else some (t.append r h)

/-- `INSERT … ON CONFLICT DO UPDATE`. -/
def upsert (r : ρ) (f : ρ → ρ) (hf : ∀ r, key (f r) = key r) : UniqueRows key :=
  if h : key r ∈ t.rows.map key then t.update (fun r' => key r' = key r) f hf else t.append r h

variable {t}

lemma get?_eq_some {k : κ} {r : ρ} : t.get? k = some r ↔ r ∈ t.rows ∧ key r = k := by
  constructor
  · intro h
    exact ⟨List.mem_of_find?_eq_some h, by simpa using List.find?_some h⟩
  · rintro ⟨hr, rfl⟩
    rw [get?]
    cases hfind : t.rows.find? fun r' => key r' = key r with
    | none => simpa using List.find?_eq_none.mp hfind r hr
    | some r' =>
        have hkey : key r' = key r := by simpa using List.find?_some hfind
        rw [List.inj_on_of_nodup_map t.unique (List.mem_of_find?_eq_some hfind) hr hkey]

lemma get?_eq_none {k : κ} : t.get? k = none ↔ k ∉ t.rows.map key := by
  simp [get?, List.find?_eq_none]

@[simp] lemma get?_empty {k : κ} : (empty : UniqueRows key).get? k = none := rfl

lemma get?_append {r : ρ} (h : key r ∉ t.rows.map key) (k : κ) :
    (t.append r h).get? k = if k = key r then some r else t.get? k := by
  rw [get?, append_rows, List.find?_append]
  split_ifs with hk
  · subst hk
    rw [show t.rows.find? _ = none from get?_eq_none.mpr h]
    simp
  · have hlast : [r].find? (fun r' => key r' = k) = none := by simp [Ne.symm hk]
    rw [hlast, Option.or_none]
    rfl

lemma get?_insert {r : ρ} {t' : UniqueRows key} (h : t.insert r = some t') (k : κ) :
    t'.get? k = if k = key r then some r else t.get? k := by
  rw [insert] at h
  split_ifs at h with hr
  obtain rfl := Option.some.inj h
  exact get?_append hr k

lemma get?_update {p : ρ → Bool} {f : ρ → ρ} (hf : ∀ r, key (f r) = key r) (k : κ) :
    (t.update p f hf).get? k = (t.get? k).map fun r => if p r then f r else r := by
  have hkey : ∀ r, key (if p r then f r else r) = key r := by
    intro r
    split_ifs
    · exact hf r
    · rfl
  rw [get?, update_rows, List.find?_map]
  simp only [Function.comp_def, hkey]
  rfl

lemma get?_delete {p : ρ → Bool} (k : κ) :
    (t.delete p).get? k = (t.get? k).filter fun r => !p r := by
  cases h : t.get? k with
  | none =>
      rw [get?_eq_none] at h
      refine get?_eq_none.mpr fun hmem => h ?_
      exact (List.filter_sublist.map key).subset hmem
  | some r =>
      obtain ⟨hr, rfl⟩ := get?_eq_some.mp h
      by_cases hp : p r
      · have hnone : (t.delete p).get? (key r) = none := by
          rw [get?, List.find?_eq_none]
          intro r' hr' hkey
          obtain ⟨hr', hp'⟩ := List.mem_filter.mp hr'
          rw [List.inj_on_of_nodup_map t.unique hr' hr (by simpa using hkey), hp] at hp'
          exact absurd hp' Bool.false_ne_true
        rw [hnone, Option.filter_some_neg (by simpa using hp)]
      · have hsome : (t.delete p).get? (key r) = some r :=
          get?_eq_some.mpr ⟨List.mem_filter.mpr ⟨hr, by simpa using hp⟩, rfl⟩
        rw [hsome, Option.filter_some_pos (by simpa using hp)]

lemma get?_upsert {r : ρ} {f : ρ → ρ} (hf : ∀ r, key (f r) = key r) (k : κ) :
    (t.upsert r f hf).get? k = if k = key r then some ((t.get? k).elim r f) else t.get? k := by
  rw [upsert]
  split_ifs with hr hk hk
  · subst hk
    obtain ⟨r', hr', hkey⟩ := List.mem_map.mp hr
    rw [get?_update, get?_eq_some.mpr ⟨hr', hkey⟩]
    simp [hkey]
  · rw [get?_update]
    cases h : t.get? k with
    | none => rfl
    | some r' =>
        have hne : key r' ≠ key r := fun heq => hk ((get?_eq_some.mp h).2.symm.trans heq)
        simp [hne]
  · subst hk
    rw [get?_append, if_pos rfl, get?_eq_none.mpr hr]
    rfl
  · rw [get?_append, if_neg hk]

end UniqueRows

end GgRelay
