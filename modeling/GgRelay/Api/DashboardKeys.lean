import GgRelay.Auth.ApiKeys
import GgRelay.Lib.Dict

/-!
The dashboard keys of the lifespan (`api/main.py`, `store/dashboard_keys.py`): for each configured
user a key in `dashboard_internal_keys`, and a row in `api_keys` that accepts it.

A row that is revoked keeps its label, so the lifespan cannot create another one under it, and the
conflict is logged and forgotten.

* `usersToMint` are the configured users with their roles, `syncUser` is the body of the loop over
  them and `sync` the loop;
* `Provided` says that the key of a user resolves to what it should, `Vacant` that nothing is in the
  way of a new row;
* `provided_syncUser` and `provided_syncUser_of_ne` say what one turn of the loop comes to, for its
  own user and for the others; `sync_sync` says that a second run changes nothing;
* `provisioning_converges_iff` says when every user is provided for, and
  `revoked_dashboard_key_stays_out` is a history after which one is not.
-/

namespace GgRelay

/-- What the lifespan reads of the configuration. -/
structure DashboardConfig where
  /-- the keys of `dashboard_users`, in their order -/
  users : List String
  /-- `dashboard_admin_password` is set -/
  adminPassword : Bool := false
  roleMapping : List (String × String) := []
  /-- it is a dictionary -/
  nodup : users.Nodup

/-- `f"dashboard-{username}"`. -/
def dashboardLabel (username : String) : String := "dashboard-" ++ username

lemma dashboardLabel_injective : Function.Injective dashboardLabel := by
  intro a b h
  have hl : ("dashboard-" ++ a).toList = ("dashboard-" ++ b).toList := congrArg String.toList h
  rw [String.toList_append, String.toList_append] at hl
  exact String.toList_injective (List.append_cancel_left hl)

/-- `users_to_mint`. -/
def usersToMint (cfg : DashboardConfig) : List (String × String) :=
  (cfg.users.map fun u => (u, (cfg.roleMapping.lookup (dashboardLabel u)).getD "submitter"))
    ++ if cfg.adminPassword ∧ "admin" ∉ cfg.users then [("admin", "admin")] else []

lemma usersToMint_nodup (cfg : DashboardConfig) : ((usersToMint cfg).map Prod.fst).Nodup := by
  have hmap : cfg.users.map (Prod.fst ∘ fun u =>
      (u, (cfg.roleMapping.lookup (dashboardLabel u)).getD "submitter")) = cfg.users := by
    simp [Function.comp_def]
  rw [usersToMint, List.map_append, List.map_map, hmap]
  split
  · rename_i h
    rw [List.nodup_append]
    refine ⟨cfg.nodup, List.nodup_singleton _, ?_⟩
    rintro a ha b hb rfl
    simp only [List.map_cons, List.map_nil, List.mem_singleton] at hb
    exact h.2 (hb ▸ ha)
  · simpa using cfg.nodup

/-- The two tables and the dictionary that goes to `app.state`. -/
structure DashboardKeys where
  apiKeys : ApiKeyTable
  /-- `dashboard_internal_keys`, each username with its `raw_key` -/
  internal : Dict String String := ∅
  /-- `app.state.dashboard_internal_keys` -/
  state : Dict String String := ∅

/-- `DashboardKeyStore.get_or_create`: the table and the key; `newKey` is the key it has drawn. -/
def getOrCreate (internal : Dict String String) (username newKey : String) :
    Dict String String × String :=
  match internal.lookup username with
  | some raw => (internal, raw)
  | none => (internal.insert username newKey, newKey)

section Sync

-- `hash_key` is a digest of the standard library
variable (hashKey : String → String)

/-- The row the lifespan creates. -/
def dashboardRow (username role rawKey : String) : ApiKeyRow where
  label := dashboardLabel username
  keyHash := hashKey rawKey
  role := role
  createdByLabel := some "lifespan_bootstrap"
  notes := some "DB-stored internal key for dashboard cookie auth (Plan 9 D9.10)"

/-- `create`, and the handler of its conflict. -/
def createOrLog (t : ApiKeyTable) (r : ApiKeyRow) : ApiKeyTable := (t.create r).getD t

/-- The `api_keys` table after the row of a user has been brought up to its key. -/
def upsert (now : Time) (t : ApiKeyTable) (username role rawKey : String) : ApiKeyTable :=
  let row := dashboardRow hashKey username role rawKey
  match t.getByLabel (dashboardLabel username) with
  | none => createOrLog t row
  | some existing =>
      if existing.revokedAt ≠ none then createOrLog t row
      else if existing.keyHash ≠ hashKey rawKey then
        createOrLog (t.revoke (dashboardLabel username) now) row
      else t

/-- One turn of the loop; `draw` is what `_generate_raw_key` returns in it. -/
def syncUser (now : Time) (draw : String → String) (s : DashboardKeys) (user : String × String) :
    DashboardKeys :=
  let (internal, raw) := getOrCreate s.internal user.1 (draw user.1)
  { apiKeys := upsert hashKey now s.apiKeys user.1 user.2 raw
    internal := internal
    state := s.state.insert user.1 raw }

/-- The loop. -/
def sync (now : Time) (draw : String → String) (users : List (String × String))
    (s : DashboardKeys) : DashboardKeys :=
  users.foldl (syncUser hashKey now draw) { s with state := ∅ }

/-- The key a user has, or is given. -/
def keyOf (draw : String → String) (internal : Dict String String) (username : String) : String :=
  (internal.lookup username).getD (draw username)

/-! ### What is asked -/

/-- The key resolves to an active row with the label of the user and the role. -/
def Provided (now : Time) (t : ApiKeyTable) (user : String × String) (rawKey : String) : Prop :=
  ∃ r, t.getByHash (hashKey rawKey) = some r ∧ r.label = dashboardLabel user.1 ∧
    r.role = user.2 ∧ r.isValid now = true

/-- No row has the label of the user, or accepts the key. -/
def Vacant (t : ApiKeyTable) (user : String × String) (rawKey : String) : Prop :=
  t.getByLabel (dashboardLabel user.1) = none ∧ t.getByHash (hashKey rawKey) = none

/-- Every user has a key in `app.state` that is provided for, and a second run changes nothing. -/
def Converges (now : Time) (draw : String → String) (users : List (String × String))
    (s : DashboardKeys) : Prop :=
  (∀ user ∈ users, ∃ raw, (sync hashKey now draw users s).state.lookup user.1 = some raw ∧
    Provided hashKey now (sync hashKey now draw users s).apiKeys user raw) ∧
  ∀ now' draw', sync hashKey now' draw' users (sync hashKey now draw users s)
    = sync hashKey now draw users s

end Sync

/-! ### The keys -/

section Keys

variable {hashKey : String → String} {now : Time} {draw : String → String}
  {internal : Dict String String}

lemma getOrCreate_snd (username : String) :
    (getOrCreate internal username (draw username)).2 = keyOf draw internal username := by
  simp only [getOrCreate, keyOf]
  split <;> rename_i h <;> rw [h] <;> rfl

/-- `get_or_create` gives a user the key and leaves the others alone. -/
lemma lookup_getOrCreate (username v : String) :
    (getOrCreate internal username (draw username)).1.lookup v =
      if v = username then some (keyOf draw internal username) else internal.lookup v := by
  simp only [getOrCreate, keyOf]
  split
  · rename_i raw h
    by_cases hv : v = username
    · subst hv
      simp [h]
    · simp [hv]
  · rename_i h
    by_cases hv : v = username
    · subst hv
      simp [h]
    · simp [hv, AList.lookup_insert_ne hv]

end Keys

/-! ### One turn of the loop -/

section Upsert

variable {hashKey : String → String} {now : Time} {t : ApiKeyTable} {user : String × String}
  {rawKey : String}

/-- A conflict leaves the table alone. -/
lemma createOrLog_of_taken {r x : ApiKeyRow} (h : t.getByLabel r.label = some x) :
    createOrLog t r = t := by
  have hx := ApiKeyTable.getByLabel_eq_some.mp h
  rw [createOrLog, ApiKeyTable.create_eq_none.mpr ⟨x, hx⟩]
  rfl

lemma createOrLog_of_free {r : ApiKeyRow} (h : t.getByLabel r.label = none) :
    (createOrLog t r).rows = t.rows ++ [r] := by
  obtain ⟨t', ht', hrows⟩ := ApiKeyTable.rows_create h
  rw [createOrLog, ht']
  exact hrows

/-- What the turn of a user does to the table: a new row where none has the label, nothing where the
row is revoked or has the right hash, and a revocation where it has another. -/
inductive Upserted (hashKey : String → String) (now : Time) (t : ApiKeyTable)
    (user : String × String) (rawKey : String) (t' : ApiKeyTable) : Prop
  | created (hfree : t.getByLabel (dashboardLabel user.1) = none)
      (hrows : t'.rows = t.rows ++ [dashboardRow hashKey user.1 user.2 rawKey])
  | kept (r : ApiKeyRow) (hr : t.getByLabel (dashboardLabel user.1) = some r) (heq : t' = t)
      (hrow : r.revokedAt = none → r.keyHash = hashKey rawKey)
  | revoked (r : ApiKeyRow) (hr : t.getByLabel (dashboardLabel user.1) = some r)
      (hhash : r.keyHash ≠ hashKey rawKey) (heq : t' = t.revoke (dashboardLabel user.1) now)

lemma upserted (hashKey : String → String) (now : Time) (t : ApiKeyTable)
    (user : String × String) (rawKey : String) :
    Upserted hashKey now t user rawKey (upsert hashKey now t user.1 user.2 rawKey) := by
  cases hr : t.getByLabel (dashboardLabel user.1) with
  | none =>
      refine .created hr ?_
      simp only [upsert, hr]
      exact createOrLog_of_free hr
  | some r =>
      by_cases hrev : r.revokedAt = none
      · by_cases hhash : r.keyHash = hashKey rawKey
        · exact .kept r hr (by simp [upsert, hr, hrev, hhash]) fun _ => hhash
        · refine .revoked r hr hhash ?_
          have htaken : (t.revoke (dashboardLabel user.1) now).getByLabel (dashboardLabel user.1)
              = some (ApiKeyTable.revokeRow (dashboardLabel user.1) now r) := by
            rw [ApiKeyTable.getByLabel_revoke, hr]
            rfl
          simp only [upsert, hr, hrev, hhash, ne_eq, not_true_eq_false, if_false,
            not_false_eq_true, if_true]
          exact createOrLog_of_taken htaken
      · refine .kept r hr ?_ fun h => absurd h hrev
        simp only [upsert, hr, ne_eq, hrev, not_false_eq_true, if_true]
        exact createOrLog_of_taken hr

namespace Upserted

variable {t' : ApiKeyTable}

lemma getByHash_created {row : ApiKeyRow} (hrows : t'.rows = t.rows ++ [row]) (key : String) :
    t'.getByHash key = (t.getByHash key).or (if row.keyHash = key then some row else none) := by
  rw [ApiKeyTable.getByHash, hrows, List.find?_append]
  congr 1
  by_cases hk : row.keyHash = key <;> simp [hk]

lemma getByLabel_created {row : ApiKeyRow} (hrows : t'.rows = t.rows ++ [row]) (label : String) :
    t'.getByLabel label = (t.getByLabel label).or (if row.label = label then some row else none) := by
  rw [ApiKeyTable.getByLabel, hrows, List.find?_append]
  congr 1
  by_cases hk : row.label = label <;> simp [hk]

/-- The user of the turn is provided for if that was so, or nothing was in the way. -/
lemma provided_iff (h : Upserted hashKey now t user rawKey t') :
    Provided hashKey now t' user rawKey ↔
      Provided hashKey now t user rawKey ∨ Vacant hashKey t user rawKey := by
  cases h with
  | created hfree hrows =>
      have hnot : ¬ Provided hashKey now t user rawKey := by
        rintro ⟨r, hr, hl, -⟩
        exact ApiKeyTable.getByLabel_eq_none.mp hfree r (List.mem_of_find?_eq_some hr) hl
      constructor
      · rintro ⟨r, hr, hl, -⟩
        rw [getByHash_created hrows] at hr
        refine Or.inr ⟨hfree, ?_⟩
        cases hold : t.getByHash (hashKey rawKey) with
        | none => rfl
        | some x =>
            rw [hold] at hr
            obtain rfl : x = r := Option.some.inj hr
            exact absurd hl
              (ApiKeyTable.getByLabel_eq_none.mp hfree x (List.mem_of_find?_eq_some hold))
      · rintro (hp | ⟨-, hhash⟩)
        · exact absurd hp hnot
        · refine ⟨dashboardRow hashKey user.1 user.2 rawKey, ?_, rfl, rfl, rfl⟩
          rw [getByHash_created hrows, hhash]
          simp [dashboardRow]
  | kept r hr heq hrow =>
      subst heq
      constructor
      · exact Or.inl
      · rintro (hp | ⟨hfree, -⟩)
        · exact hp
        · cases hfree.symm.trans hr
  | revoked r hr hhash heq =>
      constructor
      · rintro ⟨r', hr', hl, -, hvalid⟩
        rw [heq, ApiKeyTable.getByHash_revoke] at hr'
        obtain ⟨r₀, -, rfl⟩ := Option.map_eq_some_iff.mp hr'
        rw [ApiKeyTable.revokeRow_label] at hl
        rw [ApiKeyRow.isValid_of_revoked (ApiKeyTable.revokedAt_revokeRow hl now)] at hvalid
        cases hvalid
      · rintro (⟨r', hr', hl, -⟩ | ⟨hfree, -⟩)
        · -- the row with the label has another hash
          have hr₀ := ApiKeyTable.getByLabel_eq_some.mpr ⟨List.mem_of_find?_eq_some hr', hl⟩
          cases hr.symm.trans hr₀
          exact absurd (by simpa using List.find?_some hr') hhash
        · cases hfree.symm.trans hr

/-- Another user, with another key, is as well provided for as before. -/
lemma provided_iff_of_ne (h : Upserted hashKey now t user rawKey t') {v : String × String}
    {raw : String} (hv : v.1 ≠ user.1) (hraw : hashKey raw ≠ hashKey rawKey) :
    Provided hashKey now t' v raw ↔ Provided hashKey now t v raw := by
  have hlabel : dashboardLabel v.1 ≠ dashboardLabel user.1 := fun h => hv (dashboardLabel_injective h)
  cases h with
  | created hfree hrows =>
      have hget : t'.getByHash (hashKey raw) = t.getByHash (hashKey raw) := by
        rw [getByHash_created hrows]
        simp [dashboardRow, hraw.symm]
      rw [Provided, Provided, hget]
  | kept r hr heq hrow => rw [heq]
  | revoked r hr hhash heq =>
      rw [heq, Provided, Provided, ApiKeyTable.getByHash_revoke]
      constructor
      · rintro ⟨r', hr', hl, hrole, hvalid⟩
        obtain ⟨r₀, hr₀, rfl⟩ := Option.map_eq_some_iff.mp hr'
        rw [ApiKeyTable.revokeRow_label] at hl
        rw [ApiKeyTable.revokeRow_of_ne (hl ▸ hlabel)] at hrole hvalid
        exact ⟨r₀, hr₀, hl, hrole, hvalid⟩
      · rintro ⟨r', hr', hl, hrole, hvalid⟩
        have hsame : ApiKeyTable.revokeRow (dashboardLabel user.1) now r' = r' :=
          ApiKeyTable.revokeRow_of_ne (hl ▸ hlabel)
        exact ⟨r', by rw [hr', Option.map_some, hsame], hl, hrole, hvalid⟩

/-- And what stood in the way of a new row for it, or did not, is as before. -/
lemma vacant_iff_of_ne (h : Upserted hashKey now t user rawKey t') {v : String × String}
    {raw : String} (hv : v.1 ≠ user.1) (hraw : hashKey raw ≠ hashKey rawKey) :
    Vacant hashKey t' v raw ↔ Vacant hashKey t v raw := by
  have hlabel : dashboardLabel v.1 ≠ dashboardLabel user.1 := fun h => hv (dashboardLabel_injective h)
  cases h with
  | created hfree hrows =>
      rw [Vacant, Vacant, getByHash_created hrows, getByLabel_created hrows]
      simp [dashboardRow, hraw.symm, hlabel.symm]
  | kept r hr heq hrow => rw [heq]
  | revoked r hr hhash heq =>
      rw [heq, Vacant, Vacant, ApiKeyTable.getByHash_revoke, ApiKeyTable.getByLabel_revoke]
      simp

/-- The row of another label is what it was. -/
lemma getByLabel_of_ne (h : Upserted hashKey now t user rawKey t') {v : String}
    (hv : v ≠ user.1) : t'.getByLabel (dashboardLabel v) = t.getByLabel (dashboardLabel v) := by
  have hlabel : dashboardLabel v ≠ dashboardLabel user.1 := fun h => hv (dashboardLabel_injective h)
  cases h with
  | created hfree hrows =>
      rw [getByLabel_created hrows]
      simp [dashboardRow, hlabel.symm]
  | kept r hr heq hrow => rw [heq]
  | revoked r hr hhash heq =>
      rw [heq, ApiKeyTable.getByLabel_revoke]
      cases hrow : t.getByLabel (dashboardLabel v) with
      | none => rfl
      | some x =>
          have hx : x.label = dashboardLabel v := (ApiKeyTable.getByLabel_eq_some.mp hrow).2
          rw [Option.map_some, ApiKeyTable.revokeRow_of_ne (hx ▸ hlabel)]

/-- The user's own row is there after its turn, revoked or with the right hash. -/
lemma settled (h : Upserted hashKey now t user rawKey t') :
    ∃ r, t'.getByLabel (dashboardLabel user.1) = some r ∧
      (r.revokedAt = none → r.keyHash = hashKey rawKey) := by
  cases h with
  | created hfree hrows =>
      refine ⟨dashboardRow hashKey user.1 user.2 rawKey, ?_, fun _ => rfl⟩
      rw [getByLabel_created hrows, hfree]
      simp [dashboardRow]
  | kept r hr heq hrow => exact ⟨r, heq ▸ hr, hrow⟩
  | revoked r hr hhash heq =>
      refine ⟨ApiKeyTable.revokeRow (dashboardLabel user.1) now r, ?_, ?_⟩
      · rw [heq, ApiKeyTable.getByLabel_revoke, hr]
        rfl
      · intro hrev
        have hl : r.label = dashboardLabel user.1 := (ApiKeyTable.getByLabel_eq_some.mp hr).2
        exact absurd hrev (ApiKeyTable.revokedAt_revokeRow hl now)

end Upserted

end Upsert

/-! ### The loop -/

section Loop

variable {hashKey : String → String} {now : Time} {draw : String → String}

lemma syncUser_upserted (s : DashboardKeys) (user : String × String) :
    Upserted hashKey now s.apiKeys user (keyOf draw s.internal user.1)
      (syncUser hashKey now draw s user).apiKeys := by
  rw [← getOrCreate_snd]
  exact upserted hashKey now s.apiKeys user _

lemma lookup_syncUser (s : DashboardKeys) (user : String × String) (v : String) :
    (syncUser hashKey now draw s user).internal.lookup v =
      if v = user.1 then some (keyOf draw s.internal user.1) else s.internal.lookup v :=
  lookup_getOrCreate user.1 v

lemma state_syncUser (s : DashboardKeys) (user : String × String) :
    (syncUser hashKey now draw s user).state
      = s.state.insert user.1 (keyOf draw s.internal user.1) := by
  rw [← getOrCreate_snd]
  rfl

/-- The keys do not change in the loop. -/
lemma keyOf_syncUser (s : DashboardKeys) (user : String × String) :
    keyOf draw (syncUser hashKey now draw s user).internal = keyOf draw s.internal := by
  funext v
  rw [keyOf, lookup_syncUser]
  by_cases hv : v = user.1
  · subst hv
    simp
  · rw [if_neg hv, keyOf]

/-- The turns of the others leave a user as well provided for as before. -/
lemma provided_foldl_of_not_mem {users : List (String × String)} {v : String × String}
    {raw : String} (hv : ∀ u ∈ users, v.1 ≠ u.1) (s : DashboardKeys)
    (hraw : ∀ u ∈ users, hashKey raw ≠ hashKey (keyOf draw s.internal u.1)) :
    Provided hashKey now (users.foldl (syncUser hashKey now draw) s).apiKeys v raw ↔
      Provided hashKey now s.apiKeys v raw := by
  induction users generalizing s with
  | nil => exact Iff.rfl
  | cons u users ih =>
      rw [List.foldl_cons, ih (fun w hw => hv w (List.mem_cons_of_mem _ hw))]
      · exact (syncUser_upserted s u).provided_iff_of_ne (hv u List.mem_cons_self)
          (hraw u List.mem_cons_self)
      · intro w hw
        rw [keyOf_syncUser]
        exact hraw w (List.mem_cons_of_mem _ hw)

/-- After the loop a user is provided for if it was before, or nothing was in the way. -/
lemma provided_foldl {users : List (String × String)} (hn : (users.map Prod.fst).Nodup)
    (s : DashboardKeys) (hd : ∀ u ∈ users, ∀ v ∈ users, u.1 ≠ v.1 →
      hashKey (keyOf draw s.internal u.1) ≠ hashKey (keyOf draw s.internal v.1))
    {v : String × String} (hv : v ∈ users) :
    Provided hashKey now (users.foldl (syncUser hashKey now draw) s).apiKeys v
        (keyOf draw s.internal v.1) ↔
      Provided hashKey now s.apiKeys v (keyOf draw s.internal v.1) ∨
        Vacant hashKey s.apiKeys v (keyOf draw s.internal v.1) := by
  induction users generalizing s with
  | nil => cases hv
  | cons u users ih =>
      obtain ⟨hu, hn⟩ := List.nodup_cons.mp hn
      have hne : ∀ w ∈ users, w.1 ≠ u.1 := by
        intro w hw heq
        exact hu (heq ▸ List.mem_map_of_mem hw)
      have hkeys : keyOf draw (syncUser hashKey now draw s u).internal = keyOf draw s.internal :=
        keyOf_syncUser s u
      rw [List.foldl_cons]
      rcases List.mem_cons.mp hv with rfl | hv
      · rw [provided_foldl_of_not_mem (fun w hw => (hne w hw).symm)]
        · exact (syncUser_upserted s v).provided_iff
        · intro w hw
          rw [hkeys]
          exact hd v List.mem_cons_self w (List.mem_cons_of_mem _ hw) (hne w hw).symm
      · have hraw := hd v (List.mem_cons_of_mem _ hv) u List.mem_cons_self (hne v hv)
        have hih := ih hn (syncUser hashKey now draw s u) (by
          intro w hw x hx
          rw [hkeys]
          exact hd w (List.mem_cons_of_mem _ hw) x (List.mem_cons_of_mem _ hx)) hv
        rw [hkeys] at hih
        rw [hih, (syncUser_upserted s u).provided_iff_of_ne (hne v hv) hraw,
          (syncUser_upserted s u).vacant_iff_of_ne (hne v hv) hraw]

/-- What goes to `app.state`. -/
lemma state_foldl (users : List (String × String)) (s : DashboardKeys) :
    (users.foldl (syncUser hashKey now draw) s).state =
      users.foldl (fun d u => d.insert u.1 (keyOf draw s.internal u.1)) s.state := by
  induction users generalizing s with
  | nil => rfl
  | cons u users ih =>
      rw [List.foldl_cons, ih, List.foldl_cons, keyOf_syncUser, state_syncUser]

lemma lookup_foldl_insert (f : String → String) {users : List (String × String)} {v : String}
    (d : Dict String String) (h : v ∈ users.map Prod.fst ∨ d.lookup v = some (f v)) :
    (users.foldl (fun d u => d.insert u.1 (f u.1)) d).lookup v = some (f v) := by
  induction users generalizing d with
  | nil =>
      rcases h with h | h
      · cases h
      · exact h
  | cons u users ih =>
      rw [List.foldl_cons]
      refine ih _ ?_
      by_cases hv : v = u.1
      · subst hv
        exact Or.inr (AList.lookup_insert _)
      · rw [AList.lookup_insert_ne hv]
        rcases h with h | h
        · rw [List.map_cons, List.mem_cons] at h
          exact Or.inl (h.resolve_left hv)
        · exact Or.inr h

/-! ### The second run -/

/-- The loop has nothing to do for the user: there is a key, and a row that is revoked or has the
hash of the key. -/
def Settled (hashKey : String → String) (s : DashboardKeys) (username raw : String) : Prop :=
  s.internal.lookup username = some raw ∧
    ∃ r, s.apiKeys.getByLabel (dashboardLabel username) = some r ∧
      (r.revokedAt = none → r.keyHash = hashKey raw)

lemma settled_syncUser (s : DashboardKeys) (user : String × String) :
    Settled hashKey (syncUser hashKey now draw s user) user.1 (keyOf draw s.internal user.1) :=
  ⟨by rw [lookup_syncUser, if_pos rfl], (syncUser_upserted s user).settled⟩

/-- The turn of a settled user does nothing to the tables. -/
lemma Settled.syncUser_eq {s : DashboardKeys} {user : String × String} {raw : String}
    (h : Settled hashKey s user.1 raw) :
    syncUser hashKey now draw s user = { s with state := s.state.insert user.1 raw } := by
  obtain ⟨hraw, r, hr, hrow⟩ := h
  have hkey : getOrCreate s.internal user.1 (draw user.1) = (s.internal, raw) := by
    simp [getOrCreate, hraw]
  have hupsert : upsert hashKey now s.apiKeys user.1 user.2 raw = s.apiKeys := by
    simp only [upsert, hr]
    by_cases hrev : r.revokedAt = none
    · simp [hrev, hrow hrev]
    · simp only [ne_eq, hrev, not_false_eq_true, if_true]
      exact createOrLog_of_taken hr
  simp [syncUser, hkey, hupsert]

/-- A settled user stays settled. -/
lemma Settled.syncUser {s : DashboardKeys} {username raw : String}
    (h : Settled hashKey s username raw) (user : String × String) :
    Settled hashKey (syncUser hashKey now draw s user) username raw := by
  by_cases hu : username = user.1
  · subst hu
    rw [h.syncUser_eq]
    exact h
  · obtain ⟨hraw, r, hr, hrow⟩ := h
    refine ⟨by rwa [lookup_syncUser, if_neg hu], r, ?_, hrow⟩
    rwa [(syncUser_upserted s user).getByLabel_of_ne hu]

lemma Settled.foldl {s : DashboardKeys} {username raw : String}
    (h : Settled hashKey s username raw) (users : List (String × String)) :
    Settled hashKey (users.foldl (GgRelay.syncUser hashKey now draw) s) username raw := by
  induction users generalizing s with
  | nil => exact h
  | cons u users ih => exact ih (h.syncUser u)

/-- After the loop every user is settled. -/
lemma settled_foldl {users : List (String × String)} {v : String × String} (hv : v ∈ users)
    (s : DashboardKeys) : Settled hashKey (users.foldl (syncUser hashKey now draw) s) v.1
      (keyOf draw s.internal v.1) := by
  induction users generalizing s with
  | nil => cases hv
  | cons u users ih =>
      rcases List.mem_cons.mp hv with rfl | hv
      · exact (settled_syncUser s v).foldl users
      · have h := ih hv (syncUser hashKey now draw s u)
        rwa [keyOf_syncUser] at h

/-- Where every user is settled, the loop only fills the dictionary. -/
lemma foldl_of_settled {users : List (String × String)} {raw : String → String}
    {s : DashboardKeys} (h : ∀ u ∈ users, Settled hashKey s u.1 (raw u.1)) :
    users.foldl (syncUser hashKey now draw) s =
      { s with state := users.foldl (fun d u => d.insert u.1 (raw u.1)) s.state } := by
  induction users generalizing s with
  | nil => rfl
  | cons u users ih =>
      have hu := h u List.mem_cons_self
      rw [List.foldl_cons, hu.syncUser_eq, ih]
      · rfl
      · intro w hw
        exact h w (List.mem_cons_of_mem _ hw)

/-- A second run changes nothing, whatever the first one has come to. -/
theorem sync_sync (users : List (String × String)) (s : DashboardKeys) (now' : Time)
    (draw' : String → String) : sync hashKey now' draw' users (sync hashKey now draw users s)
      = sync hashKey now draw users s := by
  have hsettled : ∀ u ∈ users, Settled hashKey
      { sync hashKey now draw users s with state := ∅ } u.1 (keyOf draw s.internal u.1) :=
    fun u hu => settled_foldl hu { s with state := ∅ }
  have hstate : (sync hashKey now draw users s).state =
      users.foldl (fun d u => d.insert u.1 (keyOf draw s.internal u.1)) ∅ :=
    state_foldl users { s with state := ∅ }
  rw [sync, foldl_of_settled hsettled, ← hstate]

end Loop

/-- The keys of two users are told apart by their hashes: `secrets.token_urlsafe` draws 256 bits for
each of them. -/
def KeysDistinct (hashKey : String → String) (draw : String → String)
    (users : List (String × String)) (s : DashboardKeys) : Prop :=
  ∀ u ∈ users, ∀ v ∈ users, u.1 ≠ v.1 →
    hashKey (keyOf draw s.internal u.1) ≠ hashKey (keyOf draw s.internal v.1)

/-- The provisioning converges if and only if each configured user is already provided for, or no
row has its label or accepts its key. -/
theorem provisioning_converges_iff {hashKey : String → String} {now : Time}
    {draw : String → String} {cfg : DashboardConfig} {s : DashboardKeys}
    (hd : KeysDistinct hashKey draw (usersToMint cfg) s) :
    Converges hashKey now draw (usersToMint cfg) s ↔ ∀ u ∈ usersToMint cfg,
      Provided hashKey now s.apiKeys u (keyOf draw s.internal u.1) ∨
        Vacant hashKey s.apiKeys u (keyOf draw s.internal u.1) := by
  have hlookup : ∀ u ∈ usersToMint cfg, (sync hashKey now draw (usersToMint cfg) s).state.lookup u.1
      = some (keyOf draw s.internal u.1) := by
    intro u hu
    rw [sync, state_foldl]
    exact lookup_foldl_insert _ ∅ (Or.inl (List.mem_map_of_mem hu))
  have hprovided : ∀ u ∈ usersToMint cfg,
      Provided hashKey now (sync hashKey now draw (usersToMint cfg) s).apiKeys u
          (keyOf draw s.internal u.1) ↔
        Provided hashKey now s.apiKeys u (keyOf draw s.internal u.1) ∨
          Vacant hashKey s.apiKeys u (keyOf draw s.internal u.1) :=
    fun u hu => provided_foldl (usersToMint_nodup cfg) { s with state := ∅ } hd hu
  constructor
  · rintro ⟨hc, -⟩ u hu
    obtain ⟨raw, hraw, hp⟩ := hc u hu
    cases (hlookup u hu).symm.trans hraw
    exact (hprovided u hu).mp hp
  · intro h
    refine ⟨?_, fun now' draw' => sync_sync _ s now' draw'⟩
    intro u hu
    exact ⟨_, hlookup u hu, (hprovided u hu).mpr (h u hu)⟩

/-- The key that the examples draw. -/
def drawnKey : String := "AAAAAAAAAAAAAAAAAAAAAAAAAAAAAAAAAAAAAAAAAAA"

/-- The digest of that key. -/
def digest (raw : String) : String :=
  if raw = drawnKey then "0f007385b6f9d4b7eeb2748605afe1a984a0a3bfa3f014d09e2a784ce9e5cd1a"
  else raw

/-- One dashboard user. -/
def oneUser : DashboardConfig where
  users := ["alice"]
  nodup := by decide

lemma usersToMint_oneUser : usersToMint oneUser = [("alice", "submitter")] := rfl

/-- The first start, on empty tables. -/
theorem provisioning_converges_of_empty :
    Converges digest 0 (fun _ => drawnKey) (usersToMint oneUser) { apiKeys := .empty } := by
  have hd : KeysDistinct digest (fun _ => drawnKey) (usersToMint oneUser)
      { apiKeys := .empty } := by
    intro u hu v hv hne
    rw [usersToMint_oneUser, List.mem_singleton] at hu hv
    rw [hu, hv] at hne
    exact absurd rfl hne
  refine (provisioning_converges_iff hd).mpr ?_
  intro u _
  exact Or.inr ⟨rfl, rfl⟩

/-- The tables after the first start, with the key of the user revoked by an admin. -/
def adminRevoked : DashboardKeys :=
  let s := sync digest 0 (fun _ => drawnKey) (usersToMint oneUser) { apiKeys := .empty }
  { s with apiKeys := s.apiKeys.revoke (dashboardLabel "alice") 1 }

/-- The next start does not provide for the user. -/
theorem revoked_dashboard_key_stays_out :
    ¬ Converges digest 2 (fun _ => drawnKey) (usersToMint oneUser) adminRevoked := by
  rintro ⟨h, -⟩
  obtain ⟨raw, -, r, hr, -, -, hvalid⟩ := h ("alice", "submitter") List.mem_cons_self
  have hall : ∀ r ∈ (sync digest 2 (fun _ => drawnKey) (usersToMint oneUser)
      adminRevoked).apiKeys.rows, r.isValid 2 = false := by
    decide
  rw [hall r (List.mem_of_find?_eq_some hr)] at hvalid
  cases hvalid

end GgRelay
