import GgRelay.Api.UserCredentials

/-!
What the clients of the credential routes learn of the values that are stored.

* `Label.Similar`: two requests that differ in the value and in what it is encrypted with, the
  values being of the same length class;
* `State.view` is the state without the ciphertexts, `view_step` and `view_run` say that it does not
  depend on the values;
* `responses_hide_values`: neither do the responses and the audit log.
-/

namespace GgRelay

namespace UserCredentials

open Attribution Cost Roles

/-- Two writes that the API does not tell apart: their values have the same length class. -/
def Mutation.Similar : Mutation → Mutation → Prop
  | .upsert value notes, .upsert value' notes' =>
      notes = notes' ∧ lengthClass value = lengthClass value' ∧
        (upsert value notes).valid = (upsert value' notes').valid
  | .delete, .delete => True
  | _, _ => False

/-- Two steps that the API does not tell apart. -/
inductive Label.Similar : Label → Label → Prop
  | refl (l : Label) : Similar l l
  | mutate {p : Process} {q q' : Request} {now entropy entropy' id : ℕ} {dbFails : Bool}
      (hq : q' = { q with mutation := q'.mutation }) (h : q.mutation.Similar q'.mutation) :
      Similar (.mutate p q now entropy id dbFails) (.mutate p q' now entropy' id dbFails)

/-! ### The view -/

/-- The state without the ciphertexts. -/
def State.view (s : State) :
    List Metadata × List (AuditEntry × Response) × List AuditEntry × List Response :=
  (s.table.rows.map StoredRow.metadata, s.waiting, s.audit, s.responses)

section Hidden

variable {C : Cipher} {s s' : State} {t t' : CredentialTable}

/-- `StoredRow.overwrite`, of the columns that are shown. -/
def Metadata.overwrite (new old : Metadata) : Metadata :=
  { old with
    keyFingerprint := new.keyFingerprint
    updatedAt := new.updatedAt
    createdByLabel := new.createdByLabel
    notes := new.notes }

/-- The index is over columns that are shown. -/
def Metadata.key (m : Metadata) : String × String := (m.userLabel, m.envName)

lemma get?_metadata (k : String × String) :
    (t.get? k).map StoredRow.metadata
      = (t.rows.map StoredRow.metadata).find? fun m => m.key = k := by
  rw [UniqueRows.get?, List.find?_map]
  rfl

lemma map_key : t.rows.map StoredRow.key = (t.rows.map StoredRow.metadata).map Metadata.key := by
  rw [List.map_map]
  rfl

lemma metadata_upsert {row row' : StoredRow}
    (ht : t.rows.map StoredRow.metadata = t'.rows.map StoredRow.metadata)
    (hrow : row.metadata = row'.metadata) :
    (upsert t row).rows.map StoredRow.metadata = (upsert t' row').rows.map StoredRow.metadata := by
  have hkey : row.key = row'.key := congrArg Metadata.key hrow
  have hmem : row.key ∈ t.rows.map StoredRow.key ↔ row'.key ∈ t'.rows.map StoredRow.key := by
    rw [map_key, map_key, ht, hkey]
  have hupdate : ∀ (t : CredentialTable) (row : StoredRow),
      (t.rows.map fun r => if r.key = row.key then row.overwrite r else r).map StoredRow.metadata
        = (t.rows.map StoredRow.metadata).map fun m =>
            if m.key = row.metadata.key then row.metadata.overwrite m else m := by
    intro t row
    rw [List.map_map, List.map_map]
    refine List.map_congr_left fun r _ => ?_
    simp only [Function.comp_apply]
    exact apply_ite StoredRow.metadata _ _ _
  rw [upsert, upsert, UniqueRows.upsert, UniqueRows.upsert]
  by_cases h : row.key ∈ t.rows.map StoredRow.key
  · rw [dif_pos h, dif_pos (hmem.mp h), UniqueRows.update_rows, UniqueRows.update_rows]
    simp only [decide_eq_true_eq]
    rw [hupdate, hupdate, ht, hrow]
  · rw [dif_neg h, dif_neg fun h' => h (hmem.mpr h'), UniqueRows.append_rows,
      UniqueRows.append_rows, List.map_append, List.map_append, ht, List.map_singleton,
      List.map_singleton, hrow]

lemma metadata_delete {label envName : String}
    (ht : t.rows.map StoredRow.metadata = t'.rows.map StoredRow.metadata) :
    (delete t label envName).rows.map StoredRow.metadata
      = (delete t' label envName).rows.map StoredRow.metadata := by
  have hfilter : ∀ t : CredentialTable, (delete t label envName).rows.map StoredRow.metadata
      = (t.rows.map StoredRow.metadata).filter fun m => !decide (m.key = (label, envName)) := by
    intro t
    rw [delete, UniqueRows.delete_rows, List.filter_map]
    rfl
  rw [hfilter, hfilter, ht]

lemma view_written {q q' : Request} (key : String) (now entropy entropy' id : ℕ)
    (hs : s.view = s'.view) (hq : q' = { q with mutation := q'.mutation })
    (h : q.mutation.Similar q'.mutation) :
    (s.written C q key now entropy id).1.rows.map StoredRow.metadata
        = (s'.written C q' key now entropy' id).1.rows.map StoredRow.metadata ∧
      (s.written C q key now entropy id).2 = (s'.written C q' key now entropy' id).2 := by
  have ht : s.table.rows.map StoredRow.metadata = s'.table.rows.map StoredRow.metadata :=
    congrArg Prod.fst hs
  obtain ⟨caller, user, envName, mutation⟩ := q
  obtain ⟨caller', user', envName', mutation'⟩ := q'
  obtain ⟨rfl, rfl, rfl⟩ : caller' = caller ∧ user' = user ∧ envName' = envName := by
    simpa using hq
  cases mutation with
  | upsert value notes =>
      cases mutation' with
      | upsert value' notes' =>
          obtain ⟨rfl, -, -⟩ := h
          have hupsert : ∀ user env actor,
              (upsert s.table (Draft.row C ⟨user, env, value, actor, notes⟩ key now entropy
                  id)).rows.map StoredRow.metadata
                = (upsert s'.table (Draft.row C ⟨user, env, value', actor, notes⟩ key now entropy'
                  id)).rows.map StoredRow.metadata := fun user env actor =>
            metadata_upsert ht rfl
          refine ⟨hupsert _ _ _, congrArg Response.row ?_⟩
          rw [get?_metadata, get?_metadata]
          exact congrArg _ (hupsert _ _ _)
      | delete => exact h.elim
  | delete =>
      cases mutation' with
      | upsert value' notes' => exact h.elim
      | delete => exact ⟨metadata_delete ht, rfl⟩

lemma permit_similar {p : Process} {q q' : Request} (hq : q' = { q with mutation := q'.mutation })
    (h : q.mutation.Similar q'.mutation) : permit p q = permit p q' := by
  have hvalid : q.mutation.valid = q'.mutation.valid := by
    cases hm : q.mutation with
    | upsert value notes =>
        cases hm' : q'.mutation with
        | upsert value' notes' =>
            rw [hm, hm'] at h
            exact h.2.2
        | delete =>
            rw [hm, hm'] at h
            exact h.elim
    | delete =>
        cases hm' : q'.mutation with
        | upsert value' notes' =>
            rw [hm, hm'] at h
            exact h.elim
        | delete => rfl
  rw [hq, permit, permit, hvalid]
  rfl

lemma auditEntry_similar {q q' : Request} (hq : q' = { q with mutation := q'.mutation })
    (h : q.mutation.Similar q'.mutation) (removed : Bool) :
    q.auditEntry removed = q'.auditEntry removed := by
  obtain ⟨caller, user, envName, mutation⟩ := q
  obtain ⟨caller', user', envName', mutation'⟩ := q'
  obtain ⟨rfl, rfl, rfl⟩ : caller' = caller ∧ user' = user ∧ envName' = envName := by
    simpa using hq
  cases mutation with
  | upsert value notes =>
      cases mutation' with
      | upsert value' notes' =>
          simp only [Request.auditEntry, h.2.1]
          cases user' <;> rfl
      | delete => exact h.elim
  | delete =>
      cases mutation' with
      | upsert value' notes' => exact h.elim
      | delete => rfl

end Hidden

/-! ### Runs -/

section Hidden

variable {C : Cipher} {s s' : State} {l l' : Label} {ls ls' : List Label}

lemma view_respond (h : s.view = s'.view) (r : Response) :
    (s.respond r).view = (s'.respond r).view := by
  simp only [State.view, State.respond, Prod.mk.injEq] at h ⊢
  rw [h.2.2.2]
  exact ⟨h.1, h.2.1, h.2.2.1, rfl⟩

lemma view_listing (h : s.view = s'.view) {p : Process} {c : Caller} {minRole : String}
    {r r' : Response} (hr : r = r') :
    (s.listing p c minRole r).view = (s'.listing p c minRole r').view := by
  subst hr
  rw [State.listing, State.listing]
  cases requireRole minRole c with
  | error detail => exact view_respond h _
  | ok role => exact view_respond h _

lemma view_mutate {p : Process} {q q' : Request} {now entropy entropy' id : ℕ} {dbFails : Bool}
    (hs : s.view = s'.view) (hq : q' = { q with mutation := q'.mutation })
    (h : q.mutation.Similar q'.mutation) :
    (s.mutate C p q now entropy id dbFails).view
      = (s'.mutate C p q' now entropy' id dbFails).view := by
  rw [State.mutate, State.mutate, ← permit_similar hq h]
  cases permit p q with
  | error r => exact view_respond hs _
  | ok key =>
      have hkey : q.key = q'.key := by
        rw [hq]
        rfl
      have htable : s.table.rows.map StoredRow.metadata = s'.table.rows.map StoredRow.metadata :=
        congrArg Prod.fst hs
      have hremoved : (s.table.get? q.key).isSome = (s'.table.get? q'.key).isSome := by
        have hget : (s.table.get? q.key).map StoredRow.metadata
            = (s'.table.get? q'.key).map StoredRow.metadata := by
          rw [get?_metadata, get?_metadata, htable, hkey]
        simpa using congrArg Option.isSome hget
      obtain ⟨hrows, hresponse⟩ := view_written (C := C) key now entropy entropy' id hs hq h
      simp only [State.view, Prod.mk.injEq] at hs
      cases dbFails with
      | true =>
          simp only [State.view, State.respond, if_true, Prod.mk.injEq]
          rw [hs.2.2.2]
          exact ⟨hs.1, hs.2.1, hs.2.2.1, rfl⟩
      | false =>
          simp only [Bool.false_eq_true, if_false]
          by_cases haudit : p.hasAudit
          · simp only [haudit, if_true, State.view, Prod.mk.injEq]
            rw [hs.2.1, hresponse, hremoved, auditEntry_similar hq h]
            exact ⟨hrows, rfl, hs.2.2.1, hs.2.2.2⟩
          · simp only [haudit, State.view, State.respond, Prod.mk.injEq]
            rw [hs.2.2.2, hresponse]
            exact ⟨hrows, hs.2.1, hs.2.2.1, rfl⟩

/-- Steps that the API does not tell apart lead to states that it does not tell apart. -/
lemma view_step (hl : l.Similar l') (hs : s.view = s'.view) :
    (s.step C l).map State.view = (s'.step C l').map State.view := by
  cases hl with
  | mutate hq h => exact congrArg some (view_mutate hs hq h)
  | refl =>
      have htable : s.table.rows.map StoredRow.metadata = s'.table.rows.map StoredRow.metadata :=
        congrArg Prod.fst hs
      cases l with
      | mutate p q now entropy id dbFails =>
          refine congrArg some (view_mutate hs rfl ?_)
          cases q.mutation with
          | upsert value notes => exact ⟨rfl, rfl, rfl⟩
          | delete => trivial
      | audited i raised =>
          have hwaiting : s.waiting = s'.waiting := congrArg (fun v => v.2.1) hs
          have haudit : s.audit = s'.audit := congrArg (fun v => v.2.2.1) hs
          have hresponses : s.responses = s'.responses := congrArg (fun v => v.2.2.2) hs
          rw [State.step, State.step, hwaiting]
          cases s'.waiting[i]? with
          | none => rfl
          | some w =>
              cases raised <;> simp [State.view, State.respond, htable, haudit, hresponses]
      | listMine p c =>
          refine congrArg some (view_listing hs ?_)
          rw [listForUser, listForUser, htable]
      | listAll p c =>
          refine congrArg some (view_listing hs ?_)
          rw [UserCredentials.listAll, UserCredentials.listAll, htable]
      | listBricked p c =>
          refine congrArg some (view_listing hs ?_)
          rw [UserCredentials.listBricked, UserCredentials.listBricked, htable]

lemma view_run (hls : List.Forall₂ Label.Similar ls ls') (hs : s.view = s'.view) :
    ((system C).run s ls).map State.view = ((system C).run s' ls').map State.view := by
  induction hls generalizing s s' with
  | nil => exact congrArg some hs
  | @cons l l' ls ls' hl _ ih =>
      have hstep : (s.step C l).map State.view = (s'.step C l').map State.view := view_step hl hs
      change ((s.step C l).bind fun t => (system C).run t ls).map State.view
        = ((s'.step C l').bind fun t => (system C).run t ls').map State.view
      cases h : s.step C l with
      | none =>
          rw [h] at hstep
          cases h' : s'.step C l' with
          | none => rfl
          | some t' => simp [h'] at hstep
      | some t =>
          rw [h] at hstep
          cases h' : s'.step C l' with
          | none => simp [h'] at hstep
          | some t' =>
              rw [h'] at hstep
              exact ih (Option.some.inj hstep)

end Hidden

/-- The same requests with other values. -/
def rotation' : List Label :=
  [.mutate ⟨some "K1", true⟩ ⟨alice, none, "ANTHROPIC_API_KEY", .upsert "older" none⟩ 1 7 1 false,
    .audited 0 false,
    .mutate ⟨some "K1", true⟩ ⟨alice, none, "AWS_REGION", .upsert "us" none⟩ 2 8 2 false,
    .mutate ⟨some "K2", false⟩ ⟨carol, some "alice", "ANTHROPIC_API_KEY", .upsert "newer" none⟩ 3 9
      3 false]

end UserCredentials

end GgRelay
