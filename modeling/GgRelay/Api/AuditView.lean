import GgRelay.Api.Cost
import GgRelay.Lib.UniqueRows
import GgRelay.Store.Listing.Paging

/-!
Who sees what of the audit log through `GET /api/v1/audit` (`api/routers/audit.py`).

The route checks the session or the actor that a caller asks for, and the store then prefers a target
that is given explicitly to the session.

* `listAuditEvents` is the route, over `list_audit`;
* `Sees` says which rows a caller is entitled to by the route and the store together;
* `shown_iff`: these are the rows that some request of the caller shows.
-/

namespace GgRelay

namespace AuditView

open Cost Listing

/-- What a request asks for. -/
structure Query where
  sessionId : Option String := none
  actor : Option String := none
  action : Option String := none
  targetType : Option String := none
  targetId : Option String := none
  after : Option Cursor := none
  limit : ℕ := 50

/-- The bounds of the parameters. -/
def Query.valid (q : Query) : Bool :=
  (q.sessionId.all fun s => s.length ≤ 64) && (q.actor.all fun s => s.length ≤ 64) &&
    (q.action.all fun s => s.length ≤ 64) && (q.targetType.all fun s => s.length ≤ 32) &&
      (q.targetId.all fun s => s.length ≤ 128) && 1 ≤ q.limit && q.limit ≤ 200

/-- What the route raises. -/
inductive Rejection where
  /-- 422 -/
  | unprocessable
  | sessionNotFound
  | forbiddenAuditView (requiredRole currentRole : String) (sessionOwner : Option String)
  | forbiddenAuditFilter (requiredRole currentRole : String)
  /-- 400 `cursor_invalid`, or a 500 for what the route does not catch -/
  | cursor (e : ListingError)

section Route

variable {σ κ : Type} [LinearOrder σ] [LinearOrder κ] (H : Host σ κ)

/-- The `owner` of each session. -/
abbrev Owners := String → Option (Option String)

/-- The check of the role: the `actor` to filter by. -/
def actorFilter (owners : Owners) (c : Caller) (q : Query) : Except Rejection (Option String) :=
  if c.isAdmin then .ok q.actor
  else
    match q.sessionId with
    | some sessionId =>
        match owners sessionId with
        | none => .error .sessionNotFound
        | some owner =>
            if owner ≠ c.apiKeyLabel then
              .error (.forbiddenAuditView "admin" c.resolveRole owner)
            else .ok q.actor
    | none =>
        if q.actor ≠ none ∧ q.actor ≠ c.apiKeyLabel then
          .error (.forbiddenAuditFilter "admin" c.resolveRole)
        else .ok c.apiKeyLabel

/-- The filter that goes to the store. -/
def Query.filter (q : Query) (actor : Option String) : AuditFilter where
  actor := actor
  action := q.action
  targetType := q.targetType
  targetId := q.targetId

/-- `list_audit_events`. -/
def listAuditEvents (owners : Owners) (rows : List (AuditRow σ)) (c : Caller) (q : Query) :
    Except Rejection (List (AuditRow σ) × Option Cursor) :=
  if ¬q.valid then .error .unprocessable
  else
    match actorFilter owners c q with
    | .error r => .error r
    | .ok actor =>
        match listAudit H q.sessionId (q.filter actor) q.limit rows q.after with
        | .error e => .error (.cursor e)
        | .ok page => .ok page

end Route

/-! ### What a caller sees -/

section Sees

variable {σ κ : Type} [LinearOrder σ] [LinearOrder κ] {H : Host σ κ}

/-- The rows that a caller may see: an administrator all of them, as does whoever has no label; the
others their own, and, as soon as they own a session, all rows with a target. -/
def Sees (owners : Owners) (c : Caller) (r : AuditRow σ) : Prop :=
  c.isAdmin = true ∨ c.apiKeyLabel = none ∨ some r.actor = c.apiKeyLabel ∨
    (∃ sessionId : String, sessionId.length ≤ 64 ∧ owners sessionId = some c.apiKeyLabel) ∧
      ∃ t i : String, r.targetType = some t ∧ r.targetId = some i ∧ t.length ≤ 32 ∧ i.length ≤ 128

variable {owners : Owners} {rows : List (AuditRow σ)} {c : Caller} {q : Query} {r : AuditRow σ}

omit [LinearOrder κ] in
lemma mem_of_listAudit {sessionId : Option String} {f : AuditFilter} {limit : ℕ}
    {after next : Option Cursor} {page : List (AuditRow σ)}
    (h : listAudit H sessionId f limit rows after = .ok (page, next)) (hr : r ∈ page) :
    r ∈ rows ∧ auditWhere (f.resolve sessionId) r = true := by
  rw [listAudit, listing] at h
  cases hanchor : after.mapM (fun c => decodeAuditCursor H c (auditFilterHash H
      (f.resolve sessionId))) with
  | error e =>
      rw [hanchor] at h
      cases h
  | ok anchor =>
      rw [hanchor] at h
      injection h with h
      injection h with hpage hnext
      rw [← hpage] at hr
      have hmem := (List.mem_insertionSort _).mp (List.mem_of_mem_take (List.mem_of_mem_take hr))
      obtain ⟨hrow, hsel⟩ := List.mem_filter.mp hmem
      exact ⟨hrow, (Bool.and_eq_true _ _ ▸ hsel).1⟩

omit [LinearOrder σ] in
/-- What the `WHERE` clause says of a row that is listed. -/
lemma auditWhere_eq_true {f : AuditFilter} : auditWhere f r = true ↔
    (∀ a ∈ f.actor, r.actor = a) ∧ (∀ a ∈ f.action, r.action = a) ∧
      (∀ t ∈ f.targetType, r.targetType = some t) ∧ ∀ t ∈ f.targetId, r.targetId = some t := by
  have hall : ∀ (o : Option String) (p : String → Bool),
      o.all p = true ↔ ∀ a ∈ o, p a = true := by
    intro o p
    cases o <;> simp
  simp only [auditWhere, Bool.and_eq_true, hall, decide_eq_true_eq, and_assoc]

omit [LinearOrder κ] in
/-- **The route shows nothing else.** -/
lemma sees_of_listed {page : List (AuditRow σ)} {next : Option Cursor}
    (h : listAuditEvents H owners rows c q = .ok (page, next)) (hr : r ∈ page) :
    r ∈ rows ∧ Sees owners c r := by
  rw [listAuditEvents] at h
  split_ifs at h with hvalid
  cases hactor : actorFilter owners c q with
  | error e => simp [hactor] at h
  | ok actor =>
      simp only [hactor] at h
      cases hlist : listAudit H q.sessionId (q.filter actor) q.limit rows q.after with
      | error e => simp [hlist] at h
      | ok p =>
          simp only [hlist] at h
          obtain rfl := Except.ok.inj h
          obtain ⟨hrow, hwhere⟩ := mem_of_listAudit hlist hr
          obtain ⟨hwhereactor, -, htype, hid⟩ := auditWhere_eq_true.mp hwhere
          refine ⟨hrow, ?_⟩
          by_cases hadmin : c.isAdmin = true
          · exact Or.inl hadmin
          cases hlabel : c.apiKeyLabel with
          | none => exact Or.inr (Or.inl hlabel)
          | some label =>
              rw [actorFilter, if_neg hadmin] at hactor
              cases hsession : q.sessionId with
              | none =>
                  rw [hsession] at hactor
                  dsimp only at hactor
                  split_ifs at hactor
                  have hown : r.actor = label := by
                    refine hwhereactor label ?_
                    rw [hsession]
                    exact (Except.ok.inj hactor).symm.trans hlabel
                  exact Or.inr (Or.inr (Or.inl (by rw [hown, hlabel])))
              | some sessionId =>
                  rw [hsession] at hactor
                  dsimp only at hactor
                  cases howner : owners sessionId with
                  | none => simp [howner] at hactor
                  | some owner =>
                      simp only [howner] at hactor
                      split_ifs at hactor with hmine
                      rw [not_not] at hmine
                      simp only [Query.valid, Bool.and_eq_true, decide_eq_true_eq] at hvalid
                      have hlen : sessionId.length ≤ 64 := by
                        have h := hvalid.1.1.1.1.1.1
                        simpa [hsession] using h
                      -- an explicit target wins over the session
                      have hresolve : (q.filter actor).resolve (some sessionId) =
                          { q.filter actor with
                            targetType := q.targetType <|> some "session"
                            targetId := q.targetId <|> some sessionId } := rfl
                      rw [hsession, hresolve] at htype hid
                      refine Or.inr (Or.inr (Or.inr ⟨⟨sessionId, hlen, hmine ▸ howner⟩, ?_⟩))
                      have htype' : ∃ t, r.targetType = some t ∧ t.length ≤ 32 := by
                        cases ht : q.targetType with
                        | none => exact ⟨"session", htype _ (by simp [ht]), by decide⟩
                        | some t =>
                            refine ⟨t, htype _ (by simp [ht]), ?_⟩
                            have h := hvalid.1.1.1.2
                            simpa [ht] using h
                      have hid' : ∃ i, r.targetId = some i ∧ i.length ≤ 128 := by
                        cases hi : q.targetId with
                        | none => exact ⟨sessionId, hid _ (by simp [hi]), by omega⟩
                        | some i =>
                            refine ⟨i, hid _ (by simp [hi]), ?_⟩
                            have h := hvalid.1.1.2
                            simpa [hi] using h
                      obtain ⟨t, ht, hlt⟩ := htype'
                      obtain ⟨i, hi, hli⟩ := hid'
                      exact ⟨t, i, ht, hi, hlt, hli⟩

omit [LinearOrder κ] in
/-- A row that a filter selects is on some page. -/
lemma listAudit_shows (hrows : (rows.map (·.id)).Nodup) (hr : r ∈ rows) {sessionId : Option String}
    {f : AuditFilter} (hf : auditWhere (f.resolve sessionId) r = true) {limit : ℕ}
    (hlimit : 0 < limit) :
    ∃ after page next, listAudit H sessionId f limit rows (some after) = .ok (page, next) ∧
      r ∈ page := by
  -- a cursor can be made up: this one points right above the row
  have hpage := listAudit_page (H := H) sessionId f limit rows (some { r with id := r.id + 1 })
  refine ⟨_, _, _, hpage, Keyset.mem_page_of_max (nodup_auditKey hrows) hlimit hr hf ?_ ?_⟩
  · exact Prod.Lex.toLex_lt_toLex.mpr (Or.inr ⟨rfl, lt_add_one r.id⟩)
  · intro x _ hx
    rcases Prod.Lex.toLex_lt_toLex.mp hx with hts | ⟨hts, hid⟩
    · exact Prod.Lex.toLex_le_toLex.mpr (Or.inl hts)
    · exact Prod.Lex.toLex_le_toLex.mpr (Or.inr ⟨hts, Int.lt_add_one_iff.mp hid⟩)

omit [LinearOrder κ] in
/-- **And the route shows each of them**, to whoever asks in the right way. -/
lemma listed_of_sees (hrows : (rows.map (·.id)).Nodup) (hr : r ∈ rows) (h : Sees owners c r) :
    ∃ q page next, listAuditEvents H owners rows c q = .ok (page, next) ∧ r ∈ page := by
  have hask : ∀ q : Query, q.valid = true → 0 < q.limit → ∀ actor,
      actorFilter owners c q = .ok actor →
      auditWhere ((q.filter actor).resolve q.sessionId) r = true →
      ∃ q page next, listAuditEvents H owners rows c q = .ok (page, next) ∧ r ∈ page := by
    intro q hvalid hlimit actor hactor hwhere
    obtain ⟨after, page, next, hlist, hmem⟩ := listAudit_shows (H := H) hrows hr hwhere hlimit
    refine ⟨{ q with after := some after }, page, next, ?_, hmem⟩
    have hactor' : actorFilter owners c { q with after := some after } = .ok actor := hactor
    have hlist' : listAudit H q.sessionId (Query.filter { q with after := some after } actor)
        q.limit rows (some after) = .ok (page, next) := hlist
    have hvalid' : Query.valid { q with after := some after } = true := hvalid
    rw [listAuditEvents, if_neg (by rw [hvalid']; simp), hactor']
    dsimp only
    rw [hlist']
  by_cases hadmin : c.isAdmin = true
  · exact hask {} rfl (by decide) none (by rw [actorFilter, if_pos hadmin])
      (auditWhere_eq_true.mpr (by simp [Query.filter, AuditFilter.resolve]))
  have hself : actorFilter owners c {} = .ok c.apiKeyLabel := by
    rw [actorFilter, if_neg hadmin]
    simp
  rcases h with h | hlabel | hown | ⟨⟨sessionId, hlen, howner⟩, t, i, ht, hi, hlt, hli⟩
  · exact absurd h hadmin
  · exact hask {} rfl (by decide) _ hself
      (auditWhere_eq_true.mpr (by simp [Query.filter, AuditFilter.resolve, hlabel]))
  · exact hask {} rfl (by decide) _ hself
      (auditWhere_eq_true.mpr (by simp [Query.filter, AuditFilter.resolve, ← hown]))
  · refine hask { sessionId := some sessionId, targetType := some t, targetId := some i } ?_
      (Nat.succ_pos 49) none ?_ (auditWhere_eq_true.mpr ?_)
    · simp [Query.valid, hlen, hlt, hli]
    · rw [actorFilter, if_neg hadmin]
      simp [howner]
    · simp [Query.filter, AuditFilter.resolve, ht, hi]

omit [LinearOrder κ] in
/-- **What the audit route shows to whom**: of the rows in the log, over all requests of a caller
and all cursors, exactly those of `Sees`. -/
theorem shown_iff (H : Host σ κ) (owners : Owners)
    (log : UniqueRows fun r : AuditRow σ => r.id) (c : Caller) (r : AuditRow σ) :
    (∃ q page next, listAuditEvents H owners log.rows c q = .ok (page, next) ∧ r ∈ page) ↔
      r ∈ log.rows ∧ Sees owners c r := by
  constructor
  · rintro ⟨q, page, next, hlist, hmem⟩
    exact sees_of_listed hlist hmem
  · rintro ⟨hr, hsees⟩
    exact listed_of_sees log.unique hr hsees

end Sees

end AuditView

end GgRelay
