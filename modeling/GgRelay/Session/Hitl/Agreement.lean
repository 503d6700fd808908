import GgRelay.Session.Hitl.Desk

/-!
Do the runner, the row and the answers agree on a human decision?  The future is completed under one
guard (`future.done`), the row written under another (its version), by callers that differ in what
they persist and in the errors they catch.

* `Desk.Agrees` is the agreement about one request;
* `HitlGuard` names the steps that break it: a callback that wins or meets a decided row, a batch
  decision without a row to update, a single decision under a foreign session, a cancellation over a
  pending row;
* `hitl_agrees`: every run without such a step agrees on every request;
* `webhook_leaves_no_row`: a callback that wins leaves no row at all.
-/

namespace GgRelay.Hitl

/-- The write of this decision leaves the row under the session that owns the request. -/
def Via.Keeps (owner : String) (row : Option HitlRow) : Via → Prop
  | .rest sid _ _ =>
      match row with
      | none => sid = owner
      | some r => r.sessionId = owner
  | .batch _ _ _ _ =>
      match row with
      | none => False
      | some r => r.sessionId = owner
  | .webhook _ _ _ _ => False

lemma Via.Keeps.persists {owner : String} {row : Option HitlRow} {via : Via}
    (h : via.Keeps owner row) : via.Persists := by
  cases via with
  | webhook => exact h.elim
  | _ => trivial

/-- The write leaves the session the decision keeps. -/
lemma Via.Keeps.sessionId {owner : String} {row : Option HitlRow} {via : Via}
    (h : via.Keeps owner row) {pre : Option HitlRow} {v : Option ℕ} {now : Time}
    {res : HitlRow × Option ℕ} (hres : upsertHitl (via.fields pre now) v now row = .ok res) :
    res.1.sessionId = owner := by
  rw [upsertHitl_sessionId hres]
  cases row with
  | some r => cases via <;> first | exact h | exact h.elim
  | none => cases via <;> first | exact h | exact h.elim

namespace Desk

/-- What the call `k` tells its caller about the request, once it has returned. -/
def report (s : Desk) (rid : ReqId) (k : ℕ) : Option Report :=
  match s.calls k with
  | some (.deciding via (.returned r)) => if via.target = rid then some r.report else none
  | some (.cancelled ids) => some (if rid ∈ ids then .success else .conflict)
  | _ => none

/-- The row carries the decision, under the session that owns the request. -/
def Carries (s : Desk) (rid : ReqId) (owner : String) (d : Decision) : Prop :=
  ∃ row, s.rows rid = some row ∧ row.status = d.text ∧ row.sessionId = owner

/-- The agreement about one request. -/
structure Agrees (s : Desk) (rid : ReqId) (q : Request) : Prop where
  one_success : ∀ {k k'}, s.report rid k = some .success → s.report rid k' = some .success →
    k = k'
  /-- Whoever completed the future reports success, everybody else a conflict. -/
  reports : ∀ {k r}, s.report rid k = some r →
    ((∃ v, q.verdict = some (k, v)) ∧ r = .success) ∨
      ((∀ v, q.verdict ≠ some (k, v)) ∧ r = .conflict)
  /-- The runner receives the decision of the call that completed the future. -/
  received : ∀ {v}, q.received = some v → ∃ k, q.verdict = some (k, v) ∧
    ((∃ via p, s.calls k = some (.deciding via p) ∧ via.target = rid ∧ via.verdict = v) ∨
      ∃ ids, s.calls k = some (.cancelled ids) ∧ rid ∈ ids ∧ v.decision = .deny)
  row : ∀ {k v via r}, q.verdict = some (k, v) → s.calls k = some (.deciding via (.returned r)) →
    s.Carries rid q.owner.1 v.decision
  settled : q.received ≠ none →
    (∀ k via p, s.calls k = some (.deciding via p) → via.target = rid → ∃ r, p = .returned r) →
    ∀ row, s.rows rid = some row → row.status ≠ "pending"
  /-- The steps of the others change neither the row nor what the runner gets. -/
  inert : ∀ {l t k}, s.step l = some t → l.call = some k →
    (∀ q' v, t.requests rid = some q' → q'.verdict ≠ some (k, v)) →
    t.rows rid = s.rows rid ∧ t.requests rid = s.requests rid

end Desk

/-- The steps after which the three agree. -/
structure HitlGuard (s : Desk) (l : DeskLabel) : Prop where
  /-- An id is registered once: its `short` is drawn by `uuid4`. -/
  fresh : ∀ rid, l.registers = some rid → s.requests rid = none
  /-- A callback does not meet a decided row. -/
  gate : ∀ k via v pre row, l = .gate k → s.calls k = some (.deciding via (.resolving v pre)) →
    ¬ via.Persists → s.rows via.target = some row → row.status = "pending"
  /-- Who completes a future leaves its row under the owner. -/
  resolve : ∀ k via v pre e q, l = .resolve k → s.calls k = some (.deciding via (.admitted v pre)) →
    s.coord.find via.target = some e → e.future = none → s.requests via.target = some q →
    via.Keeps q.owner.1 (s.rows via.target)
  /-- A cancellation meets no pending row. -/
  cancelAll : ∀ k scope reason rid row, l = .cancelAll k →
    s.calls k = some (.cancelling scope reason) → rid ∈ s.coord.cancelled scope →
    s.rows rid = some row → row.status ≠ "pending"

namespace Desk

variable {s t : Desk} {l : DeskLabel} {rid : ReqId} {k : ℕ}

/-! ### The steps that write, and the calls that are over -/

/-- The rows change by a write of a call that has completed the future. -/
lemma rows_step (h : s.step l = some t) (rid : ReqId) : t.rows rid = s.rows rid ∨
    ∃ k now via v pre res, l = .upsert k now ∧ s.calls k = some (.deciding via (.decided v pre)) ∧
      via.target = rid ∧ upsertHitl (via.fields pre now) v now (s.rows rid) = .ok res ∧
      t.rows rid = some res.1 ∧ t.calls k = some (.deciding via (.returned via.success)) := by
  cases l with
  | upsert k now =>
      rw [step] at h
      split at h
      · rename_i via v pre hk
        split at h
        · cases h
          exact .inl rfl
        · rename_i res hres
          cases h
          by_cases hr : via.target = rid
          · subst hr
            exact .inr ⟨k, now, via, v, pre, res, rfl, hk, rfl, hres, by simp, by simp [setCall]⟩
          · exact .inl (by simp [Ne.symm hr])
      · cases h
  | canUseTool | toolRequest =>
      cases h
      rw [register]
      split <;> exact .inl rfl
  | wake =>
      rw [step] at h
      split at h <;> cases h
      exact .inl rfl
  | abandon | arrive | arriveCancel =>
      simp only [step, Option.ite_none_right_eq_some, Option.some.injEq] at h
      obtain ⟨_, rfl⟩ := h
      exact .inl rfl
  | resolve k =>
      rw [step] at h
      split at h
      · split at h <;> cases h <;> exact .inl rfl
      · cases h
  | readVersion | readRow | gate | fetch | cancelAll =>
      rw [step] at h
      split at h <;> cases h
      exact .inl rfl

/-- All that a step can do to a call. -/
inductive CallFate (s : Desk) (k : ℕ) (t : Desk) : DeskLabel → Prop
  | kept {l' : DeskLabel} : t.calls k = s.calls k → CallFate s k t l'
  | arrived {via : Via} : s.calls k = none → t.calls k = some (.deciding via via.opening) →
      CallFate s k t (.arrive k via)
  | arrivedCancel {scope : Option String} {reason : String} : s.calls k = none →
      t.calls k = some (.cancelling scope reason) → CallFate s k t (.arriveCancel k scope reason)
  | versioned {via : Via} : s.calls k = some (.deciding via .opened) →
      t.calls k = some (.deciding via (.versioned ((s.rows via.target).map (·.version)))) →
      CallFate s k t (.readVersion k)
  | read {via : Via} {v : Option ℕ} : s.calls k = some (.deciding via (.versioned v)) →
      t.calls k = some (.deciding via (.resolving v (s.rows via.target))) →
      CallFate s k t (.readRow k)
  | gated {via : Via} {v : Option ℕ} {pre : Option HitlRow} : s.calls k = some (.deciding via (.resolving v pre)) →
      t.calls k = some (.deciding via (gatePhase via v pre (s.rows via.target))) →
      CallFate s k t (.gate k)
  | lost {via : Via} {v : Option ℕ} {pre : Option HitlRow} {exc : NotPending} :
      s.calls k = some (.deciding via (.admitted v pre)) →
      s.coord.resolve via.target via.verdict = .error exc →
      t.calls k = some (.deciding via (via.refuse (.notPending exc))) → CallFate s k t (.resolve k)
  | won {via : Via} {v : Option ℕ} {pre : Option HitlRow} {c : Coordinator} :
      s.calls k = some (.deciding via (.admitted v pre)) →
      s.coord.resolve via.target via.verdict = .ok c →
      t.requests via.target = (s.requests via.target).map (·.complete k via.verdict) →
      t.calls k = some (.deciding via (via.afterResolve v pre)) → CallFate s k t (.resolve k)
  | stale {via : Via} {v : Option ℕ} {pre : Option HitlRow} {exc : ConcurrencyError} {now : Time} :
      s.calls k = some (.deciding via (.decided v pre)) →
      upsertHitl (via.fields pre now) v now (s.rows via.target) = .error exc →
      t.calls k = some (.deciding via (via.refuse (.concurrency exc))) →
      CallFate s k t (.upsert k now)
  | written {via : Via} {v : Option ℕ} {pre : Option HitlRow} {res : HitlRow × Option ℕ}
      {now : Time} : s.calls k = some (.deciding via (.decided v pre)) →
      upsertHitl (via.fields pre now) v now (s.rows via.target) = .ok res →
      t.rows via.target = some res.1 →
      t.calls k = some (.deciding via (.returned via.success)) → CallFate s k t (.upsert k now)
  | fetched {via : Via} : s.calls k = some (.deciding via .refused) →
      t.calls k = some (.deciding via
        (.returned (conflictResponse via.target (s.rows via.target)))) → CallFate s k t (.fetch k)
  | swept {scope : Option String} {reason : String} : s.calls k = some (.cancelling scope reason) →
      (∀ rid ∈ s.coord.cancelled scope, t.requests rid = (s.requests rid).map
        (·.complete k { decision := .deny, reason := some reason })) →
      t.calls k = some (.cancelled (s.coord.cancelled scope)) → CallFate s k t (.cancelAll k)

/-- **All that a step can do to a call is said by `CallFate`.** -/
theorem callFate (h : s.step l = some t) (k : ℕ) : CallFate s k t l := by
  obtain ⟨k₀, hother⟩ := calls_step h
  by_cases hk : t.calls k = s.calls k
  · exact .kept hk
  cases l with
  | canUseTool | toolRequest =>
      cases h
      refine absurd ?_ hk
      rw [register]
      split <;> rfl
  | wake =>
      rw [step] at h
      split at h <;> cases h
      exact absurd rfl hk
  | abandon =>
      simp only [step, Option.ite_none_right_eq_some, Option.some.injEq] at h
      obtain ⟨_, rfl⟩ := h
      exact absurd rfl hk
  | arrive k' via | arriveCancel k' scope reason =>
      simp only [step, Option.ite_none_right_eq_some, Option.some.injEq] at h
      obtain ⟨hnone, rfl⟩ := h
      obtain rfl : k = k' := by
        by_contra hne
        exact hk (by simp [setCall, hne])
      first
        | exact .arrived hnone (by simp [setCall])
        | exact .arrivedCancel hnone (by simp [setCall])
  | readVersion k' =>
      rw [step] at h
      split at h <;> cases h
      obtain rfl : k = k' := by
        by_contra hne
        exact hk (by simp [setCall, hne])
      exact .versioned ‹_› (by simp [setCall])
  | readRow k' =>
      rw [step] at h
      split at h <;> cases h
      obtain rfl : k = k' := by
        by_contra hne
        exact hk (by simp [setCall, hne])
      exact .read ‹_› (by simp [setCall])
  | gate k' =>
      rw [step] at h
      split at h <;> cases h
      obtain rfl : k = k' := by
        by_contra hne
        exact hk (by simp [setCall, hne])
      exact .gated ‹_› (by simp [setCall])
  | resolve k' =>
      rw [step] at h
      split at h
      · split at h <;> cases h
        all_goals
          obtain rfl : k = k' := by
            by_contra hne
            exact hk (by simp [setCall, hne])
        · exact .lost ‹_› ‹_› (by simp [setCall])
        · exact .won ‹_› ‹_› (by simp) (by simp [setCall])
      · cases h
  | upsert k' now =>
      rw [step] at h
      split at h
      · split at h <;> cases h
        all_goals
          obtain rfl : k = k' := by
            by_contra hne
            exact hk (by simp [setCall, hne])
        · exact .stale ‹_› ‹_› (by simp [setCall])
        · exact .written ‹_› ‹_› (by simp) (by simp [setCall])
      · cases h
  | fetch k' =>
      rw [step] at h
      split at h <;> cases h
      obtain rfl : k = k' := by
        by_contra hne
        exact hk (by simp [setCall, hne])
      exact .fetched ‹_› (by simp [setCall])
  | cancelAll k' =>
      rw [step] at h
      split at h <;> cases h
      obtain rfl : k = k' := by
        by_contra hne
        exact hk (by simp [cancelAll, hne])
      exact .swept ‹_› (fun rid hmem => by simp [cancelAll, hmem]) (by simp [cancelAll])

/-- A call that has returned does not move. -/
lemma calls_of_returned (h : s.step l = some t) {via : Via} {r : Response}
    (hk : s.calls k = some (.deciding via (.returned r))) : t.calls k = s.calls k := by
  cases callFate h k with
  | kept hkept => exact hkept
  | arrived hk' | arrivedCancel hk' | versioned hk' | read hk' | gated hk' | lost hk' | won hk'
  | stale hk' | written hk' | fetched hk' | swept hk' =>
      rw [hk] at hk'
      cases hk'

lemma calls_of_cancelled (h : s.step l = some t) {ids : List ReqId}
    (hk : s.calls k = some (.cancelled ids)) : t.calls k = s.calls k := by
  cases callFate h k with
  | kept hkept => exact hkept
  | arrived hk' | arrivedCancel hk' | versioned hk' | read hk' | gated hk' | lost hk' | won hk'
  | stale hk' | written hk' | fetched hk' | swept hk' =>
      rw [hk] at hk'
      cases hk'

/-! ### The invariant -/

/-- Nobody has completed the future yet. -/
def Undecided (s : Desk) (rid : ReqId) : Prop := ∀ q, s.requests rid = some q → q.verdict = none

/-- Where the call that completed the future of a request is. -/
inductive Won (s : Desk) (rid : ReqId) (q : Request) (k : ℕ) (v : Verdict) : Prop
  | deciding {via : Via} {v₀ : Option ℕ} {pre : Option HitlRow} :
      s.calls k = some (.deciding via (.decided v₀ pre)) → via.target = rid → via.verdict = v →
      v₀ = (s.rows rid).map (·.version) → via.Keeps q.owner.1 (s.rows rid) → Won s rid q k v
  | returned {via : Via} {r : Response} :
      s.calls k = some (.deciding via (.returned r)) → via.target = rid → via.verdict = v →
      r.report = .success → s.Carries rid q.owner.1 v.decision → Won s rid q k v
  | cancelled {ids : List ReqId} : s.calls k = some (.cancelled ids) → rid ∈ ids →
      v.decision = .deny → (∀ row, s.rows rid = some row → row.status ≠ "pending") →
      Won s rid q k v

/-- What a call knows: the version it read is still that of the row as long as nobody decided, and
it has decided or lost. -/
def CallOk (s : Desk) (k : ℕ) : DeskCall → Prop
  | .deciding via (.versioned v) =>
      s.Undecided via.target → v = (s.rows via.target).map (·.version)
  | .deciding via (.resolving v _) | .deciding via (.admitted v _) =>
      via.Persists → s.Undecided via.target → v = (s.rows via.target).map (·.version)
  | .deciding via (.decided _ _) =>
      ∃ q, s.requests via.target = some q ∧ q.verdict = some (k, via.verdict)
  | .deciding via (.returned r) =>
      r.report = .conflict ∨ ∃ q, s.requests via.target = some q ∧ q.verdict = some (k, via.verdict)
  | .cancelled ids => ∀ rid ∈ ids, ∃ q v, s.requests rid = some q ∧ q.verdict = some (k, v)
  | _ => True

structure DeskInv (s : Desk) : Prop where
  entry : ∀ {rid e}, s.coord.find rid = some e →
    ∃ q, s.requests rid = some q ∧ e.future = q.verdict.map (·.2)
  received : ∀ {rid q v}, s.requests rid = some q → q.received = some v →
    ∃ k, q.verdict = some (k, v)
  won : ∀ {rid q k v}, s.requests rid = some q → q.verdict = some (k, v) → s.Won rid q k v
  call : ∀ {k c}, s.calls k = some c → s.CallOk k c

namespace DeskInv

variable {q : Request} {v : Verdict}

lemma undecided_of_entry (hi : s.DeskInv) {e : PendingEntry} (he : s.coord.find rid = some e)
    (hun : e.future = none) : s.Undecided rid := by
  intro q hq
  obtain ⟨q', hq', hf⟩ := hi.entry he
  obtain rfl : q' = q := Option.some.inj (hq'.symm.trans hq)
  rw [hun] at hf
  exact Option.map_eq_none_iff.mp hf.symm

lemma entry_step (hi : s.DeskInv) (h : s.step l = some t) {e : PendingEntry}
    (he : t.coord.find rid = some e) :
    ∃ q, t.requests rid = some q ∧ e.future = q.verdict.map (·.2) := by
  cases fate h rid with
  | kept hfind hreq =>
      rw [hreq]
      exact hi.entry (hfind ▸ he)
  | registered o sid tool args _ _ hfind hreq =>
      rw [hfind] at he
      cases he
      exact ⟨_, hreq, rfl⟩
  | received _ _ _ _ _ hfind | dropped _ hfind =>
      rw [hfind] at he
      cases he
  | decided k _ _ e' v _ _ _ _ he' _ hfind hreq =>
      rw [hfind] at he
      cases he
      obtain ⟨q, hq, _⟩ := hi.entry he'
      exact ⟨q.complete k v, by rw [hreq, hq]; rfl, rfl⟩

/-- Whoever has completed a future stays the one who did. -/
lemma verdict_step (hi : s.DeskInv) (hg : HitlGuard s l) (h : s.step l = some t)
    (hq : s.requests rid = some q) {w : ℕ × Verdict} (hw : q.verdict = some w) :
    ∃ q', t.requests rid = some q' ∧ q'.verdict = some w ∧ q'.owner = q.owner := by
  cases fate h rid with
  | kept _ hreq | dropped _ _ hreq => exact ⟨q, hreq.trans hq, hw, rfl⟩
  | registered _ _ _ _ hl =>
      rw [hg.fresh rid hl] at hq
      cases hq
  | received e v _ _ _ _ hreq => exact ⟨q.receive v, by rw [hreq, hq]; rfl, hw, rfl⟩
  | decided k _ _ e v _ _ _ _ he hun =>
      rw [hi.undecided_of_entry he hun q hq] at hw
      cases hw

lemma undecided_of_step (hi : s.DeskInv) (hg : HitlGuard s l) (h : s.step l = some t)
    (hun : t.Undecided rid) : s.Undecided rid := by
  intro q hq
  cases hw : q.verdict with
  | none => rfl
  | some w =>
      obtain ⟨q', hq', hw', _⟩ := hi.verdict_step hg h hq hw
      rw [hun q' hq'] at hw'
      cases hw'

/-- Nobody writes the row of a request before it is decided. -/
lemma rows_of_undecided (hi : s.DeskInv) (h : s.step l = some t) (hun : s.Undecided rid) :
    t.rows rid = s.rows rid := by
  rcases rows_step h rid with hr | ⟨k, now, via, v, pre, res, _, hk, htarget, _⟩
  · exact hr
  · obtain ⟨q, hq, hw⟩ := hi.call hk
    rw [hun q (htarget ▸ hq)] at hw
    cases hw

/-- Only the call that completed the future writes the row of a decided request. -/
lemma rows_of_winner (hi : s.DeskInv) (h : s.step l = some t) (hq : s.requests rid = some q)
    (hw : q.verdict = some (k, v)) (hk : t.calls k = s.calls k) : t.rows rid = s.rows rid := by
  rcases rows_step h rid with hr | ⟨k', now, via, v', pre, res, _, hk', htarget, _, _, hret⟩
  · exact hr
  · obtain ⟨q', hq', hw'⟩ := hi.call hk'
    rw [htarget, hq] at hq'
    cases hq'
    rw [hw] at hw'
    cases hw'
    rw [hk, hk'] at hret
    cases hret

lemma received_step (hi : s.DeskInv) (h : s.step l = some t) (hq : t.requests rid = some q)
    (hr : q.received = some v) : ∃ k, q.verdict = some (k, v) := by
  cases fate h rid with
  | kept _ hreq | dropped _ _ hreq => exact hi.received (hreq ▸ hq) hr
  | registered o sid tool args _ _ _ hreq =>
      rw [hreq] at hq
      cases hq
      cases hr
  | received e v' _ he hv _ hreq =>
      obtain ⟨q', hq', hf⟩ := hi.entry he
      rw [hreq, hq'] at hq
      cases hq
      cases hr
      rw [hv] at hf
      obtain ⟨⟨k, v'⟩, hw, rfl⟩ := Option.map_eq_some_iff.mp hf.symm
      exact ⟨k, hw⟩
  | decided k _ _ e v' _ _ _ _ he hun _ hreq =>
      obtain ⟨q', hq', _⟩ := hi.entry he
      rw [hreq, hq'] at hq
      cases hq
      obtain ⟨k', hw⟩ := hi.received hq' hr
      rw [hi.undecided_of_entry he hun q' hq'] at hw
      cases hw

/-- The call that completed the future goes on to write the row, and returns. -/
lemma won_keeps (hi : s.DeskInv) (h : s.step l = some t) (hq : s.requests rid = some q)
    (hw : q.verdict = some (k, v)) {q' : Request} (howner : q'.owner = q.owner) :
    t.Won rid q' k v := by
  cases hi.won hq hw with
  | deciding hk htarget hv hver hkeeps =>
      cases callFate h k with
      | kept hkept =>
          have hrows := hi.rows_of_winner h hq hw hkept
          exact .deciding (hkept.trans hk) htarget hv (by rw [hrows, hver])
            (by rw [hrows, howner]; exact hkeeps)
      | stale hk' hres =>
          rw [hk] at hk'
          cases hk'
          rw [htarget, hver] at hres
          obtain ⟨res, hok⟩ := upsertHitl_of_version _ _ _
          rw [hok] at hres
          cases hres
      | written hk' hres hrow hret =>
          rw [hk] at hk'
          cases hk'
          rw [htarget] at hres hrow
          refine .returned hret htarget hv (Via.success_report _) ⟨_, hrow, ?_, ?_⟩
          · rw [upsertHitl_status hres, Via.fields_status, hv]
          · rw [howner]
            exact hkeeps.sessionId hres
      | arrived hk' | arrivedCancel hk' | versioned hk' | read hk' | gated hk' | lost hk'
      | won hk' | fetched hk' | swept hk' =>
          rw [hk] at hk'
          cases hk'
  | returned hk htarget hv hreport hcarries =>
      have hkept := calls_of_returned h hk
      have hrows := hi.rows_of_winner h hq hw hkept
      refine .returned (hkept.trans hk) htarget hv hreport ?_
      rw [Carries, hrows, howner]
      exact hcarries
  | cancelled hk hmem hdeny hrow =>
      have hkept := calls_of_cancelled h hk
      have hrows := hi.rows_of_winner h hq hw hkept
      exact .cancelled (hkept.trans hk) hmem hdeny (by rw [hrows]; exact hrow)

lemma won_step (hi : s.DeskInv) (hg : HitlGuard s l) (h : s.step l = some t)
    (hq : t.requests rid = some q) (hw : q.verdict = some (k, v)) : t.Won rid q k v := by
  cases fate h rid with
  | kept _ hreq | dropped _ _ hreq => exact hi.won_keeps h (hreq ▸ hq) hw rfl
  | registered o sid tool args _ _ _ hreq =>
      rw [hreq] at hq
      cases hq
      cases hw
  | received e v' _ he _ _ hreq =>
      obtain ⟨q', hq', _⟩ := hi.entry he
      rw [hreq, hq'] at hq
      cases hq
      exact hi.won_keeps h hq' hw rfl
  | decided k' c c' e v' hl hdec hk hk' he hun _ hreq =>
      obtain ⟨q', hq', _⟩ := hi.entry he
      rw [hreq, hq'] at hq
      cases hq
      cases hw
      have hrows := hi.rows_of_undecided h (hi.undecided_of_entry he hun)
      cases hdec with
      | @resolve _ via v₀ pre htarget =>
          cases hl
          have hkeeps := hg.resolve _ _ _ _ _ _ rfl hk (htarget ▸ he) hun (htarget ▸ hq')
          have hp : via.afterResolve v₀ pre = .decided v₀ pre := by
            cases via with
            | webhook => exact hkeeps.persists.elim
            | _ => rfl
          rw [hp] at hk'
          have hver := hi.call hk hkeeps.persists (htarget ▸ hi.undecided_of_entry he hun)
          refine .deciding hk' htarget rfl ?_ ?_
          · rw [hrows, hver, htarget]
          · rw [hrows, ← htarget]
            exact hkeeps
      | cancel hmem =>
          cases hl
          refine .cancelled hk' hmem rfl ?_
          rw [hrows]
          exact fun row => hg.cancelAll _ _ _ _ row rfl hk hmem

/-- What a call knows stays true while others move. -/
lemma callOk_mono (hi : s.DeskInv) (hg : HitlGuard s l) (h : s.step l = some t) {c : DeskCall}
    (hc : s.CallOk k c) : t.CallOk k c := by
  have hver : ∀ {rid : ReqId} {v : Option ℕ},
      (s.Undecided rid → v = (s.rows rid).map (·.version)) →
        t.Undecided rid → v = (t.rows rid).map (·.version) := by
    intro rid v hv hun
    have hs := hi.undecided_of_step hg h hun
    rw [hi.rows_of_undecided h hs]
    exact hv hs
  have hwin : ∀ {rid : ReqId} {w : ℕ × Verdict},
      (∃ q, s.requests rid = some q ∧ q.verdict = some w) →
        ∃ q, t.requests rid = some q ∧ q.verdict = some w := by
    rintro rid w ⟨q, hq, hw⟩
    obtain ⟨q', hq', hw', _⟩ := hi.verdict_step hg h hq hw
    exact ⟨q', hq', hw'⟩
  cases c with
  | deciding via phase =>
      cases phase with
      | versioned v => exact hver hc
      | resolving v pre | admitted v pre => exact fun hp => hver (hc hp)
      | decided v pre => exact hwin hc
      | returned r => exact hc.imp id hwin
      | opened | refused => trivial
  | cancelling scope reason => trivial
  | cancelled ids =>
      intro rid hmem
      obtain ⟨q, v, hq, hw⟩ := hc rid hmem
      obtain ⟨q', hq', hw', _⟩ := hi.verdict_step hg h hq hw
      exact ⟨q', v, hq', hw'⟩

/-- A refused decision has lost. -/
lemma callOk_refuse {via : Via} {why : Refusal}
    (hwhy : via.Persists ∨ ∃ exc, why = .notPending exc) :
    t.CallOk k (.deciding via (via.refuse why)) := by
  cases hp : via.refuse why with
  | returned r => exact .inl (via.refuse_report hwhy hp)
  | refused => trivial
  | _ => cases via <;> cases why <;> cases hp

lemma call_step (hi : s.DeskInv) (hg : HitlGuard s l) (h : s.step l = some t) {c : DeskCall}
    (hc : t.calls k = some c) : t.CallOk k c := by
  have hstep := callFate h k
  cases hstep with
  | kept hkept => exact hi.callOk_mono hg h (hi.call (hkept ▸ hc))
  | @arrived via _ hk =>
      rw [hk] at hc
      cases hc
      cases via with
      | webhook => exact fun hp => hp.elim
      | _ => trivial
  | arrivedCancel _ hk =>
      rw [hk] at hc
      cases hc
      trivial
  | versioned _ hk =>
      rw [hk] at hc
      cases hc
      intro hun
      rw [hi.rows_of_undecided h (hi.undecided_of_step hg h hun)]
  | read hk' hk =>
      rw [hk] at hc
      cases hc
      exact fun _ => hi.callOk_mono hg h (hi.call hk')
  | @gated via v pre hk' hk =>
      rw [hk] at hc
      cases hc
      have hok := hi.callOk_mono hg h (hi.call hk')
      unfold gatePhase
      split
      · exact hok
      · rename_i row hrow
        split
        · rename_i hst
          refine callOk_refuse (.inl ?_)
          by_contra hp
          exact hst (hg.gate _ _ _ _ _ rfl hk' hp hrow)
        · exact hok
  | lost _ _ hk =>
      rw [hk] at hc
      cases hc
      exact callOk_refuse (.inr ⟨_, rfl⟩)
  | @won via v pre c' hk' hres hreq hk =>
      obtain ⟨e, he, hun⟩ := Coordinator.resolve_isOk_iff.mp ⟨c', hres⟩
      obtain ⟨q, hq, _⟩ := hi.entry he
      have hwin : ∃ q', t.requests via.target = some q' ∧ q'.verdict = some (k, via.verdict) :=
        ⟨q.complete k via.verdict, by rw [hreq, hq]; rfl, rfl⟩
      rw [hk] at hc
      cases hc
      cases via with
      | webhook => exact .inr hwin
      | _ => exact hwin
  | stale hk' hres hk =>
      obtain ⟨q, hq, hw⟩ := hi.call hk'
      cases hi.won hq hw with
      | deciding hk'' _ _ hver =>
          rw [hk'] at hk''
          cases hk''
          rw [hver] at hres
          obtain ⟨res, hok⟩ := upsertHitl_of_version _ _ _
          rw [hok] at hres
          cases hres
      | returned hk'' | cancelled hk'' =>
          rw [hk'] at hk''
          cases hk''
  | written hk' _ _ hk =>
      rw [hk] at hc
      cases hc
      obtain ⟨q, hq, hw⟩ := hi.callOk_mono hg h (hi.call hk')
      exact .inr ⟨q, hq, hw⟩
  | fetched _ hk =>
      rw [hk] at hc
      cases hc
      exact .inl rfl
  | swept hk' hreq hk =>
      rw [hk] at hc
      cases hc
      intro rid hmem
      obtain ⟨e, he, hin⟩ := Coordinator.mem_cancelled_iff.mp hmem
      obtain ⟨q, hq, _⟩ := hi.entry he
      exact ⟨q.complete k _, _, by rw [hreq rid hmem, hq]; rfl, rfl⟩

theorem step (hi : s.DeskInv) (hg : HitlGuard s l) (h : s.step l = some t) : t.DeskInv where
  entry := hi.entry_step h
  received := hi.received_step h
  won := hi.won_step hg h
  call := hi.call_step hg h

/-! ### What the invariant says to the callers -/

/-- A call that reports about a request either completed its future or lost. -/
lemma reports (hi : s.DeskInv) (hq : s.requests rid = some q) {r : Report}
    (hr : s.report rid k = some r) :
    ((∃ v, q.verdict = some (k, v)) ∧ r = .success) ∨
      ((∀ v, q.verdict ≠ some (k, v)) ∧ r = .conflict) := by
  rw [report] at hr
  split at hr
  · rename_i via resp hk
    split at hr
    · rename_i htarget
      cases hr
      by_cases hw : ∃ v, q.verdict = some (k, v)
      · obtain ⟨v, hw⟩ := hw
        refine .inl ⟨⟨v, hw⟩, ?_⟩
        cases hi.won hq hw with
        | returned hk' _ _ hreport =>
            rw [hk] at hk'
            cases hk'
            exact hreport
        | deciding hk' | cancelled hk' =>
            rw [hk] at hk'
            cases hk'
      · refine .inr ⟨fun v hv => hw ⟨v, hv⟩, ?_⟩
        rcases hi.call hk with hconf | ⟨q', hq', hw'⟩
        · exact hconf
        · rw [htarget, hq] at hq'
          cases hq'
          exact absurd ⟨_, hw'⟩ hw
    · cases hr
  · rename_i ids hk
    cases hr
    by_cases hmem : rid ∈ ids
    · obtain ⟨q', v, hq', hw⟩ := hi.call hk rid hmem
      rw [hq] at hq'
      cases hq'
      exact .inl ⟨⟨v, hw⟩, if_pos hmem⟩
    · refine .inr ⟨fun v hw => ?_, if_neg hmem⟩
      cases hi.won hq hw with
      | cancelled hk' hmem' =>
          rw [hk] at hk'
          cases hk'
          exact hmem hmem'
      | deciding hk' | returned hk' =>
          rw [hk] at hk'
          cases hk'
  · cases hr

/-- A call that has not completed the future changes neither the row nor the request. -/
lemma inert (hi : s.DeskInv) (hq : s.requests rid = some q)
    (h : s.step l = some t) (hl : l.call = some k)
    (hlost : ∀ q' v, t.requests rid = some q' → q'.verdict ≠ some (k, v)) :
    t.rows rid = s.rows rid ∧ t.requests rid = s.requests rid := by
  have hreq : t.requests rid = s.requests rid := by
    cases fate h rid with
    | kept _ hreq | dropped _ _ hreq => exact hreq
    | registered _ _ _ _ hreg =>
        rw [DeskLabel.registers_of_call hl] at hreg
        cases hreg
    | received _ _ hnone =>
        rw [hl] at hnone
        cases hnone
    | decided k' _ _ e v hl' _ _ _ _ _ _ hreq =>
        rw [hl] at hl'
        cases hl'
        rw [hq] at hreq
        exact absurd rfl (hlost _ v hreq)
  refine ⟨?_, hreq⟩
  rcases rows_step h rid with hr | ⟨k', now, via, v, pre, res, rfl, hk, htarget, _⟩
  · exact hr
  · cases hl
    obtain ⟨q', hq', hw⟩ := hi.call hk
    rw [htarget, ← hreq] at hq'
    exact absurd hw (hlost _ _ hq')

theorem agrees (hi : s.DeskInv) (hq : s.requests rid = some q) : s.Agrees rid q where
  one_success {k k'} hk hk' := by
    rcases hi.reports hq hk with ⟨⟨v, hv⟩, _⟩ | ⟨_, hr⟩
    · rcases hi.reports hq hk' with ⟨⟨v', hv'⟩, _⟩ | ⟨_, hr⟩
      · rw [hv] at hv'
        cases hv'
        rfl
      · cases hr
    · cases hr
  reports := hi.reports hq
  received hr := by
    obtain ⟨k, hw⟩ := hi.received hq hr
    refine ⟨k, hw, ?_⟩
    cases hi.won hq hw with
    | deciding hk htarget hv => exact .inl ⟨_, _, hk, htarget, hv⟩
    | returned hk htarget hv => exact .inl ⟨_, _, hk, htarget, hv⟩
    | cancelled hk hmem hdeny => exact .inr ⟨_, hk, hmem, hdeny⟩
  row hw hk := by
    cases hi.won hq hw with
    | returned _ _ _ _ hcarries => exact hcarries
    | deciding hk' | cancelled hk' =>
        rw [hk] at hk'
        cases hk'
  settled hr hret row hrow := by
    obtain ⟨v, hv⟩ := Option.ne_none_iff_exists'.mp hr
    obtain ⟨k, hw⟩ := hi.received hq hv
    cases hi.won hq hw with
    | deciding hk htarget =>
        obtain ⟨r, hr⟩ := hret _ _ _ hk htarget
        cases hr
    | returned _ _ _ _ hcarries =>
        obtain ⟨row', hrow', hst, _⟩ := hcarries
        rw [hrow] at hrow'
        cases hrow'
        rw [hst]
        exact Decision.text_ne_pending _
    | cancelled _ _ _ hpend => exact hpend row hrow
  inert h hl hlost := hi.inert hq h hl hlost

end DeskInv

lemma deskInv_of_reachable (hs : deskSystem.ReachableVia HitlGuard s) : s.DeskInv := by
  refine hs.invariant (I := DeskInv) (fun s (h : deskSystem.init s) => ?_)
    fun s l t hi hg h => hi.step hg h
  obtain ⟨hcoord, hcalls, hreqs⟩ := h
  exact
    { entry := fun he => by
        rw [hcoord] at he
        cases he
      received := fun hq => by
        rw [hreqs] at hq
        cases hq
      won := fun hq => by
        rw [hreqs] at hq
        cases hq
      call := fun hc => by
        rw [hcalls] at hc
        cases hc }

end Desk

open Desk

/-- **In every run whose steps meet the guard, the runner, the row and the answers agree on every
request.** -/
theorem hitl_agrees {s : Desk} (hs : deskSystem.ReachableVia HitlGuard s) {rid : ReqId}
    {q : Request} (hq : s.requests rid = some q) : s.Agrees rid q :=
  (deskInv_of_reachable hs).agrees hq

/-- A request of session `s1`, decided through its own path while its runner waits. -/
def postedRun : List DeskLabel :=
  [.canUseTool ⟨"s1", by decide⟩ "ab" "Bash" "{}",
    .arrive 0 (.rest "s1" "ab" { decision := .accept, resolver := some "bob" }),
    .readVersion 0, .readRow 0, .gate 0, .resolve 0, .wake "s1:ab", .upsert 0 9]

/-- The same request, decided by a Feishu card. -/
def cardRun : List DeskLabel :=
  [.canUseTool ⟨"s1", by decide⟩ "ab" "Bash" "{}", .arrive 0 (.webhook "s1" "ab" .accept "ou_1"),
    .gate 0, .resolve 0, .wake "s1:ab"]

/-- A decision through the single route leaves runner, row and answer in agreement. -/
theorem hitl_agrees_of_post :
    ∃ s q, deskSystem.run {} postedRun = some s ∧ s.requests "s1:ab" = some q ∧
      q.received = some { decision := .accept, reason := some "by:bob" } ∧
      s.report "s1:ab" 0 = some .success ∧ s.Agrees "s1:ab" q := by
  have plain : ∀ {s l}, l.registers = none → (∀ k, l ≠ .gate k) → (∀ k, l ≠ .resolve k) →
      (∀ k, l ≠ .cancelAll k) → HitlGuard s l := fun hreg hg hr hc =>
    { fresh := fun _ h => by
        rw [hreg] at h
        cases h
      gate := fun k _ _ _ _ h => absurd h (hg k)
      resolve := fun k _ _ _ _ _ h => absurd h (hr k)
      cancelAll := fun k _ _ _ _ h => absurd h (hc k) }
  have h0 : deskSystem.ReachableVia HitlGuard {} := .init ⟨rfl, fun _ => rfl, fun _ => rfl⟩
  have h1 := h0.step (l := DeskLabel.canUseTool ⟨"s1", by decide⟩ "ab" "Bash" "{}")
    ⟨fun _ _ => rfl, fun _ _ _ _ _ h => (by cases h), fun _ _ _ _ _ _ h => (by cases h),
      fun _ _ _ _ _ h => (by cases h)⟩ rfl
  have h2 := h1.step
    (l := DeskLabel.arrive 0 (.rest "s1" "ab" { decision := .accept, resolver := some "bob" }))
    (plain rfl (by simp) (by simp) (by simp)) rfl
  have h3 := h2.step (l := DeskLabel.readVersion 0) (plain rfl (by simp) (by simp) (by simp)) rfl
  have h4 := h3.step (l := DeskLabel.readRow 0) (plain rfl (by simp) (by simp) (by simp)) rfl
  have h5 := h4.step (l := DeskLabel.gate 0)
    ⟨fun _ h => (by cases h), fun k via v pre row h hk hp => (by
        cases h
        cases hk
        exact absurd trivial hp), fun _ _ _ _ _ _ h => (by cases h),
      fun _ _ _ _ _ h => (by cases h)⟩ rfl
  have h6 := h5.step (l := DeskLabel.resolve 0)
    ⟨fun _ h => (by cases h), fun _ _ _ _ _ h => (by cases h),
      fun k via v pre e q h hk he hun hq => (by
        cases h
        cases hk
        cases hq
        rfl), fun _ _ _ _ _ h => (by cases h)⟩ rfl
  have h7 := h6.step (l := DeskLabel.wake "s1:ab") (plain rfl (by simp) (by simp) (by simp)) rfl
  have h8 := h7.step (l := DeskLabel.upsert 0 9) (plain rfl (by simp) (by simp) (by simp)) rfl
  exact ⟨_, _, rfl, rfl, rfl, rfl, hitl_agrees h8 rfl⟩

/-- **A card that wins leaves no row.** -/
theorem webhook_leaves_no_row :
    ∃ s q, deskSystem.run {} cardRun = some s ∧ deskSystem.Reachable s ∧
      s.requests "s1:ab" = some q ∧
      q.received = some { decision := .accept, reason := some "im_approval:feishu:ou_1" } ∧
      s.report "s1:ab" 0 = some .success ∧ s.rows "s1:ab" = none ∧ ¬ s.Agrees "s1:ab" q := by
  have hreach : deskSystem.Reachable {} := .init ⟨rfl, fun _ => rfl, fun _ => rfl⟩
  obtain ⟨s, hs⟩ : ∃ s, deskSystem.run {} cardRun = some s := ⟨_, rfl⟩
  obtain ⟨q, hq⟩ : ∃ q, s.requests "s1:ab" = some q := by
    cases hs
    exact ⟨_, rfl⟩
  have hverdict : ∃ v, q.verdict = some (0, v) := by
    cases hs
    cases hq
    exact ⟨_, rfl⟩
  have hcall : ∃ via r, s.calls 0 = some (.deciding via (.returned r)) := by
    cases hs
    exact ⟨_, _, rfl⟩
  have hrow : s.rows "s1:ab" = none := by
    cases hs
    rfl
  refine ⟨s, q, hs, hreach.of_run hs, hq, ?_, ?_, hrow, fun h => ?_⟩
  · cases hs
    cases hq
    rfl
  · cases hs
    rfl
  · obtain ⟨v, hv⟩ := hverdict
    obtain ⟨via, r, hk⟩ := hcall
    obtain ⟨row, hrow', _⟩ := h.row hv hk
    rw [hrow] at hrow'
    cases hrow'

end GgRelay.Hitl
