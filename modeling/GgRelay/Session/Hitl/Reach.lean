import GgRelay.Session.Hitl.Desk

/-!
Is a registered request reachable through the API of its session?  The id is built by the runner,
perhaps carried by a frame, registered with or without a session, and taken apart again by the
router and by `cancel_all`.

* `Desk.Reaches sid rid`: the pending list of `sid` shows the request, posting the listed id under
  `sid` decides it, cancelling `sid` denies it, and none of this touches another session;
* `hitl_reachable_iff`: that is so for the requests registered in process, as long as the table has
  no decision under their id, and for no request that came over the wire.
-/

namespace GgRelay.Hitl

namespace Desk

/-- `POST /sessions/{sid}/hitl/{rid}`, from its arrival to its answer. -/
def postRun (k : ℕ) (sid rid : String) (body : ResolveBody) (now : Time) : List DeskLabel :=
  [.arrive k (.rest sid rid body), .readVersion k, .readRow k, .gate k, .resolve k, .upsert k now]

/-- The coordinator's part of `SessionManager.cancel`. -/
def cancelRun (k : ℕ) (sid reason : String) : List DeskLabel :=
  [.arriveCancel k (some sid) ("cancel:" ++ reason), .cancelAll k]

/-- The pending list of `sid` shows `rid`. -/
def Lists (s : Desk) (sid rid : String) : Prop :=
  ∃ x ∈ s.coord.pendingSnapshot (some sid), x.reqId = rid

/-- The API of the session `sid` reaches the request `rid`, and no request of another session. -/
structure Reaches (s : Desk) (sid : String) (rid : ReqId) : Prop where
  listed : s.Lists sid rid
  posted : ∀ k body now, s.calls k = none →
    ∃ t, deskSystem.run s (postRun k sid rid body now) = some t ∧
      t.calls k = some (.deciding (.rest sid rid body)
        (.returned (.recorded body.decision.text rid))) ∧
      t.coord.find rid = (s.coord.find rid).map (·.complete (Via.rest sid rid body).verdict) ∧
      ∀ r, r ≠ rid → t.coord.find r = s.coord.find r
  cancelled : ∀ k reason, s.calls k = none →
    ∃ t, deskSystem.run s (cancelRun k sid reason) = some t ∧
      t.coord.find rid = (s.coord.find rid).map
        (·.complete { decision := .deny, reason := some ("cancel:" ++ reason) })
  isolated : ∀ r q, s.requests r = some q → q.owner.1 ≠ sid → ¬ s.Lists sid r ∧
    ∀ k reason t, deskSystem.run s (cancelRun k sid reason) = some t →
      t.coord.find r = s.coord.find r

/-! ### Where the entries come from -/

/-- An entry is tagged by the code that registered it. -/
def Tagged (s : Desk) : Prop := ∀ rid e, s.coord.find rid = some e →
  ∃ q, s.requests rid = some q ∧ e.sessionId = q.origin.tag q.owner ∧
    (q.origin = .canUseTool → ':' ∈ rid.toList)

lemma tagged_step {s t : Desk} {l : DeskLabel} (hi : s.Tagged) (h : s.step l = some t) :
    t.Tagged := by
  intro rid e he
  cases fate h rid with
  | kept hfind hreq =>
      rw [hreq]
      exact hi rid e (hfind ▸ he)
  | registered o sid tool args _ _ hfind hreq hid =>
      rw [hfind] at he
      cases he
      exact ⟨_, hreq, rfl, hid⟩
  | received _ _ _ _ _ hfind | dropped _ hfind =>
      rw [hfind] at he
      cases he
  | decided k _ _ e' v _ _ _ _ he' _ hfind hreq =>
      rw [hfind] at he
      cases he
      obtain ⟨q, hq, htag, hid⟩ := hi rid e' he'
      exact ⟨q.complete k v, by rw [hreq, hq]; rfl, htag, hid⟩

lemma tagged_of_reachable {s : Desk} (hs : deskSystem.Reachable s) : s.Tagged := by
  refine hs.invariant (I := Tagged) (fun s h rid e he => ?_) fun s l t hi _ h => tagged_step hi h
  rw [h.1] at he
  cases he

/-- The calls that have arrived are finitely many. -/
def Bounded (s : Desk) : Prop := ∃ n, ∀ k, n ≤ k → s.calls k = none

/-- There is always room for one more call. -/
lemma bounded_of_reachable {s : Desk} (hs : deskSystem.Reachable s) : s.Bounded := by
  refine hs.invariant (I := Bounded) (fun s (h : deskSystem.init s) => ⟨0, fun k _ => h.2.1 k⟩) ?_
  rintro s l t ⟨n, hn⟩ _ h
  obtain ⟨k, hk⟩ := calls_step h
  refine ⟨max n (k + 1), fun k' hle => ?_⟩
  rw [hk k' (by omega)]
  exact hn k' (by omega)

variable {s : Desk} {rid : ReqId} {q : Request} {e : PendingEntry}

/-- The pending list of a session shows the undecided entries that carry its tag. -/
lemma lists_iff {sid : String} :
    s.Lists sid rid ↔ ∃ e, s.coord.find rid = some e ∧ e.future = none ∧ e.sessionId = sid := by
  constructor
  · rintro ⟨x, hx, rfl⟩
    obtain ⟨e, he, hin, _⟩ := Coordinator.mem_pendingSnapshot_iff.mp hx
    obtain ⟨hun, htag⟩ := e.inScope_some_iff.mp hin
    exact ⟨e, he, hun, htag⟩
  · rintro ⟨e, he, hun, htag⟩
    refine ⟨⟨rid, e.tool, e.args, e.sessionId⟩, ?_, rfl⟩
    exact Coordinator.mem_pendingSnapshot_iff.mpr
      ⟨e, he, e.inScope_some_iff.mpr ⟨hun, htag⟩, rfl, rfl, rfl⟩

lemma cancelRun_eq {k : ℕ} {sid reason : String} (hk : s.calls k = none) :
    deskSystem.run s (cancelRun k sid reason) = some
      ((s.setCall k (.cancelling (some sid) ("cancel:" ++ reason))).cancelAll k (some sid)
        ("cancel:" ++ reason)) := by
  simp [cancelRun, System.run, deskSystem, step, hk, setCall]

/-- A session's pending list, and its cancellation, see no request of another session. -/
lemma isolated (ht : s.Tagged) {sid : SessionId} {r : ReqId} (hq : s.requests r = some q)
    (hne : q.owner.1 ≠ sid.1) (he : s.coord.find r = some e) : e.sessionId ≠ sid.1 := by
  obtain ⟨q', hq', htag, _⟩ := ht r e he
  obtain rfl : q' = q := Option.some.inj (hq'.symm.trans hq)
  rw [htag]
  cases q'.origin with
  | canUseTool => exact hne
  | handleToolRequest => exact fun h => sid.2 h.symm

/-- The single route, run to its end on a request it can decide. -/
lemma postRun_eq {k : ℕ} {sid : String} {body : ResolveBody} (now : Time) (hk : s.calls k = none)
    (hid : fullReqId sid rid = rid) (hrow : ∀ r, s.rows rid = some r → r.status = "pending")
    {c : Coordinator} (hc : s.coord.resolve rid (Via.rest sid rid body).verdict = .ok c) :
    ∃ t, deskSystem.run s (postRun k sid rid body now) = some t ∧
      t.calls k = some (.deciding (.rest sid rid body)
        (.returned (.recorded body.decision.text rid))) ∧ t.coord = c := by
  have htarget : (Via.rest sid rid body).target = rid := hid
  have hgate : ∀ v pre, gatePhase (.rest sid rid body) v pre (s.rows rid) = .admitted v pre := by
    intro v pre
    cases hr : s.rows rid with
    | none => rfl
    | some r => simp [gatePhase, hrow r hr]
  obtain ⟨res, hres⟩ := upsertHitl_of_version
    ((Via.rest sid rid body).fields (s.rows rid) now) now (s.rows rid)
  refine ⟨?_, ?run, ?call, ?coord⟩
  case run =>
    simp only [postRun, System.run, deskSystem, step, hk, setCall, Via.opening,
      Function.update_self, Function.update_idem, htarget, hgate, hc, Via.afterResolve, hres,
      if_true, Option.bind_some]
    rfl
  case call => simp [Via.success, htarget]
  case coord => rfl

end Desk

open Desk

/-- **A request is reachable through its session's API exactly if it was registered in process and
the table holds no decision under its id.** -/
theorem hitl_reachable_iff {s : Desk} {rid : ReqId} {q : Request} {e : PendingEntry}
    (hs : deskSystem.Reachable s) (hq : s.requests rid = some q)
    (he : s.coord.find rid = some e) (hun : e.future = none) :
    s.Reaches q.owner.1 rid ↔
      q.origin = .canUseTool ∧ ∀ r, s.rows rid = some r → r.status = "pending" := by
  have ht := tagged_of_reachable hs
  obtain ⟨q', hq', htag, hcolon⟩ := ht rid e he
  obtain rfl : q' = q := Option.some.inj (hq'.symm.trans hq)
  constructor
  · intro h
    obtain ⟨e', he', _, htag'⟩ := lists_iff.mp h.listed
    obtain rfl : e' = e := Option.some.inj (he'.symm.trans he)
    have horigin : q'.origin = .canUseTool := by
      cases ho : q'.origin with
      | canUseTool => rfl
      | handleToolRequest =>
          rw [ho] at htag
          exact absurd (htag'.symm.trans htag) q'.owner.2
    refine ⟨horigin, fun r hr => ?_⟩
    by_contra hst
    -- the look at the row refuses the decision
    obtain ⟨n, hn⟩ := bounded_of_reachable hs
    obtain ⟨t, hrun, _⟩ := h.posted n ⟨.accept, none, none⟩ 0 (hn n le_rfl)
    have hid : fullReqId q'.owner.1 rid = rid := fullReqId_of_mem (hcolon horigin)
    simp [postRun, System.run, deskSystem, step, hn n le_rfl, setCall, Via.opening, Via.target,
      hid, gatePhase, hr, hst, Via.refuse] at hrun
  · rintro ⟨horigin, hrow⟩
    have htag' : e.sessionId = q'.owner.1 := by
      rw [htag, horigin]
      rfl
    refine ⟨lists_iff.mpr ⟨e, he, hun, htag'⟩, fun k body now hk => ?_, fun k reason hk => ?_,
      fun r q hq hne => ⟨fun hl => ?_, fun k reason t hrun => ?_⟩⟩
    · obtain ⟨c, hc⟩ := (Coordinator.resolve_isOk_iff
        (v := (Via.rest q'.owner.1 rid body).verdict)).mpr ⟨e, he, hun⟩
      have hid : fullReqId q'.owner.1 rid = rid := fullReqId_of_mem (hcolon horigin)
      obtain ⟨t, hrun, hcall, hcoord⟩ := postRun_eq now hk hid hrow hc
      refine ⟨t, hrun, hcall, ?_, fun r hr => ?_⟩
      · rw [hcoord, Coordinator.find_of_resolve hc, if_pos rfl]
      · rw [hcoord, Coordinator.find_of_resolve hc, if_neg hr]
    · refine ⟨_, cancelRun_eq hk, ?_⟩
      have hin : e.inScope (some q'.owner.1) = true := e.inScope_some_iff.mpr ⟨hun, htag'⟩
      have hfind := Coordinator.find_cancelAll (c := s.coord) ("cancel:" ++ reason)
        (some q'.owner.1) rid
      rw [he, Option.map_some, if_pos hin] at hfind
      rw [he]
      exact hfind
    · obtain ⟨e', he', _, htag'⟩ := lists_iff.mp hl
      exact isolated ht hq hne he' htag'
    · by_cases hk : s.calls k = none
      · rw [cancelRun_eq hk] at hrun
        cases hrun
        have hfind := Coordinator.find_cancelAll (c := s.coord) ("cancel:" ++ reason)
          (some q'.owner.1) r
        refine hfind.trans ?_
        cases he' : s.coord.find r with
        | none => rfl
        | some e' =>
            have hout : ¬ e'.inScope (some q'.owner.1) = true := fun hin =>
              isolated ht hq hne he' (e'.inScope_some_iff.mp hin).2
            rw [Option.map_some, if_neg hout]
      · simp [cancelRun, System.run, deskSystem, step, hk] at hrun

/-- A request registered in process is reached through its session. -/
theorem hitl_reachable_of_canUseTool :
    ∃ s q e, deskSystem.run {} [.canUseTool ⟨"s1", by decide⟩ "ab" "Bash" "{}"] = some s ∧
      s.requests "s1:ab" = some q ∧ s.coord.find "s1:ab" = some e ∧
      s.Reaches q.owner.1 "s1:ab" := by
  have hreach : deskSystem.Reachable {} := .init ⟨rfl, fun _ => rfl, fun _ => rfl⟩
  have hrun : deskSystem.run {} [.canUseTool ⟨"s1", by decide⟩ "ab" "Bash" "{}"]
      = some (({} : Desk).register .canUseTool ⟨"s1", by decide⟩ "s1:ab" "Bash" "{}") := rfl
  refine ⟨_, { origin := .canUseTool, owner := ⟨"s1", by decide⟩ },
    { tool := "Bash", args := "{}", sessionId := "s1" }, hrun, rfl, rfl, ?_⟩
  exact (hitl_reachable_iff (hreach.of_run hrun) rfl rfl rfl).mpr ⟨rfl, fun r hr => by cases hr⟩

/-- **A request that came over the wire is not on the pending list of its session.** -/
theorem wire_request_is_unreachable :
    ∃ s q e, deskSystem.run {} [.toolRequest ⟨"s1", by decide⟩ "r-ab" "Bash" "{}"] = some s ∧
      deskSystem.Reachable s ∧ s.requests "r-ab" = some q ∧ q.owner.1 = "s1" ∧
      s.coord.find "r-ab" = some e ∧ e.future = none ∧ ¬ s.Lists "s1" "r-ab" ∧
      ¬ s.Reaches "s1" "r-ab" := by
  have hreach : deskSystem.Reachable {} := .init ⟨rfl, fun _ => rfl, fun _ => rfl⟩
  have hrun : deskSystem.run {} [.toolRequest ⟨"s1", by decide⟩ "r-ab" "Bash" "{}"]
      = some (({} : Desk).register .handleToolRequest ⟨"s1", by decide⟩ "r-ab" "Bash" "{}") := rfl
  have hlist : ¬ (({} : Desk).register .handleToolRequest ⟨"s1", by decide⟩ "r-ab" "Bash" "{}").Lists
      "s1" "r-ab" := by
    intro h
    obtain ⟨e, he, _, htag⟩ := lists_iff.mp h
    cases he
    exact absurd htag (by decide)
  exact ⟨_, { origin := .handleToolRequest, owner := ⟨"s1", by decide⟩ },
    { tool := "Bash", args := "{}", sessionId := "" }, hrun, hreach.of_run hrun, rfl, rfl, rfl, rfl,
    hlist, fun h => hlist h.listed⟩

end GgRelay.Hitl
