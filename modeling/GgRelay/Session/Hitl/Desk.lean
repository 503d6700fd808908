import GgRelay.Lib.System
import GgRelay.Session.Hitl.Routes

/-!
Every way a human decision reaches a waiting runner, one step of each call at a time.

* `Desk` is the coordinator, the `hitl_requests` table, the decisions and cancellations on their
  way, and for each request who completed its future and what its runner received;
* `Desk.step` runs one call up to its next `await`: the look at the row, the body under the lock
  and the write are separate steps;
* `Desk.fate` says once what a step can do to a request.

Requests are registered by `can_use_tool` of `session/client.py` (in process) and by
`WireBridge._handle_tool_request` of `session/runner/bridge.py` (docker, k8s).
-/

namespace GgRelay.Hitl

/-- The id of a session, `uuid4().hex`: never empty. -/
abbrev SessionId := { sid : String // sid ≠ "" }

/-- The code that registers a request with the coordinator. -/
inductive Origin where
  | canUseTool | handleToolRequest
  deriving DecidableEq, Repr

/-- `f"{session_id}:{short}"`. -/
def canUseToolId (sid : SessionId) (short : String) : ReqId := sid.1 ++ ":" ++ short

lemma mem_canUseToolId (sid : SessionId) (short : String) : ':' ∈ (canUseToolId sid short).toList := by
  simp [canUseToolId]

/-- The `session_id` a request is registered with: the bridge passes none. -/
def Origin.tag (o : Origin) (sid : SessionId) : String :=
  match o with
  | .canUseTool => sid.1
  | .handleToolRequest => ""

/-- What happened to a request since it was registered. -/
structure Request where
  origin : Origin
  owner : SessionId
  /-- The call that completed its future, and with what. -/
  verdict : Option (ℕ × Verdict) := none
  /-- What `request_with_reason` returned. -/
  received : Option Verdict := none
  deriving DecidableEq

/-- The future is completed by the call `k`. -/
def Request.complete (k : ℕ) (v : Verdict) (q : Request) : Request :=
  { q with verdict := some (k, v) }

/-- `request_with_reason` returns. -/
def Request.receive (v : Verdict) (q : Request) : Request := { q with received := some v }

/-- A call that decides. -/
inductive DeskCall where
  | deciding (via : Via) (phase : Phase)
  /-- `cancel_all(reason=..., session_id=scope)`, about to take the lock. -/
  | cancelling (scope : Option String) (reason : String)
  /-- `cancel_all` returned `len(ids)`. -/
  | cancelled (ids : List ReqId)
  deriving DecidableEq

structure Desk where
  coord : Coordinator := {}
  rows : ReqId → Option HitlRow := fun _ => none
  calls : ℕ → Option DeskCall := fun _ => none
  requests : ReqId → Option Request := fun _ => none

inductive DeskLabel where
  | canUseTool (sid : SessionId) (short tool : String) (args : Args)
  /-- A `tool.request` frame of the session reaches its bridge. -/
  | toolRequest (sid : SessionId) (rid : ReqId) (tool : String) (args : Args)
  /-- The waiting coroutine takes its decision. -/
  | wake (rid : ReqId)
  /-- The waiting coroutine is cancelled. -/
  | abandon (rid : ReqId)
  | arrive (k : ℕ) (via : Via)
  | arriveCancel (k : ℕ) (scope : Option String) (reason : String)
  /-- `get_hitl_version`. -/
  | readVersion (k : ℕ)
  /-- `get_hitl` of the route. -/
  | readRow (k : ℕ)
  /-- `get_hitl` of the coordinator. -/
  | gate (k : ℕ)
  /-- The body under the lock of `resolve`. -/
  | resolve (k : ℕ)
  /-- `upsert_hitl`, and the answer. -/
  | upsert (k : ℕ) (now : Time)
  /-- `get_hitl` for the body of a conflict, and the answer. -/
  | fetch (k : ℕ)
  | cancelAll (k : ℕ)
  deriving DecidableEq

/-- The call that takes a step. -/
def DeskLabel.call : DeskLabel → Option ℕ
  | .readVersion k | .readRow k | .gate k | .resolve k | .upsert k _ | .fetch k | .cancelAll k =>
      some k
  | _ => none

/-- The request a step tries to register. -/
def DeskLabel.registers : DeskLabel → Option ReqId
  | .canUseTool sid short _ _ => some (canUseToolId sid short)
  | .toolRequest _ rid _ _ => some rid
  | _ => none

/-- No step of a call registers a request. -/
lemma DeskLabel.registers_of_call {l : DeskLabel} {k : ℕ} (h : l.call = some k) :
    l.registers = none := by
  cases l <;> first | rfl | cases h

namespace Desk

variable (s : Desk)

def setCall (k : ℕ) (c : DeskCall) : Desk :=
  { s with calls := Function.update s.calls k (some c) }

/-- `coordinator.request`; its `ValueError` is answered in place, nothing is registered. -/
def register (o : Origin) (sid : SessionId) (rid : ReqId) (tool : String) (args : Args) : Desk :=
  match s.coord.request rid tool args (o.tag sid) with
  | .error _ => s
  | .ok c =>
      { s with
        coord := c
        requests := Function.update s.requests rid (some { origin := o, owner := sid }) }

/-- The look of `coordinator.resolve` at the row. -/
def gatePhase (via : Via) (v : Option ℕ) (pre row : Option HitlRow) : Phase :=
  match row with
  | none => .admitted v pre
  | some r =>
      if r.status ≠ "pending" then via.refuse (.alreadyResolved (firstDecision r))
      else .admitted v pre

/-- `cancel_all`. -/
def cancelAll (k : ℕ) (scope : Option String) (reason : String) : Desk :=
  { s with
    coord := s.coord.cancelAll reason scope
    requests := fun rid =>
      if rid ∈ s.coord.cancelled scope then
        (s.requests rid).map (·.complete k { decision := .deny, reason := some reason })
      else s.requests rid
    calls := Function.update s.calls k (some (.cancelled (s.coord.cancelled scope))) }

def step : DeskLabel → Option Desk
  | .canUseTool sid short tool args =>
      some (s.register .canUseTool sid (canUseToolId sid short) tool args)
  | .toolRequest sid rid tool args => some (s.register .handleToolRequest sid rid tool args)
  | .wake rid =>
      match (s.coord.find rid).bind (·.future) with
      | some v =>
          some { s with
            coord := s.coord.pop rid
            requests := Function.update s.requests rid
              ((s.requests rid).map (·.receive v)) }
      | none => none
  | .abandon rid =>
      if (s.coord.find rid).isSome then some { s with coord := s.coord.pop rid } else none
  | .arrive k via =>
      if s.calls k = none then some (s.setCall k (.deciding via via.opening)) else none
  | .arriveCancel k scope reason =>
      if s.calls k = none then some (s.setCall k (.cancelling scope reason)) else none
  | .readVersion k =>
      match s.calls k with
      | some (.deciding via .opened) =>
          some (s.setCall k (.deciding via (.versioned ((s.rows via.target).map (·.version)))))
      | _ => none
  | .readRow k =>
      match s.calls k with
      | some (.deciding via (.versioned v)) =>
          some (s.setCall k (.deciding via (.resolving v (s.rows via.target))))
      | _ => none
  | .gate k =>
      match s.calls k with
      | some (.deciding via (.resolving v pre)) =>
          some (s.setCall k (.deciding via (gatePhase via v pre (s.rows via.target))))
      | _ => none
  | .resolve k =>
      match s.calls k with
      | some (.deciding via (.admitted v pre)) =>
          match s.coord.resolve via.target via.verdict with
          | .error exc => some (s.setCall k (.deciding via (via.refuse (.notPending exc))))
          | .ok c =>
              some { s.setCall k (.deciding via (via.afterResolve v pre)) with
                coord := c
                requests := Function.update s.requests via.target
                  ((s.requests via.target).map (·.complete k via.verdict)) }
      | _ => none
  | .upsert k now =>
      match s.calls k with
      | some (.deciding via (.decided v pre)) =>
          match upsertHitl (via.fields pre now) v now (s.rows via.target) with
          | .error exc => some (s.setCall k (.deciding via (via.refuse (.concurrency exc))))
          | .ok res =>
              some { s.setCall k (.deciding via (.returned via.success)) with
                rows := Function.update s.rows via.target (some res.1) }
      | _ => none
  | .fetch k =>
      match s.calls k with
      | some (.deciding via .refused) =>
          some (s.setCall k (.deciding via
            (.returned (conflictResponse via.target (s.rows via.target)))))
      | _ => none
  | .cancelAll k =>
      match s.calls k with
      | some (.cancelling scope reason) => some (s.cancelAll k scope reason)
      | _ => none

/-- The steps that complete the future of a request: the call before, what it completes the
future with, the call after. -/
inductive Decides (s : Desk) (rid : ReqId) : DeskLabel → DeskCall → Verdict → DeskCall → Prop
  | resolve {k : ℕ} {via : Via} {v : Option ℕ} {pre : Option HitlRow} : via.target = rid →
      Decides s rid (.resolve k) (.deciding via (.admitted v pre)) via.verdict
        (.deciding via (via.afterResolve v pre))
  | cancel {k : ℕ} {scope : Option String} {reason : String} : rid ∈ s.coord.cancelled scope →
      Decides s rid (.cancelAll k) (.cancelling scope reason)
        { decision := .deny, reason := some reason } (.cancelled (s.coord.cancelled scope))

/-- All that a step can do to one request. -/
inductive Fate (s : Desk) (l : DeskLabel) (t : Desk) (rid : ReqId) : Prop
  | kept : t.coord.find rid = s.coord.find rid → t.requests rid = s.requests rid → Fate s l t rid
  | registered (o : Origin) (sid : SessionId) (tool : String) (args : Args) :
      l.registers = some rid → s.coord.find rid = none →
      t.coord.find rid = some { tool, args, sessionId := o.tag sid } →
      t.requests rid = some { origin := o, owner := sid } →
      (o = .canUseTool → ':' ∈ rid.toList) → Fate s l t rid
  | received (e : PendingEntry) (v : Verdict) : l.call = none → s.coord.find rid = some e →
      e.future = some v → t.coord.find rid = none →
      t.requests rid = (s.requests rid).map (·.receive v) → Fate s l t rid
  | dropped : l.call = none → t.coord.find rid = none → t.requests rid = s.requests rid →
      Fate s l t rid
  | decided (k : ℕ) (c c' : DeskCall) (e : PendingEntry) (v : Verdict) : l.call = some k →
      Decides s rid l c v c' → s.calls k = some c → t.calls k = some c' →
      s.coord.find rid = some e → e.future = none → t.coord.find rid = some (e.complete v) →
      t.requests rid = (s.requests rid).map (·.complete k v) → Fate s l t rid

variable {s} {t : Desk} {l : DeskLabel}

lemma register_fate (o : Origin) (sid : SessionId) (rid : ReqId) (tool : String) (args : Args)
    (hid : o = .canUseTool → ':' ∈ rid.toList) (hl : l.registers = some rid) (r : ReqId) :
    Fate s l (s.register o sid rid tool args) r := by
  rw [register]
  split
  · exact .kept rfl rfl
  · rename_i c hc
    have hfind := Coordinator.find_of_request hc r
    by_cases hr : r = rid
    · subst hr
      have hnone : s.coord.find r = none := Coordinator.request_isOk_iff.mp ⟨c, hc⟩
      rw [if_pos rfl] at hfind
      exact .registered o sid tool args hl hnone hfind (by simp) hid
    · exact .kept (by simpa [hr] using hfind) (by simp [hr])

/-- **All that a step can do to a request is said by `Fate`.** -/
theorem fate (h : s.step l = some t) (rid : ReqId) : Fate s l t rid := by
  cases l with
  | canUseTool sid short tool args =>
      cases h
      exact register_fate _ _ _ _ _ (fun _ => mem_canUseToolId _ _) rfl _
  | toolRequest sid r tool args =>
      cases h
      exact register_fate _ _ _ _ _ (fun h => by cases h) rfl _
  | wake r =>
      rw [step] at h
      split at h
      · rename_i v hv
        cases h
        obtain ⟨e, he, hev⟩ := Option.bind_eq_some_iff.mp hv
        have hfind : (s.coord.pop r).find rid = _ := Coordinator.find_pop rid
        by_cases hr : rid = r
        · subst hr
          exact .received e v rfl he hev (by simpa using hfind) (by simp)
        · exact .kept (by simpa [hr] using hfind) (by simp [hr])
      · cases h
  | abandon r =>
      simp only [step, Option.ite_none_right_eq_some, Option.some.injEq] at h
      obtain ⟨_, rfl⟩ := h
      have hfind : (s.coord.pop r).find rid = _ := Coordinator.find_pop rid
      by_cases hr : rid = r
      · subst hr
        exact .dropped rfl (by simpa using hfind) rfl
      · exact .kept (by simpa [hr] using hfind) rfl
  | resolve k =>
      rw [step] at h
      split at h
      · rename_i via v pre hk
        split at h
        · cases h
          exact .kept rfl rfl
        · rename_i c hc
          cases h
          obtain ⟨e, he, hun⟩ := Coordinator.resolve_isOk_iff.mp ⟨c, hc⟩
          have hfind := Coordinator.find_of_resolve hc rid
          by_cases hr : rid = via.target
          · refine .decided k _ _ e _ rfl (.resolve hr.symm) hk (by simp [setCall]) (hr ▸ he) hun
              ?_ ?_
            · rw [if_pos hr, hr, he] at hfind
              rw [hr]
              exact hfind
            · simp [hr]
          · exact .kept (by simpa [hr] using hfind) (by simp [hr])
      · cases h
  | cancelAll k =>
      rw [step] at h
      split at h
      · rename_i scope reason hk
        cases h
        have hfind := Coordinator.find_cancelAll (c := s.coord) reason scope rid
        by_cases hr : rid ∈ s.coord.cancelled scope
        · obtain ⟨e, he, hin⟩ := Coordinator.mem_cancelled_iff.mp hr
          refine .decided k _ _ e _ rfl (.cancel hr) hk (by simp [cancelAll]) he
            (e.inScope_future hin) ?_ ?_
          · rw [he, Option.map_some, if_pos hin] at hfind
            exact hfind
          · simp [cancelAll, hr]
        · refine .kept ?_ (by simp [cancelAll, hr])
          cases he : s.coord.find rid with
          | none =>
              rw [he] at hfind
              exact hfind
          | some e =>
              have hin : e.inScope scope ≠ true := fun hin =>
                hr (Coordinator.mem_cancelled_iff.mpr ⟨e, he, hin⟩)
              rw [he, Option.map_some, if_neg hin] at hfind
              exact hfind
      · cases h
  | arrive k via | arriveCancel k scope reason =>
      simp only [step, Option.ite_none_right_eq_some, Option.some.injEq] at h
      obtain ⟨_, rfl⟩ := h
      exact .kept rfl rfl
  | upsert k now =>
      rw [step] at h
      split at h
      · split at h <;> cases h <;> exact .kept rfl rfl
      · cases h
  | readVersion k | readRow k | gate k | fetch k =>
      rw [step] at h
      split at h
      · cases h
        exact .kept rfl rfl
      · cases h

/-- A step changes the state of one call at most. -/
lemma calls_step (h : s.step l = some t) : ∃ k, ∀ k', k' ≠ k → t.calls k' = s.calls k' := by
  cases l with
  | canUseTool | toolRequest =>
      cases h
      refine ⟨0, fun _ _ => ?_⟩
      rw [register]
      split <;> rfl
  | wake =>
      rw [step] at h
      split at h
      · cases h
        exact ⟨0, fun _ _ => rfl⟩
      · cases h
  | abandon =>
      simp only [step, Option.ite_none_right_eq_some, Option.some.injEq] at h
      obtain ⟨_, rfl⟩ := h
      exact ⟨0, fun _ _ => rfl⟩
  | arrive k | arriveCancel k =>
      simp only [step, Option.ite_none_right_eq_some, Option.some.injEq] at h
      obtain ⟨_, rfl⟩ := h
      exact ⟨k, fun k' hk => by simp [setCall, hk]⟩
  | resolve k | upsert k =>
      rw [step] at h
      split at h
      · split at h <;> cases h <;> exact ⟨k, fun k' hk => by simp [setCall, hk]⟩
      · cases h
  | readVersion k | readRow k | gate k | fetch k | cancelAll k =>
      rw [step] at h
      split at h
      · cases h
        exact ⟨k, fun k' hk => by simp [setCall, cancelAll, hk]⟩
      · cases h

end Desk

/-- Any rows from earlier requests; nothing registered, nobody on the way. -/
def deskSystem : System Desk DeskLabel where
  init s := s.coord = {} ∧ (∀ k, s.calls k = none) ∧ ∀ rid, s.requests rid = none
  step := Desk.step

end GgRelay.Hitl
