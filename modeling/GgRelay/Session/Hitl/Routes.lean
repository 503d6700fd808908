import GgRelay.Session.Hitl.Coordinator
import GgRelay.Store.HitlRow

/-!
The routes that decide a request, less their order of steps: `api/routers/hitl.py` (`resolve` and,
for each id of a batch, `batch_hitl`) and `im/router.py` (`_process_feishu_callback`).

A `Via` is one decision on its way, with the payload it came with.  Which id it addresses, what it
completes the future with, which columns it writes and how it answers are functions of it.
-/

namespace GgRelay.Hitl

/-- `req_id if ":" in req_id else f"{session_id}:{req_id}"`. -/
def fullReqId (sessionId reqId : String) : ReqId :=
  if ':' ∈ reqId.toList then reqId else sessionId ++ ":" ++ reqId

lemma fullReqId_of_mem {sid rid : String} (h : ':' ∈ rid.toList) : fullReqId sid rid = rid :=
  if_pos h

/-- The texts Python takes for true. -/
def truthy (text : Option String) : Option String := text.filter (· ≠ "")

/-- The reason the single route hands to the coordinator. -/
def composeReason (reason resolver : Option String) : Option String :=
  match truthy resolver with
  | none => reason
  | some who =>
      match truthy reason with
      | none => some ("by:" ++ who)
      | some why => some (why ++ "|by:" ++ who)

/-- `HITLResolveRequest`. -/
structure ResolveBody where
  decision : Decision
  reason : Option String := none
  resolver : Option String := none
  deriving DecidableEq, Repr

inductive BatchAction where
  | approve | reject
  deriving DecidableEq, Repr

/-- `"accept" if payload.action == "approve" else "deny"`. -/
def BatchAction.decision : BatchAction → Decision
  | .approve => .accept
  | .reject => .deny

/-- A decision on its way to a request. -/
inductive Via where
  /-- `POST /sessions/{session_id}/hitl/{req_id}`. -/
  | rest (sessionId reqId : String) (body : ResolveBody)
  /-- One id of `POST /hitl/batch`. -/
  | batch (hid : ReqId) (action : BatchAction) (reason : Option String) (label : String)
  /-- The Feishu callback, with its signature checked and its action fields present. -/
  | webhook (sid rid : String) (decision : Decision) (user : String)
  deriving DecidableEq, Repr

/-- The `first_decision` fragment of a row. -/
structure FirstDecision where
  status : String
  resolver : Option String
  reason : Option String
  resolvedAt : Option Time
  deriving DecidableEq, Repr

/-- `_first_decision_from_row` of the coordinator, `_decision_from_row` of the router. -/
def firstDecision (r : HitlRow) : FirstDecision where
  status := r.status
  resolver := r.resolver
  reason := r.reason
  resolvedAt := r.resolvedAt

/-- Why a decision is not taken. -/
inductive Refusal where
  /-- `HITLAlreadyResolved`, raised by the look at the row. -/
  | alreadyResolved (first : FirstDecision)
  /-- `HITLNotPending`, raised under the lock. -/
  | notPending (exc : NotPending)
  /-- `ConcurrencyError`, raised by the write. -/
  | concurrency (exc : ConcurrencyError)
  deriving DecidableEq, Repr

/-- What a decision is answered with. -/
inductive Response where
  /-- `200 {"status", "req_id"}`. -/
  | recorded (status : String) (reqId : ReqId)
  /-- `409` with code `hitl_already_resolved`. -/
  | conflict (detail : String) (first : Option FirstDecision)
  /-- A `BatchHITLItem`: `ok`, or an error code with its message. -/
  | item (hid : ReqId) (error : Option (String × String))
  /-- The toast of a card. -/
  | toast (type content : String)
  /-- An exception nobody catches: `500`. -/
  | raised (exc : Refusal)
  deriving DecidableEq, Repr

/-- What an answer tells its caller. -/
inductive Report where
  | success | conflict | failure
  deriving DecidableEq, Repr

def Response.report : Response → Report
  | .recorded _ _ => .success
  | .conflict _ _ => .conflict
  | .item _ error => if error.isSome then .conflict else .success
  | .toast type _ => if type = "success" then .success else .conflict
  | .raised _ => .failure

/-- `str(HITLAlreadyResolved(req_id))`. -/
def alreadyResolvedText (rid : ReqId) : String := "HITL request " ++ rid ++ " already resolved"

/-- `_conflict_response`. -/
def conflictResponse (rid : ReqId) (winner : Option HitlRow) : Response :=
  .conflict (alreadyResolvedText rid) (winner.map firstDecision)

/-- The steps of a decision; `v` and `pre` are the version and the row read before it is made. -/
inductive Phase where
  | opened
  | versioned (v : Option ℕ)
  /-- Inside `coordinator.resolve`, before its look at the row. -/
  | resolving (v : Option ℕ) (pre : Option HitlRow)
  /-- Inside `coordinator.resolve`, before the lock. -/
  | admitted (v : Option ℕ) (pre : Option HitlRow)
  /-- The future is completed, the row not yet written. -/
  | decided (v : Option ℕ) (pre : Option HitlRow)
  /-- The single route, before it reads the winning row. -/
  | refused
  | returned (r : Response)
  deriving DecidableEq, Repr

namespace Via

/-- The id a decision addresses. -/
def target : Via → ReqId
  | .rest sid rid _ => fullReqId sid rid
  | .batch hid _ _ _ => hid
  | .webhook sid rid _ _ => fullReqId sid rid

/-- What it completes the future with. -/
def verdict : Via → Verdict
  | .rest _ _ body =>
      { decision := body.decision, reason := composeReason body.reason body.resolver }
  | .batch _ action reason _ => { decision := action.decision, reason := reason }
  | .webhook _ _ d user => { decision := d, reason := some ("im_approval:feishu:" ++ user) }

/-- The first step: only the two API routes read the row themselves. -/
def opening : Via → Phase
  | .rest _ _ _ | .batch _ _ _ _ => .opened
  | .webhook _ _ _ _ => .resolving none none

/-- The columns the two API routes write. -/
def fields (via : Via) (pre : Option HitlRow) (now : Time) : HitlFields where
  sessionId :=
    match via with
    | .rest sid _ _ => sid
    | .batch _ _ _ _ | .webhook _ _ _ _ => (pre.map (·.sessionId)).getD ""
  tool := (pre.map (·.tool)).getD ""
  argsJson := (pre.map (·.argsJson)).getD "{}"
  status := via.verdict.decision.text
  createdAt := pre.map (·.createdAt)
  resolvedAt := some now
  reason :=
    match via with
    | .rest _ _ body => body.reason
    | .batch _ _ reason _ => reason
    | .webhook _ _ _ _ => none
  resolver :=
    match via with
    | .rest _ _ body => body.resolver
    | .batch _ _ _ label => some label
    | .webhook _ _ _ _ => none

/-- The future is completed: the API routes go on to the row, the callback is done. -/
def afterResolve (v : Option ℕ) (pre : Option HitlRow) : Via → Phase
  | .rest _ _ _ | .batch _ _ _ _ => .decided v pre
  | .webhook _ _ d _ => .returned (.toast "success" (d.text ++ " recorded"))

/-- The row is written. -/
def success (via : Via) : Response :=
  match via with
  | .rest _ _ body => .recorded body.decision.text via.target
  | .batch hid _ _ _ => .item hid none
  | .webhook _ _ d _ => .toast "success" (d.text ++ " recorded")

/-- The `except` clauses.  The callback has one for `HITLNotPending` only. -/
def refuse (via : Via) (why : Refusal) : Phase :=
  match via, why with
  | .rest _ _ _, _ => .refused
  | .batch hid _ _ _, .alreadyResolved _ =>
      .returned (.item hid (some ("hitl_already_resolved", alreadyResolvedText hid)))
  | .batch hid _ _ _, .notPending exc =>
      .returned (.item hid (some ("hitl_not_pending", (truthy (some exc.reqId)).getD hid)))
  | .batch hid _ _ _, .concurrency _ =>
      .returned (.item hid (some ("hitl_already_resolved", "hitl " ++ hid ++ " version mismatch")))
  | .webhook _ _ _ _, .notPending _ => .returned (.toast "info" "already resolved")
  | .webhook _ _ _ _, why => .returned (.raised why)

/-- Does the decision come through a route that writes the row? -/
def Persists : Via → Prop
  | .rest _ _ _ | .batch _ _ _ _ => True
  | .webhook _ _ _ _ => False

variable (via : Via)

@[simp] lemma success_report : via.success.report = .success := by
  cases via <;> rfl

@[simp] lemma fields_status (pre : Option HitlRow) (now : Time) :
    (via.fields pre now).status = via.verdict.decision.text := rfl

/-- A refused decision is answered as a conflict, unless it is a callback that meets a decided
row. -/
lemma refuse_report {why : Refusal} {r : Response}
    (hwhy : via.Persists ∨ ∃ exc, why = .notPending exc) (h : via.refuse why = .returned r) :
    r.report = .conflict := by
  cases via with
  | rest => cases h
  | batch => cases why <;> cases h <;> rfl
  | webhook =>
      rcases hwhy with hp | ⟨exc, rfl⟩
      · exact hp.elim
      · cases h
        rfl

end Via

end GgRelay.Hitl
