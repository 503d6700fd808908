import GgRelay.Lib.Dict

/-!
The pending-future router of human decisions, `session/hitl/coordinator.py`.

`Coordinator` is the dictionary `_pending`; the future of an entry is kept in the entry, since only
the coroutine that waits for it holds another reference.  The bodies under the lock never suspend,
so each is one function:

* `request` registers an entry, `pop` is the `finally` of the waiting coroutine;
* `resolve` completes one future, `cancelAll` completes all of a scope with `deny`;
* `pendingSnapshot` lists what is undecided.

What each does to the entry under a given id is said once, in `find_of_request`, `find_of_resolve`,
`find_cancelAll` and `find_pop`.
-/

namespace GgRelay.Hitl

/-- The key of a request: `f"{session_id}:{short}"` by convention, any string in fact. -/
abbrev ReqId := String

/-- The arguments of a tool call, as the text of their JSON object. -/
abbrev Args := String

inductive Decision where
  | accept | deny
  deriving DecidableEq, Repr

/-- The literal of a decision. -/
def Decision.text : Decision → String
  | .accept => "accept"
  | .deny => "deny"

lemma Decision.text_ne_pending (d : Decision) : d.text ≠ "pending" := by
  cases d <;> decide

/-- What a future is completed with: `(decision, reason)`. -/
structure Verdict where
  decision : Decision
  reason : Option String := none
  deriving DecidableEq, Repr

/-- `_PendingEntry`. -/
structure PendingEntry where
  tool : String
  args : Args
  sessionId : String
  future : Option Verdict := none
  deriving DecidableEq, Repr

/-- `ValueError(f"req_id {req_id!r} already pending")`. -/
structure AlreadyPending where
  reqId : ReqId
  deriving DecidableEq, Repr

/-- `HITLNotPending(req_id)`. -/
structure NotPending where
  reqId : ReqId
  deriving DecidableEq, Repr

/-- An item of `pending_snapshot`. -/
structure SnapshotItem where
  reqId : ReqId
  tool : String
  args : Args
  sessionId : String
  deriving DecidableEq, Repr

namespace PendingEntry

variable (e : PendingEntry)

/-- `entry.future.set_result(...)`. -/
def complete (v : Verdict) : PendingEntry := { e with future := some v }

/-- The filter of `cancel_all` and `pending_snapshot`: undecided, and of the session asked for. -/
def inScope (scope : Option String) : Bool :=
  e.future.isNone && scope.all (e.sessionId == ·)

@[simp] lemma complete_sessionId (v : Verdict) : (e.complete v).sessionId = e.sessionId := rfl

@[simp] lemma complete_future (v : Verdict) : (e.complete v).future = some v := rfl

lemma inScope_some_iff {sid : String} :
    e.inScope (some sid) = true ↔ e.future = none ∧ e.sessionId = sid := by
  simp [inScope]

lemma inScope_future {scope : Option String} (h : e.inScope scope = true) : e.future = none := by
  simp only [inScope, Bool.and_eq_true, Option.isNone_iff_eq_none] at h
  exact h.1

end PendingEntry

/-- `HITLCoordinator._pending`. -/
structure Coordinator where
  pending : Dict ReqId PendingEntry := ∅
  deriving DecidableEq

namespace Coordinator

variable (c : Coordinator) (rid : ReqId)

/-- `self._pending.get(req_id)`. -/
def find : Option PendingEntry := c.pending.lookup rid

/-- The registering half of `request_with_reason`. -/
def request (tool : String) (args : Args) (sessionId : String) :
    Except AlreadyPending Coordinator :=
  if rid ∈ c.pending then .error ⟨rid⟩
  else .ok { pending := c.pending.insert rid { tool, args, sessionId } }

/-- `self._pending.pop(req_id, None)`. -/
def pop : Coordinator := { pending := c.pending.erase rid }

/-- `resolve`, from the lock on. -/
def resolve (v : Verdict) : Except NotPending Coordinator :=
  match c.find rid with
  | none => .error ⟨rid⟩
  | some e =>
      if e.future.isSome then .error ⟨rid⟩
      else .ok { pending := c.pending.mapValues fun r e => if r = rid then e.complete v else e }

/-- `cancel_all`. -/
def cancelAll (reason : String) (scope : Option String) : Coordinator where
  pending := c.pending.mapValues fun _ e =>
    if e.inScope scope then e.complete { decision := .deny, reason := some reason } else e

/-- The requests `cancel_all` counts, in the order of their registration. -/
def cancelled (scope : Option String) : List ReqId :=
  (c.pending.entries.reverse.filter fun p => p.2.inScope scope).map (·.1)

/-- `pending_snapshot`, in the order of registration. -/
def pendingSnapshot (scope : Option String) : List SnapshotItem :=
  (c.pending.entries.reverse.filter fun p => p.2.inScope scope).map fun p =>
    { reqId := p.1, tool := p.2.tool, args := p.2.args, sessionId := p.2.sessionId }

/-! ### The entry under an id -/

variable {c rid} {c' : Coordinator} {v : Verdict} {scope : Option String} {r : ReqId}

@[simp] lemma find_empty : ({} : Coordinator).find rid = none := rfl

lemma find_eq_none_iff : c.find rid = none ↔ rid ∉ c.pending := AList.lookup_eq_none

lemma mem_entries_iff {e : PendingEntry} :
    (⟨rid, e⟩ : (_ : ReqId) × PendingEntry) ∈ c.pending.entries ↔ c.find rid = some e :=
  AList.mem_lookup_iff.symm

/-- A request is registered exactly when nothing is pending under its id. -/
lemma request_isOk_iff {tool : String} {args : Args} {sid : String} :
    (∃ c', c.request rid tool args sid = .ok c') ↔ c.find rid = none := by
  rw [find_eq_none_iff, request]
  by_cases h : rid ∈ c.pending <;> simp [h]

/-- Registration adds one undecided entry and touches no other. -/
theorem find_of_request {tool : String} {args : Args} {sid : String}
    (h : c.request rid tool args sid = .ok c') (r : ReqId) :
    c'.find r = if r = rid then some { tool, args, sessionId := sid } else c.find r := by
  rw [request] at h
  split at h
  · cases h
  · cases h
    by_cases hr : r = rid
    · subst hr
      simp [find]
    · rw [if_neg hr]
      exact AList.lookup_insert_ne hr

theorem find_pop (r : ReqId) : (c.pop rid).find r = if r = rid then none else c.find r := by
  by_cases hr : r = rid
  · subst hr
    rw [if_pos rfl]
    exact AList.lookup_erase _ _
  · rw [if_neg hr]
    exact AList.lookup_erase_ne hr

/-- A decision goes through exactly when the request is pending and undecided. -/
lemma resolve_isOk_iff :
    (∃ c', c.resolve rid v = .ok c') ↔ ∃ e, c.find rid = some e ∧ e.future = none := by
  rw [resolve]
  cases hf : c.find rid with
  | none => simp
  | some e => cases he : e.future <;> simp [he]

/-- A decision completes one future and touches no other entry. -/
theorem find_of_resolve (h : c.resolve rid v = .ok c') (r : ReqId) :
    c'.find r = if r = rid then (c.find r).map (·.complete v) else c.find r := by
  rw [resolve] at h
  split at h
  · cases h
  · split at h
    · cases h
    · cases h
      rw [find, Dict.lookup_mapValues]
      by_cases hr : r = rid
      · simp [hr, find]
      · simp [hr, find]

theorem find_cancelAll (reason : String) (scope : Option String) (r : ReqId) :
    (c.cancelAll reason scope).find r = (c.find r).map fun e =>
      if e.inScope scope then e.complete { decision := .deny, reason := some reason } else e := by
  rw [find, cancelAll, Dict.lookup_mapValues]
  rfl

/-- `cancel_all` counts the undecided requests of its scope. -/
theorem mem_cancelled_iff :
    r ∈ c.cancelled scope ↔ ∃ e, c.find r = some e ∧ e.inScope scope = true := by
  simp only [cancelled, List.mem_map, List.mem_filter, List.mem_reverse]
  constructor
  · rintro ⟨⟨r', e⟩, ⟨hmem, hin⟩, rfl⟩
    exact ⟨e, mem_entries_iff.mp hmem, hin⟩
  · rintro ⟨e, he, hin⟩
    exact ⟨⟨r, e⟩, ⟨mem_entries_iff.mpr he, hin⟩, rfl⟩

/-- The snapshot lists the undecided requests of its scope, each as it was registered. -/
theorem mem_pendingSnapshot_iff {x : SnapshotItem} :
    x ∈ c.pendingSnapshot scope ↔ ∃ e, c.find x.reqId = some e ∧ e.inScope scope = true ∧
      x.tool = e.tool ∧ x.args = e.args ∧ x.sessionId = e.sessionId := by
  simp only [pendingSnapshot, List.mem_map, List.mem_filter, List.mem_reverse]
  constructor
  · rintro ⟨⟨r, e⟩, ⟨hmem, hin⟩, rfl⟩
    exact ⟨e, mem_entries_iff.mp hmem, hin, rfl, rfl, rfl⟩
  · rintro ⟨e, he, hin, htool, hargs, hsid⟩
    refine ⟨⟨x.reqId, e⟩, ⟨mem_entries_iff.mpr he, hin⟩, ?_⟩
    rw [← htool, ← hargs, ← hsid]

end Coordinator

end GgRelay.Hitl
