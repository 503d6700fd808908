import GgRelay.Lib.System
import GgRelay.Lib.Table
import GgRelay.Session.Hitl.Coordinator

/-!
Human decisions over the wire: `WireCoordinatorProxy.request` and `consume_loop` of
`session/runner/proxy_client.py`, the `can_use_tool` of `session/client.py` that sends the
`tool.request` frame first, and a host that answers each such frame at most once
(`WireBridge._handle_tool_request` of `session/runner/bridge.py`).

* `Wire` is the runner's side of one session together with the frames on their way to it;
* `wireSystem` is every order of its steps, a step of the host being one of the environment's;
* `Wire.Settles` says that no decision is lost and nobody is stranded;
* `wire_settles` proves it for the runs that meet `WireGuard`, `late_request_is_stranded` refutes
  it for all runs.
-/

namespace GgRelay.Hitl

/-- A frame from the host, as `consume_loop` tells them apart. -/
inductive ControlFrame where
  | toolDecision (reqId : ReqId) (decision : Decision)
  | shutdown
  /-- `ping`, `pause`, `resume` and the types it does not know: none of them touches `_pending`. -/
  | other
  deriving DecidableEq, Repr

def ControlFrame.isDecision : ControlFrame → Bool
  | .toolDecision _ _ => true
  | .shutdown | .other => false

/-- Where a `can_use_tool` that needs a human decision stands. -/
inductive ToolCall where
  | absent
  /-- Inside `transport.send(make_tool_request(...))`, the frame not yet out. -/
  | sending (reqId : ReqId)
  /-- The frame is out, `request()` not yet entered. -/
  | sent (reqId : ReqId)
  /-- `await fut`, the future as it is. -/
  | waiting (reqId : ReqId) (fut : Option Decision)
  | returned (reqId : ReqId) (decision : Decision)
  /-- `TransportClosed` from `send`, or `ValueError` for a `req_id` in use. -/
  | raised (reqId : ReqId)
  /-- Its own task was cancelled. -/
  | cancelled (reqId : ReqId)
  deriving DecidableEq, Repr

namespace ToolCall

def reqId : ToolCall → Option ReqId
  | .absent => none
  | .sending r | .sent r | .waiting r _ | .returned r _ | .raised r | .cancelled r => some r

/-- The key its future is kept under. -/
def waitsFor : ToolCall → Option ReqId
  | .waiting r _ => some r
  | _ => none

/-- Nothing of it is left to run. -/
def Finished : ToolCall → Prop
  | .returned _ _ | .raised _ | .cancelled _ => True
  | .absent | .sending _ | .sent _ | .waiting _ _ => False

/-- The loop denies the future if nobody completed it: `if not fut.done()`. -/
def settle (d : Decision) : ToolCall → ToolCall
  | .waiting r none => .waiting r (some d)
  | c => c

lemma reqId_of_waitsFor {c : ToolCall} {r : ReqId} (h : c.waitsFor = some r) :
    c.reqId = some r := by
  cases c <;> first | exact h | cases h

@[simp] lemma reqId_settle (d : Decision) (c : ToolCall) : (c.settle d).reqId = c.reqId := by
  rcases c with _ | _ | _ | ⟨_, _ | _⟩ | _ | _ | _ <;> rfl

@[simp] lemma waitsFor_settle (d : Decision) (c : ToolCall) :
    (c.settle d).waitsFor = c.waitsFor := by
  rcases c with _ | _ | _ | ⟨_, _ | _⟩ | _ | _ | _ <;> rfl

lemma settle_ne_waiting_none (d : Decision) (c : ToolCall) (r : ReqId) :
    c.settle d ≠ .waiting r none := by
  rcases c with _ | _ | _ | ⟨_, _ | _⟩ | _ | _ | _ <;> simp [settle]

@[simp] lemma settle_eq_sending_iff (d : Decision) (c : ToolCall) (r : ReqId) :
    c.settle d = .sending r ↔ c = .sending r := by
  rcases c with _ | _ | _ | ⟨_, _ | _⟩ | _ | _ | _ <;> simp [settle]

/-- The own steps a call has before it: entering `request()`, returning. -/
def toEnter : ToolCall → Bool
  | .sent _ => true
  | _ => false

def toReturn : ToolCall → Bool
  | .sent _ | .waiting _ _ => true
  | _ => false

@[simp] lemma toEnter_settle (d : Decision) (c : ToolCall) : (c.settle d).toEnter = c.toEnter := by
  rcases c with _ | _ | _ | ⟨_, _ | _⟩ | _ | _ | _ <;> rfl

@[simp] lemma toReturn_settle (d : Decision) (c : ToolCall) :
    (c.settle d).toReturn = c.toReturn := by
  rcases c with _ | _ | _ | ⟨_, _ | _⟩ | _ | _ | _ <;> rfl

end ToolCall

/-- The runner's side of the wire, the frames on their way to it, and what the host decided. -/
structure Wire where
  calls : ℕ → ToolCall := fun _ => .absent
  nextCall : ℕ := 0
  /-- `_pending`: the call whose future is kept under a `req_id`. -/
  pending : ReqId → Option ℕ := fun _ => none
  inbound : List ControlFrame := []
  /-- The peer has closed: no frame follows those in `inbound`. -/
  closed : Bool := false
  /-- `consume_loop` is over. -/
  exited : Bool := false
  shutdownRequested : Bool := false
  /-- The `tool.request` frame of a call, once it is out. -/
  asked : ℕ → Option ReqId := fun _ => none
  /-- The decision the host sent for it. -/
  decided : ℕ → Option Decision := fun _ => none

inductive WireLabel where
  /-- A tool call that needs a decision draws its `req_id` and enters `transport.send`. -/
  | begin (reqId : ReqId)
  | sendFrame (cid : ℕ)
  | sendFails (cid : ℕ)
  /-- `send` returned: `request()` runs up to its `await`. -/
  | register (cid : ℕ)
  /-- The future is done: `request()` returns. -/
  | wake (cid : ℕ)
  | abandon (cid : ℕ)
  /-- `consume_loop` takes the next frame. -/
  | take
  /-- `recv` raises `TransportClosed`. -/
  | eof
  /-- `consume_loop` ends by any other exception, its own cancellation included. -/
  | fail
  | hostDecide (cid : ℕ) (decision : Decision)
  | hostShutdown
  | hostOther
  | hostClose
  deriving DecidableEq, Repr

/-- The steps the runner's side takes by itself. -/
def WireLabel.Own : WireLabel → Prop
  | .register _ | .wake _ | .take | .eof => True
  | _ => False

namespace Wire

variable (s : Wire)

def setCall (cid : ℕ) (c : ToolCall) : Wire :=
  { s with calls := Function.update s.calls cid c }

/-- `self._pending.pop(req_id, None)` and the end of the call. -/
def finish (cid : ℕ) (r : ReqId) (c : ToolCall) : Wire :=
  { s with
    calls := Function.update s.calls cid c
    pending := Function.update s.pending r none }

/-- The `tool.decision` branch of `consume_loop`. -/
def deliver (r : ReqId) (d : Decision) : Wire :=
  match s.pending r with
  | none => s
  | some cid => s.setCall cid ((s.calls cid).settle d)

/-- The `finally` of `consume_loop`. -/
def exit : Wire :=
  { s with
    exited := true
    calls := fun cid =>
      if (s.calls cid).reqId.bind s.pending = some cid then (s.calls cid).settle .deny
      else s.calls cid }

/-- One turn of `consume_loop` on a frame that is there. -/
def handle (frame : ControlFrame) (rest : List ControlFrame) : Wire :=
  let s := { s with inbound := rest }
  match frame with
  | .toolDecision r d => s.deliver r d
  | .shutdown => { s with shutdownRequested := true }.exit
  | .other => s

def push (frame : ControlFrame) : Wire := { s with inbound := s.inbound ++ [frame] }

def step : WireLabel → Option Wire
  | .begin r =>
      some { s with
        calls := Function.update s.calls s.nextCall (.sending r)
        nextCall := s.nextCall + 1 }
  | .sendFrame cid =>
      match s.calls cid with
      | .sending r =>
          some { s.setCall cid (.sent r) with asked := Function.update s.asked cid (some r) }
      | _ => none
  | .sendFails cid =>
      match s.calls cid with
      | .sending r => some (s.setCall cid (.raised r))
      | _ => none
  | .register cid =>
      match s.calls cid with
      | .sent r =>
          if (s.pending r).isSome then some (s.setCall cid (.raised r))
          else some { s.setCall cid (.waiting r none) with
            pending := Function.update s.pending r (some cid) }
      | _ => none
  | .wake cid =>
      match s.calls cid with
      | .waiting r (some d) => some (s.finish cid r (.returned r d))
      | _ => none
  | .abandon cid =>
      match s.calls cid with
      | .waiting r _ => some (s.finish cid r (.cancelled r))
      | _ => none
  | .take =>
      match s.exited, s.inbound with
      | false, frame :: rest => some (s.handle frame rest)
      | _, _ => none
  | .eof => if s.exited = false ∧ s.inbound = [] ∧ s.closed = true then some s.exit else none
  | .fail => if s.exited = false then some s.exit else none
  | .hostDecide cid d =>
      match s.asked cid with
      | some r =>
          if s.decided cid = none ∧ s.closed = false then
            some { s.push (.toolDecision r d) with
              decided := Function.update s.decided cid (some d) }
          else none
      | none => none
  | .hostShutdown => if s.closed = false then some (s.push .shutdown) else none
  | .hostOther => if s.closed = false then some (s.push .other) else none
  | .hostClose => some { s with closed := true }

end Wire

def wireSystem : System Wire WireLabel where
  init s := s = {}
  step := Wire.step

/-! ### What the claim asks for -/

namespace Wire

/-- Nothing on the runner's side can move without the host. -/
def Quiet (s : Wire) : Prop := ∀ l : WireLabel, l.Own → s.step l = none

/-- A bound on the own steps the runner's side has before it. -/
def work (s : Wire) : ℕ :=
  tally ToolCall.toEnter s.calls s.nextCall + tally ToolCall.toReturn s.calls s.nextCall
    + s.inbound.length + (!s.exited).toNat

/-- No decision is lost, nobody is stranded. -/
structure Settles (s : Wire) : Prop where
  /-- Left to itself, the runner's side comes to rest. -/
  terminates : ∀ {l t}, l.Own → s.step l = some t → t.work < s.work
  /-- A request whose decision the host sent returns nothing else. -/
  exact : ∀ {cid d r e}, s.decided cid = some d → s.calls cid = .returned r e → e = d
  /-- It has returned as soon as the runner's side is quiet, unless its own task was cancelled. -/
  returns : s.Quiet → ∀ {cid d}, s.decided cid = some d →
    ∃ r, s.calls cid = .returned r d ∨ s.calls cid = .cancelled r
  /-- Once the loop is over, every request can return by its own next step. -/
  unstranded : s.exited = true → ∀ {cid r fut}, s.calls cid = .waiting r fut →
    ∃ d t, s.step (.wake cid) = some t ∧ t.calls cid = .returned r d
  /-- Once the loop is over and the runner's side is quiet, no request is left. -/
  ends : s.exited = true → s.Quiet → ∀ {cid r}, (s.calls cid).reqId = some r →
    (s.calls cid).Finished ∨ s.calls cid = .sending r

end Wire

/-- No `req_id` is drawn twice; a decision is taken from the wire only while its request waits for
it; the loop ends only with no decision unread, and none is sent after; no request is registered
after the end of the loop. -/
def WireGuard (s : Wire) : WireLabel → Prop
  | .begin r => ∀ cid, (s.calls cid).reqId ≠ some r
  | .register _ => s.exited = false
  | .take =>
      match s.inbound with
      | .toolDecision r _ :: _ => ∃ cid ∈ s.pending r, s.calls cid = .waiting r none
      | .shutdown :: rest => ∀ f ∈ rest, f.isDecision = false
      | _ => True
  | .fail => ∀ f ∈ s.inbound, f.isDecision = false
  | .hostDecide _ _ => s.exited = false
  | _ => True

namespace Wire

/-! ### The invariant -/

/-- Where the decision of a call is, once the host has sent it. -/
def Holds (exited : Bool) (inbound : List ControlFrame) (d : Decision) : ToolCall → Prop
  | .sent r | .waiting r none => exited = false ∧ ControlFrame.toolDecision r d ∈ inbound
  | .waiting _ (some e) | .returned _ e => e = d
  | .cancelled _ => True
  | .absent | .sending _ | .raised _ => False

/-- What a call is owed does not depend on the frames of others. -/
lemma Holds.mono {exited : Bool} {inbound inbound' : List ControlFrame} {d : Decision}
    {c : ToolCall} (h : Holds exited inbound d c)
    (hmem : ∀ {r}, c.reqId = some r → ControlFrame.toolDecision r d ∈ inbound →
      ControlFrame.toolDecision r d ∈ inbound') : Holds exited inbound' d c := by
  rcases c with _ | _ | r | ⟨r, _ | e⟩ | _ | _ | _
  case sent | waiting.none => exact ⟨h.1, hmem rfl h.2⟩
  all_goals exact h

/-- With no decision on its way, a call that has one is past waiting for it. -/
lemma Holds.settle {exited exited' : Bool} {inbound inbound' : List ControlFrame} {d : Decision}
    {c : ToolCall} (h : Holds exited inbound d c)
    (hnone : ∀ {r}, ControlFrame.toolDecision r d ∉ inbound) :
    Holds exited' inbound' d (c.settle .deny) := by
  rcases c with _ | _ | r | ⟨r, _ | e⟩ | _ | _ | _
  case sent | waiting.none => exact absurd h.2 hnone
  all_goals exact h

structure WireInv (s : Wire) : Prop where
  absent : ∀ {cid}, s.nextCall ≤ cid → s.calls cid = .absent
  distinct : ∀ {cid cid' r}, (s.calls cid).reqId = some r → (s.calls cid').reqId = some r →
    cid = cid'
  pending : ∀ {cid r}, s.pending r = some cid ↔ (s.calls cid).waitsFor = some r
  asked : ∀ {cid r}, s.asked cid = some r → (s.calls cid).reqId = some r
  sending : ∀ {cid r}, s.calls cid = .sending r → s.asked cid = none
  decided : ∀ {cid d}, s.decided cid = some d → Holds s.exited s.inbound d (s.calls cid)
  silent : ∀ {cid}, s.asked cid = none → s.decided cid = none
  letters : ∀ {r d}, ControlFrame.toolDecision r d ∈ s.inbound →
    ∃ cid, s.asked cid = some r ∧ s.decided cid = some d
  ended : s.exited = true → ∀ {cid r}, s.calls cid ≠ .waiting r none
  unanswered : s.exited = false → ∀ {cid r}, s.asked cid = some r → s.decided cid = none →
    s.calls cid = .sent r ∨ s.calls cid = .waiting r none ∨ s.calls cid = .cancelled r

namespace WireInv

variable {s t : Wire} (hi : s.WireInv) {cid : ℕ} {r : ReqId} {d : Decision}

include hi

lemma decided_of_absent (h : s.calls cid = .absent) : s.asked cid = none ∧ s.decided cid = none := by
  have hasked : s.asked cid = none := by
    cases ha : s.asked cid with
    | none => rfl
    | some r =>
        have hr := hi.asked ha
        rw [h] at hr
        cases hr
  exact ⟨hasked, hi.silent hasked⟩

/-- The future under a `req_id` is that of the one call that waits with it. -/
lemma owner {fut : Option Decision} (h : s.calls cid = .waiting r fut) :
    ∀ cid', (s.calls cid').waitsFor = some r → cid' = cid := by
  intro cid' h'
  have hp : s.pending r = some cid := hi.pending.mpr (by rw [h]; rfl)
  exact Option.some.inj ((hi.pending.mpr h').symm.trans hp)

lemma begin_step (hg : WireGuard s (.begin r)) (h : s.step (.begin r) = some t) : t.WireInv := by
  cases h
  have hnew := hi.absent le_rfl
  obtain ⟨hasked, hdecided⟩ := hi.decided_of_absent hnew
  have hg : ∀ cid, (s.calls cid).reqId ≠ some r := hg
  obtain ⟨h1, h2, h3, h4, h5, h6, h7, h8, h9, h10⟩ := hi
  constructor
  case decided =>
    intro cid d h
    have hne : cid ≠ s.nextCall := fun he => by simp [he, hdecided] at h
    simpa only [Function.update_of_ne hne] using h6 h
  all_goals simp only [Function.update_apply]; grind [ToolCall.reqId, ToolCall.waitsFor]

lemma sendFrame_step (h : s.step (.sendFrame cid) = some t) : t.WireInv := by
  rw [step] at h
  split at h
  · rename_i r hc
    cases h
    have hasked := hi.sending hc
    have hdecided := hi.silent hasked
    obtain ⟨h1, h2, h3, h4, h5, h6, h7, h8, h9, h10⟩ := hi
    constructor
    case decided =>
      intro cid' d h
      have hne : cid' ≠ cid := fun he => by simp [he, setCall, hdecided] at h
      simpa only [setCall, Function.update_of_ne hne] using h6 h
    all_goals simp only [setCall, Function.update_apply]; grind [ToolCall.reqId, ToolCall.waitsFor]
  · cases h

lemma sendFails_step (h : s.step (.sendFails cid) = some t) : t.WireInv := by
  rw [step] at h
  split at h
  · rename_i r hc
    cases h
    have hasked := hi.sending hc
    have hdecided := hi.silent hasked
    obtain ⟨h1, h2, h3, h4, h5, h6, h7, h8, h9, h10⟩ := hi
    constructor
    case decided =>
      intro cid' d h
      have hne : cid' ≠ cid := fun he => by simp [he, setCall, hdecided] at h
      simpa only [setCall, Function.update_of_ne hne] using h6 h
    all_goals simp only [setCall, Function.update_apply]; grind [ToolCall.reqId, ToolCall.waitsFor]
  · cases h

lemma register_step (hg : s.exited = false) (h : s.step (.register cid) = some t) :
    t.WireInv := by
  rw [step] at h
  split at h
  · rename_i r hc
    have hfree : s.pending r = none := by
      by_contra hp
      obtain ⟨cid', hp⟩ := Option.ne_none_iff_exists'.mp hp
      have hw := hi.pending.mp hp
      have hr : (s.calls cid).reqId = some r := by
        rw [hc]
        rfl
      rw [← hi.distinct hr (ToolCall.reqId_of_waitsFor hw), hc] at hw
      cases hw
    rw [hfree] at h
    cases h
    obtain ⟨h1, h2, h3, h4, h5, h6, h7, h8, h9, h10⟩ := hi
    constructor
    case decided =>
      intro cid' d h
      have hd := h6 h
      by_cases he : cid' = cid
      · subst he
        rw [hc] at hd
        simp only [setCall, Function.update_self]
        exact hd
      · simpa only [setCall, Function.update_of_ne he] using hd
    all_goals simp only [setCall, Function.update_apply]; grind [ToolCall.reqId, ToolCall.waitsFor]
  · cases h

lemma wake_step (h : s.step (.wake cid) = some t) : t.WireInv := by
  rw [step] at h
  split at h
  · rename_i r d hc
    cases h
    have hown := hi.owner hc
    obtain ⟨h1, h2, h3, h4, h5, h6, h7, h8, h9, h10⟩ := hi
    constructor
    case decided =>
      intro cid' d h
      have hd := h6 h
      by_cases he : cid' = cid
      · subst he
        rw [hc] at hd
        simp only [finish, Function.update_self]
        exact hd
      · simpa only [finish, Function.update_of_ne he] using hd
    all_goals simp only [finish, Function.update_apply]; grind [ToolCall.reqId, ToolCall.waitsFor]
  · cases h

lemma abandon_step (h : s.step (.abandon cid) = some t) : t.WireInv := by
  rw [step] at h
  split at h
  · rename_i r fut hc
    cases h
    have hown := hi.owner hc
    obtain ⟨h1, h2, h3, h4, h5, h6, h7, h8, h9, h10⟩ := hi
    constructor
    case decided =>
      intro cid' d h
      have hd := h6 h
      by_cases he : cid' = cid
      · subst he
        simp only [finish, Function.update_self]
        trivial
      · simpa only [finish, Function.update_of_ne he] using hd
    all_goals simp only [finish, Function.update_apply]; grind [ToolCall.reqId, ToolCall.waitsFor]
  · cases h

/-- Reading a frame that is no decision. -/
lemma skip {f : ControlFrame} {rest : List ControlFrame} (hin : s.inbound = f :: rest)
    (hf : f.isDecision = false) : WireInv { s with inbound := rest } := by
  have hmem : ∀ {r d}, ControlFrame.toolDecision r d ∈ s.inbound ↔
      ControlFrame.toolDecision r d ∈ rest := by
    intro r d
    rw [hin, List.mem_cons, or_iff_right]
    rintro rfl
    cases hf
  exact
    { hi with
      decided := fun h => (hi.decided h).mono fun _ => hmem.mp
      letters := fun h => hi.letters (hmem.mpr h) }

/-- A decision reaches the request that waits for it. -/
lemma deliver {rest : List ControlFrame} (hin : s.inbound = .toolDecision r d :: rest)
    (hp : s.pending r = some cid) (hc : s.calls cid = .waiting r none) :
    WireInv ({ s with inbound := rest }.deliver r d) := by
  have hself : (s.calls cid).reqId = some r := by
    rw [hc]
    rfl
  -- the decision is the one the host sent for this very call
  obtain ⟨cid', ha, hd⟩ := hi.letters (r := r) (d := d) (by simp [hin])
  have heq : cid' = cid := hi.distinct (hi.asked ha) hself
  subst heq
  have hother : ∀ {cid₁ r₁ d₁}, cid₁ ≠ cid' → (s.calls cid₁).reqId = some r₁ →
      ControlFrame.toolDecision r₁ d₁ ∈ s.inbound → ControlFrame.toolDecision r₁ d₁ ∈ rest := by
    intro cid₁ r₁ d₁ hne hr hmem
    rw [hin, List.mem_cons] at hmem
    refine hmem.resolve_left fun he => hne (hi.distinct hr ?_)
    cases he
    exact hself
  simp only [Wire.deliver, hp, setCall, hc, ToolCall.settle]
  obtain ⟨h1, h2, h3, h4, h5, h6, h7, h8, h9, h10⟩ := hi
  constructor
  case decided =>
    intro cid₁ d₁ h
    have hd₁ := h6 h
    by_cases he : cid₁ = cid'
    · subst he
      simp only [Function.update_self]
      exact Option.some.inj (hd.symm.trans h)
    · simp only [Function.update_of_ne he]
      exact hd₁.mono (hother he)
  case letters =>
    intro r₁ d₁ h
    exact h8 (by rw [hin]; exact List.mem_cons_of_mem _ h)
  all_goals simp only [Function.update_apply]; grind [ToolCall.reqId, ToolCall.waitsFor]

/-- The loop ends with no decision unread. -/
lemma exit (hin : ∀ f ∈ s.inbound, f.isDecision = false) : WireInv s.exit := by
  have hnone : ∀ {r d}, ControlFrame.toolDecision r d ∉ s.inbound := fun h => by
    cases hin _ h
  have hcalls : ∀ cid, s.exit.calls cid = (s.calls cid).settle .deny := by
    intro cid
    simp only [Wire.exit]
    split
    · rfl
    · rename_i hn
      cases hc : s.calls cid with
      | waiting r fut =>
          have hp : s.pending r = some cid := hi.pending.mpr (by rw [hc]; rfl)
          rw [hc] at hn
          exact absurd hp hn
      | _ => rfl
  constructor
  case absent =>
    intro cid h
    rw [hcalls, hi.absent h]
    rfl
  case distinct =>
    intro cid cid' r h h'
    rw [hcalls] at h h'
    exact hi.distinct (by simpa using h) (by simpa using h')
  case pending =>
    intro cid r
    rw [hcalls, ToolCall.waitsFor_settle]
    exact hi.pending
  case asked =>
    intro cid r h
    rw [hcalls]
    simpa using hi.asked h
  case sending =>
    intro cid r h
    rw [hcalls] at h
    exact hi.sending (by simpa using h)
  case decided =>
    intro cid d h
    rw [hcalls]
    exact (hi.decided h).settle hnone
  case silent => exact hi.silent
  case letters => exact fun h => absurd h hnone
  case ended =>
    intro _ cid r
    rw [hcalls]
    exact ToolCall.settle_ne_waiting_none _ _ _
  case unanswered => exact fun h => absurd h (by simp [Wire.exit])

lemma take_step (hg : WireGuard s .take) (h : s.step .take = some t) : t.WireInv := by
  rw [step] at h
  split at h
  · rename_i frame rest hexit hin
    cases h
    cases frame with
    | toolDecision r d =>
        simp only [WireGuard, hin] at hg
        obtain ⟨cid, hp, hc⟩ := hg
        exact hi.deliver hin hp hc
    | shutdown =>
        simp only [WireGuard, hin] at hg
        have hs := hi.skip hin rfl
        have hs' : WireInv { s with inbound := rest, shutdownRequested := true } := { hs with }
        exact hs'.exit hg
    | other => exact hi.skip hin rfl
  · cases h

/-- The host sends a frame that is no decision. -/
lemma push {f : ControlFrame} (hf : f.isDecision = false) : WireInv (s.push f) := by
  have hmem : ∀ {r d}, ControlFrame.toolDecision r d ∈ s.inbound ++ [f] ↔
      ControlFrame.toolDecision r d ∈ s.inbound := by
    intro r d
    rw [List.mem_append, or_iff_left]
    intro h
    rw [List.mem_singleton] at h
    subst h
    cases hf
  exact
    { hi with
      decided := fun h => (hi.decided h).mono fun _ => hmem.mpr
      letters := fun h => hi.letters (hmem.mp h) }

lemma hostDecide_step (hg : s.exited = false) (h : s.step (.hostDecide cid d) = some t) :
    t.WireInv := by
  rw [step] at h
  split at h
  · rename_i r ha
    split at h
    · rename_i hfresh
      cases h
      have hr := hi.asked ha
      have hun := hi.unanswered hg ha hfresh.1
      obtain ⟨h1, h2, h3, h4, h5, h6, h7, h8, h9, h10⟩ := hi
      constructor
      case decided =>
        intro cid' d' h
        by_cases he : cid' = cid
        · subst he
          simp only [Function.update_self, Option.some.injEq] at h
          subst h
          simp only [Wire.push]
          rcases hun with hc | hc | hc
          · rw [hc]
            exact ⟨hg, by simp⟩
          · rw [hc]
            exact ⟨hg, by simp⟩
          · rw [hc]
            trivial
        · simp only [Function.update_of_ne he] at h
          exact (h6 h).mono fun _ hm => List.mem_append_left _ hm
      case letters =>
        intro r' d' h
        simp only [Wire.push, List.mem_append, List.mem_singleton] at h
        rcases h with h | h
        · obtain ⟨cid', ha', hd'⟩ := h8 h
          have hne : cid' ≠ cid := fun he => by simp [he, hfresh.1] at hd'
          exact ⟨cid', ha', by simp only [Function.update_of_ne hne, hd']⟩
        · cases h
          exact ⟨cid, ha, by simp only [Function.update_self]⟩
      all_goals simp only [Wire.push, Function.update_apply]; grind [ToolCall.reqId]
    · cases h
  · cases h

end WireInv

/-- Every admitted step keeps the invariant. -/
theorem WireInv.step {s t : Wire} {l : WireLabel} (hi : s.WireInv) (hg : WireGuard s l)
    (h : s.step l = some t) : t.WireInv := by
  cases l with
  | begin r => exact hi.begin_step hg h
  | sendFrame cid => exact hi.sendFrame_step h
  | sendFails cid => exact hi.sendFails_step h
  | register cid => exact hi.register_step hg h
  | wake cid => exact hi.wake_step h
  | abandon cid => exact hi.abandon_step h
  | take => exact hi.take_step hg h
  | eof =>
      simp only [Wire.step, Option.ite_none_right_eq_some, Option.some.injEq] at h
      obtain ⟨⟨_, hin, _⟩, rfl⟩ := h
      exact hi.exit (by simp [hin])
  | fail =>
      simp only [Wire.step, Option.ite_none_right_eq_some, Option.some.injEq] at h
      obtain ⟨_, rfl⟩ := h
      exact hi.exit hg
  | hostDecide cid d => exact hi.hostDecide_step hg h
  | hostShutdown =>
      simp only [Wire.step, Option.ite_none_right_eq_some, Option.some.injEq] at h
      obtain ⟨_, rfl⟩ := h
      exact hi.push rfl
  | hostOther =>
      simp only [Wire.step, Option.ite_none_right_eq_some, Option.some.injEq] at h
      obtain ⟨_, rfl⟩ := h
      exact hi.push rfl
  | hostClose =>
      cases h
      exact { hi with }

lemma wireInv_init : WireInv {} := by
  constructor <;> simp [ToolCall.reqId, ToolCall.waitsFor]

lemma wireInv_of_reachable {s : Wire} (h : wireSystem.ReachableVia WireGuard s) : s.WireInv := by
  refine h.invariant (fun s hs => ?_) fun s l t hi hg hs => hi.step hg hs
  rw [show s = {} from hs]
  exact wireInv_init

/-! ### The runner's side comes to rest -/

section Work

variable {s t : Wire} {cid : ℕ} {r : ReqId} {d : Decision}

lemma tally_setCall {p : ToolCall → Bool} {c : ToolCall} (hlt : cid < s.nextCall) :
    tally p (Function.update s.calls cid c) s.nextCall + (p (s.calls cid)).toNat
      = tally p s.calls s.nextCall + (p c).toNat :=
  tally_update p s.calls hlt c

lemma work_exit (h : s.exited = false) : s.exit.work < s.work := by
  have h1 : tally ToolCall.toEnter s.exit.calls s.nextCall
      = tally ToolCall.toEnter s.calls s.nextCall :=
    tally_congr _ fun cid _ => by
      simp only [exit]
      split <;> simp
  have h2 : tally ToolCall.toReturn s.exit.calls s.nextCall
      = tally ToolCall.toReturn s.calls s.nextCall :=
    tally_congr _ fun cid _ => by
      simp only [exit]
      split <;> simp
  have hcalls : s.exit.nextCall = s.nextCall ∧ s.exit.inbound = s.inbound := ⟨rfl, rfl⟩
  rw [work, work, hcalls.1, hcalls.2, h1, h2, h]
  simp [exit]

lemma work_deliver : (s.deliver r d).work = s.work := by
  rw [deliver]
  cases s.pending r with
  | none => rfl
  | some cid =>
      have h1 : tally ToolCall.toEnter (Function.update s.calls cid ((s.calls cid).settle d))
          s.nextCall = tally ToolCall.toEnter s.calls s.nextCall :=
        tally_update_congr _ _ (by simp)
      have h2 : tally ToolCall.toReturn (Function.update s.calls cid ((s.calls cid).settle d))
          s.nextCall = tally ToolCall.toReturn s.calls s.nextCall :=
        tally_update_congr _ _ (by simp)
      simp only [work, setCall, h1, h2]

lemma work_step {l : WireLabel} (hi : s.WireInv) (hl : l.Own) (h : s.step l = some t) :
    t.work < s.work := by
  have hlt : ∀ {cid}, s.calls cid ≠ .absent → cid < s.nextCall := by
    intro cid hne
    by_contra hle
    exact hne (hi.absent (by omega))
  cases l with
  | register cid =>
      rw [step] at h
      split at h
      · rename_i r hc
        have hcid : cid < s.nextCall := hlt (by simp [hc])
        split at h
        · cases h
          have h1 := tally_setCall (p := ToolCall.toEnter) (c := .raised r) hcid
          have h2 := tally_setCall (p := ToolCall.toReturn) (c := .raised r) hcid
          simp only [hc, ToolCall.toEnter, ToolCall.toReturn, Bool.toNat_true,
            Bool.toNat_false] at h1 h2
          simp only [work, setCall]
          omega
        · cases h
          have h1 := tally_setCall (p := ToolCall.toEnter) (c := .waiting r none) hcid
          have h2 := tally_setCall (p := ToolCall.toReturn) (c := .waiting r none) hcid
          simp only [hc, ToolCall.toEnter, ToolCall.toReturn, Bool.toNat_true,
            Bool.toNat_false] at h1 h2
          simp only [work, setCall]
          omega
      · cases h
  | wake cid =>
      rw [step] at h
      split at h
      · rename_i r d hc
        cases h
        have hcid : cid < s.nextCall := hlt (by simp [hc])
        have h1 := tally_setCall (p := ToolCall.toEnter) (c := .returned r d) hcid
        have h2 := tally_setCall (p := ToolCall.toReturn) (c := .returned r d) hcid
        simp only [hc, ToolCall.toEnter, ToolCall.toReturn, Bool.toNat_true,
          Bool.toNat_false] at h1 h2
        simp only [work, finish]
        omega
      · cases h
  | take =>
      rw [step] at h
      split at h
      · rename_i frame rest hexit hin
        cases h
        have hrest : work { s with inbound := rest } < s.work := by
          simp [work, hin]
        cases frame with
        | toolDecision r d => exact work_deliver.trans_lt hrest
        | shutdown =>
            have hlt : work (exit { s with inbound := rest, shutdownRequested := true })
                < work { s with inbound := rest, shutdownRequested := true } := work_exit hexit
            exact hlt.trans hrest
        | other => exact hrest
      · cases h
  | eof =>
      simp only [step, Option.ite_none_right_eq_some, Option.some.injEq] at h
      obtain ⟨⟨hexit, _⟩, rfl⟩ := h
      exact work_exit hexit
  | _ => exact hl.elim

end Work

/-! ### Nothing is lost, nobody is stranded -/

variable {s : Wire} {cid : ℕ} {r : ReqId}

lemma Quiet.not_sent (hq : s.Quiet) : s.calls cid ≠ .sent r := by
  intro hc
  have := hq (.register cid) trivial
  simp only [step, hc] at this
  split at this <;> cases this

lemma Quiet.not_done (hq : s.Quiet) {d : Decision} : s.calls cid ≠ .waiting r (some d) := by
  intro hc
  have := hq (.wake cid) trivial
  simp [step, hc] at this

lemma Quiet.inbound_eq_nil (hq : s.Quiet) (h : s.exited = false) : s.inbound = [] := by
  cases hin : s.inbound with
  | nil => rfl
  | cons frame rest =>
      have := hq .take trivial
      simp [step, h, hin] at this

theorem WireInv.settles (hi : s.WireInv) : s.Settles where
  terminates := work_step hi
  exact hd hc := by
    have := hi.decided hd
    rw [hc] at this
    exact this
  returns hq {cid d} hd := by
    have hh := hi.decided hd
    rcases hc : s.calls cid with _ | _ | r | ⟨r, _ | e⟩ | ⟨r, e⟩ | _ | r
    case sent => exact absurd hc hq.not_sent
    case waiting.none =>
      rw [hc] at hh
      have hin := hq.inbound_eq_nil hh.1
      exact absurd hh.2 (by simp [hin])
    case waiting.some => exact absurd hc hq.not_done
    case returned =>
      rw [hc] at hh
      exact ⟨r, .inl (by rw [show e = d from hh])⟩
    case cancelled => exact ⟨r, .inr rfl⟩
    all_goals
      rw [hc] at hh
      exact hh.elim
  unstranded hex {cid r fut} hc := by
    cases fut with
    | none => exact absurd hc (hi.ended hex)
    | some d =>
        refine ⟨d, s.finish cid r (.returned r d), ?_, ?_⟩
        · rw [Wire.step, hc]
        · simp only [finish, Function.update_self]
  ends hex hq {cid r} hr := by
    rcases hc : s.calls cid with _ | r' | r' | ⟨r', _ | e⟩ | _ | _ | _
    case absent =>
      rw [hc] at hr
      cases hr
    case sending =>
      rw [hc] at hr
      cases hr
      exact .inr rfl
    case sent => exact absurd hc hq.not_sent
    case waiting.none => exact absurd hc (hi.ended hex)
    case waiting.some => exact absurd hc hq.not_done
    all_goals exact .inl trivial

end Wire

open Wire

/-- **In every run whose steps meet the guard, the wire loses no decision and strands no
caller.** -/
theorem wire_settles {s : Wire} (h : wireSystem.ReachableVia WireGuard s) : s.Settles :=
  (wireInv_of_reachable h).settles

/-- A request is sent, registered and decided; the runner is left to itself. -/
def decidedRun : List WireLabel :=
  [.begin "r-1", .sendFrame 0, .register 0, .hostDecide 0 .accept, .take, .wake 0]

/-- The host asks the runner to stop, and the runner asks for one more decision. -/
def lateRun : List WireLabel :=
  [.hostShutdown, .take, .begin "r-1", .sendFrame 0, .register 0]

/-- A request decided in time returns its decision. -/
theorem wire_settles_of_decision :
    ∃ s, wireSystem.run {} decidedRun = some s ∧ wireSystem.ReachableVia WireGuard s ∧
      s.decided 0 = some .accept ∧ s.calls 0 = .returned "r-1" .accept ∧ s.Settles := by
  have h0 : wireSystem.ReachableVia WireGuard {} := .init rfl
  have h1 := h0.step (l := WireLabel.begin "r-1") (fun _ => by simp [ToolCall.reqId]) rfl
  have h2 := h1.step (l := WireLabel.sendFrame 0) trivial rfl
  have h3 := h2.step (l := WireLabel.register 0) rfl rfl
  have h4 := h3.step (l := WireLabel.hostDecide 0 .accept) rfl rfl
  have h5 := h4.step (l := WireLabel.take) ⟨0, rfl, rfl⟩ rfl
  have h6 := h5.step (l := WireLabel.wake 0) trivial rfl
  exact ⟨_, rfl, h6, rfl, rfl, wire_settles h6⟩

/-- **A request registered after the loop has exited waits for ever.** -/
theorem late_request_is_stranded :
    ∃ s, wireSystem.run {} lateRun = some s ∧ wireSystem.Reachable s ∧ s.exited = true ∧
      s.Quiet ∧ s.calls 0 = .waiting "r-1" none ∧ ¬ s.Settles := by
  have hreach : wireSystem.Reachable {} := .init rfl
  obtain ⟨s, hs⟩ : ∃ s, wireSystem.run {} lateRun = some s := ⟨_, rfl⟩
  have hcall : s.calls = Function.update (Function.update (Function.update (fun _ => .absent) 0
      (.sending "r-1")) 0 (.sent "r-1")) 0 (.waiting "r-1" none) := by
    cases hs
    rfl
  have hexit : s.exited = true := by
    cases hs
    rfl
  have hwait : s.calls 0 = .waiting "r-1" none := by
    rw [hcall]
    rfl
  refine ⟨s, hs, hreach.of_run hs, hexit, ?_, hwait, fun h => ?_⟩
  · intro l hl
    have hother : ∀ cid, cid ≠ 0 → s.calls cid = .absent := fun cid hne => by
      simp [hcall, Function.update_of_ne hne]
    cases l with
    | register cid =>
        by_cases hc : cid = 0
        · simp [step, hc, hwait]
        · simp [step, hother cid hc]
    | wake cid =>
        by_cases hc : cid = 0
        · simp [step, hc, hwait]
        · simp [step, hother cid hc]
    | take => simp [step, hexit]
    | eof => simp [step, hexit]
    | _ => exact hl.elim
  · obtain ⟨d, t, ht, -⟩ := h.unstranded hexit hwait
    simp [step, hwait] at ht

end GgRelay.Hitl
