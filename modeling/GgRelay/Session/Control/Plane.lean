import GgRelay.Session.Control.Link
import GgRelay.Session.Manager.Frame
import GgRelay.Session.Manager.WellFormed

/-!
The session manager with the control plane of one of its sessions: does the host's `_paused_set`
say what the runner's `_paused` says?

The manager of `Session.Manager` takes the answer of `bridge.pause` and `bridge.resume` from its
environment; here that environment is the link of the session `sid`, and the answers are those of
its runner.

* `Plane` is the product, `Plane.step` lets the two move together where a call sends a request or
  comes back with an ack;
* `ControlGuard` is the condition: the runner carries out only requests somebody still waits for,
  and nobody stops waiting when a positive ack is already on its way;
* `pausedness_agrees` is the result about runs, `late_pause_disagrees` a run in which the runner
  carries out a `pause` that has timed out.
-/

namespace GgRelay

/-- The request about `sid` that a call waits for the ack of. -/
def Call.awaiting (sid : SessionId) : Call → Option ControlOp
  | .pause s (.ack _) => if s = sid then some .pause else none
  | .resume s (.ack _) => if s = sid then some .resume else none
  | _ => none

/-- The manager and the control plane of one of its sessions. -/
structure Plane where
  m : Manager
  link : Link
  /-- history: the session has been cancelled -/
  cancelled : Bool := false

/-- A step of the manager, of the transport or of the runner. -/
inductive PlaneLabel where
  | host (l : Label)
  | route
  | recv
  | sdk (failure : Option String)
  | routeAck
  | close
  deriving DecidableEq

namespace Plane

/-- What a step of the manager, to `m'`, does to the link: a call comes back with what the link
has for it, or sends a request. -/
def bridge (sid : SessionId) (s : Plane) (m' : Manager) : Label → Option Link
  | .call cid r =>
      match (s.m.calls cid).awaiting sid, (m'.calls cid).awaiting sid with
      | some _, _ => s.link.reply cid r
      | none, some op => some (s.link.request cid op)
      | none, none => some s.link
  | _ => some s.link

/-- A step of the product. -/
def step (cfg : ManagerConfig) (sid : SessionId) (s : Plane) : PlaneLabel → Option Plane
  | .host l =>
      (s.m.step cfg l).bind fun m' => (s.bridge sid m' l).map fun k =>
        { m := m', link := k, cancelled := s.cancelled || decide (s.m.cancels l = some sid) }
  | .route => s.link.route.map fun k => { s with link := k }
  | .recv => s.link.recv.map fun k => { s with link := k }
  | .sdk failure => (s.link.sdk failure).map fun k => { s with link := k }
  | .routeAck => s.link.routeAck.map fun k => { s with link := k }
  | .close => some { s with link := s.link.close }

end Plane

/-- The product, over any store content left by earlier processes. -/
def planeSystem (cfg : ManagerConfig) (backend : Backend) (sid : SessionId) :
    System Plane PlaneLabel where
  init s := ∃ rows, s = { m := .fresh cfg rows, link := { backend := backend } }
  step s l := s.step cfg sid l

namespace Manager

variable {cfg : ManagerConfig} {m m' : Manager} {l : Label} {sid : SessionId} {cid : CallId}

/-! ### What the manager does at its end -/

/-- The task of a session does not come back from its `finally` block. -/
lemma ended_step (hw : m.WellFormed) (h : Move cfg m l m')
    (he : (m.sess sid).run.phase = .settling ∨ (m.sess sid).run.phase = .settled) :
    (m'.sess sid).run.phase = .settling ∨ (m'.sess sid).run.phase = .settled := by
  have hsub := hw.submitting
  cases h with
  | _ =>
    simp [Function.update_apply] <;> grind

/-- Only an ack, a `cancel` and the end of the session change whether it is paused. -/
lemma mem_pausedSet_step (h : Move cfg m l m') (hp : m.pauseAck l ≠ some sid)
    (hr : m.resumeAck l ≠ some sid) (hc : m.cancels l ≠ some sid)
    (he : (m'.sess sid).run.phase ≠ .settling) : sid ∈ m'.pausedSet ↔ sid ∈ m.pausedSet := by
  revert he
  cases h with
  | _ =>
    simp [Function.update_apply] <;> grind

/-- A call that waits for an ack. -/
lemma awaiting_eq_some {op : ControlOp} (h : (m.calls cid).awaiting sid = some op) :
    (∃ v, m.calls cid = .pause sid (.ack v) ∧ op = .pause) ∨
      ∃ v, m.calls cid = .resume sid (.ack v) ∧ op = .resume := by
  unfold Call.awaiting at h
  split at h
  · rename_i s v hc
    obtain ⟨rfl, hop⟩ := Option.ite_none_right_eq_some.mp h
    exact Or.inl ⟨v, hc, (Option.some.inj hop).symm⟩
  · rename_i s v hc
    obtain ⟨rfl, hop⟩ := Option.ite_none_right_eq_some.mp h
    exact Or.inr ⟨v, hc, (Option.some.inj hop).symm⟩
  · simp at h

/-- Nobody else's step moves a call that waits for an ack. -/
lemma awaiting_of_other (hw : m.WellFormed) (h : m.step cfg l = some m')
    (hl : ∀ r, l ≠ .call cid r) {op : ControlOp} (ha : (m.calls cid).awaiting sid = some op) :
    (m'.calls cid).awaiting sid = some op := by
  have hf : (m.calls cid).cancelTask = m.calls cid ∧ m.calls cid ≠ .idle ∧
      m.callCommit cid = none := by
    rcases awaiting_eq_some ha with ⟨v, hc, -⟩ | ⟨v, hc, -⟩ <;>
      exact ⟨by rw [hc]; rfl, by simp [hc], by simp [callCommit, hc]⟩
  have hrun : l.runs cid = false := by
    cases l with
    | call c r =>
        have : c ≠ cid := fun he => hl r (by rw [he])
        simpa [Label.runs] using this
    | callCommit c =>
        have : c ≠ cid := by
          rintro rfl
          simp [step, hf.2.2] at h
        simpa [Label.runs] using this
    | _ => rfl
  rw [step_calls_of_other hf.1 h hrun (hw.cid_lt hf.2.1), ha]

/-- The ack of a call decides whether its session is paused. -/
lemma awaited_step {op : ControlOp} {r : Reply} (ha : (m.calls cid).awaiting sid = some op)
    (h : m.step cfg (.call cid r) = some m') :
    (∃ b, r = .ack b ∧
      (decide (sid ∈ m'.pausedSet) = if b then decide (op = .pause) else decide (sid ∈ m.pausedSet))) ∨
    ∃ e, r = .raise e ∧ m'.pausedSet = m.pausedSet := by
  simp only [step, callStep] at h
  rcases awaiting_eq_some ha with ⟨v, hc, rfl⟩ | ⟨v, hc, rfl⟩
  · rw [hc] at h
    cases r with
    | ack b =>
        refine Or.inl ⟨b, rfl, ?_⟩
        cases b <;> cases h <;> simp
    | raise e =>
        cases h
        exact Or.inr ⟨e, rfl, rfl⟩
    | ok | credentials | started | swallowed => simp [pauseStep] at h
  · rw [hc] at h
    cases r with
    | ack b =>
        refine Or.inl ⟨b, rfl, ?_⟩
        cases b <;> cases h <;> simp
    | raise e =>
        cases h
        exact Or.inr ⟨e, rfl, rfl⟩
    | ok | credentials | started | swallowed => simp [resumeStep] at h

/-- An ack that the manager goes on after is one that a call waits for. -/
lemma awaiting_of_ack (h : m.pauseAck l = some sid ∨ m.resumeAck l = some sid) :
    ∃ cid, l = .call cid (.ack true) ∧ ((m.calls cid).awaiting sid).isSome := by
  rcases h with h | h
  · unfold pauseAck at h
    split at h
    · rename_i cid
      split at h
      · rename_i s v hc
        cases h
        exact ⟨cid, rfl, by simp [hc, Call.awaiting]⟩
      · simp at h
    · simp at h
  · unfold resumeAck at h
    split at h
    · rename_i cid
      split at h
      · rename_i s v hc
        cases h
        exact ⟨cid, rfl, by simp [hc, Call.awaiting]⟩
      · simp at h
    · simp at h

end Manager

/-! ### The condition, and the invariant -/

/-- The steps that keep the two sides in agreement: the SDK call that succeeds is that of a request
somebody waits for, and a call stops waiting only when no positive ack for it is on its way. -/
def ControlGuard (sid : SessionId) (s : Plane) : PlaneLabel → Prop
  | .sdk none => ∀ msg ∈ s.link.loop.handling, msg.reqId ∈ s.link.futs.map (·.1)
  | .host (.call cid (.raise _)) =>
      ((s.m.calls cid).awaiting sid).isSome →
        (∀ p ∈ s.link.ready, p.1 = cid → p.2.ok = false) ∧
          ∀ a ∈ s.link.up, a.ok = true → (a.reqId, cid) ∉ s.link.futs
  | _ => True

instance (sid : SessionId) (s : Plane) (l : PlaneLabel) : Decidable (ControlGuard sid s l) := by
  unfold ControlGuard
  split <;> infer_instance

/-- The task of the session has got into its `finally` block. -/
def Plane.ended (sid : SessionId) (s : Plane) : Prop :=
  (s.m.sess sid).run.phase = .settling ∨ (s.m.sess sid).run.phase = .settled

/-- The link is sound, and as long as the session is neither cancelled nor over the host's flag
will be the runner's. -/
structure PlaneInv (sid : SessionId) (s : Plane) : Prop where
  sound : s.link.Sound fun cid => (s.m.calls cid).awaiting sid
  agrees : s.cancelled = false → s.link.alive = true → ¬s.ended sid →
    s.link.Agrees (decide (sid ∈ s.m.pausedSet))

namespace PlaneInv

variable {cfg : ManagerConfig} {sid : SessionId} {s s' : Plane} {l : Label}

lemma fresh (cfg : ManagerConfig) (backend : Backend) (rows : List SessionRow) :
    PlaneInv sid { m := .fresh cfg rows, link := { backend := backend } } where
  sound := ⟨by simp, by simp, by simp, by simp, by simp [Link.travelling],
    by simp [Link.travelling], by simp, by simp⟩
  agrees _ _ _ := by
    simp [Link.Agrees, Link.settled, Link.positives, Manager.fresh]

/-- A step of the manager about no ack that a call waits for. -/
lemma agrees_host {m' : Manager} {k : Link} (hi : PlaneInv sid s) (hw : s.m.WellFormed)
    (hm : s.m.step cfg l = some m') (hk : k.Agrees = s.link.Agrees ∧ k.alive = s.link.alive)
    (hn : ∀ cid, l = .call cid (.ack true) → (s.m.calls cid).awaiting sid = none)
    (hc : (s.cancelled || decide (s.m.cancels l = some sid)) = false) (halive : k.alive = true)
    (he : ¬((m'.sess sid).run.phase = .settling ∨ (m'.sess sid).run.phase = .settled)) :
    k.Agrees (decide (sid ∈ m'.pausedSet)) := by
  have hmove := Manager.step_move hm
  have hack : ¬(s.m.pauseAck l = some sid ∨ s.m.resumeAck l = some sid) := fun h => by
    obtain ⟨cid, hl, ha⟩ := Manager.awaiting_of_ack h
    rw [hn cid hl] at ha
    simp at ha
  rw [not_or] at hack he
  simp only [Bool.or_eq_false_iff, decide_eq_false_iff_not] at hc
  rw [hk.1, decide_eq_decide.mpr (Manager.mem_pausedSet_step hmove hack.1 hack.2 hc.2 he.1)]
  exact hi.agrees hc.1 (hk.2 ▸ halive) fun hend =>
    (not_or.mpr he) (Manager.ended_step hw hmove hend)

lemma host (hi : PlaneInv sid s) (hw : s.m.WellFormed) (hg : ControlGuard sid s (.host l))
    (h : s.step cfg sid (.host l) = some s') : PlaneInv sid s' := by
  obtain ⟨m', hm, h⟩ := Option.bind_eq_some_iff.mp h
  obtain ⟨k, hk, rfl⟩ := Option.map_eq_some_iff.mp h
  have hmove := Manager.step_move hm
  by_cases hl : ∃ cid r, l = .call cid r
  · obtain ⟨cid, r, rfl⟩ := hl
    -- the calls of others stay where they are
    have hothers : ∀ c op, c ≠ cid → (s.m.calls c).awaiting sid = some op →
        (m'.calls c).awaiting sid = some op := fun c op hne ha =>
      Manager.awaiting_of_other hw hm (fun r he => hne (by cases he; rfl)) ha
    have hgone : ∀ c op, Function.update (fun c => (s.m.calls c).awaiting sid) cid none c = some op →
        (m'.calls c).awaiting sid = some op := by
      intro c op ha
      by_cases hne : c = cid
      · subst hne
        simp at ha
      · rw [Function.update_of_ne hne] at ha
        exact hothers c op hne ha
    cases ha : (s.m.calls cid).awaiting sid with
    | some op =>
        simp only [Plane.bridge, ha] at hk
        have hnc : s.m.cancels (.call cid r) ≠ some sid := by
          rcases Manager.awaiting_eq_some ha with ⟨v, hc, -⟩ | ⟨v, hc, -⟩ <;>
            simp [Manager.cancels, hc]
        rcases Manager.awaited_step ha hm with ⟨b, rfl, hb⟩ | ⟨e, rfl, hp⟩
        · obtain ⟨op', hop', hsound, halive, hag⟩ := hi.sound.reply hk
          have hop : op' = op := by simpa [ha, eq_comm] using hop'
          refine ⟨hsound.mono hgone, fun hc hal he => ?_⟩
          simp only [Bool.or_eq_false_iff] at hc
          rw [hb, ← hop]
          exact hag (hi.agrees hc.1 (halive ▸ hal) fun hend =>
            he (Manager.ended_step hw hmove hend))
        · obtain ⟨hready, hup⟩ := hg (by simp [ha])
          obtain ⟨hsound, halive, hag⟩ :=
            @Link.Sound.abandon _ _ _ (decide (sid ∈ s.m.pausedSet)) hi.sound hready hup
          cases hk
          refine ⟨hsound.mono hgone, fun hc hal he => ?_⟩
          simp only [Bool.or_eq_false_iff] at hc
          rw [hp]
          exact hag (hi.agrees hc.1 (halive ▸ hal) fun hend =>
            he (Manager.ended_step hw hmove hend))
    | none =>
        have hn : ∀ c, Label.call cid r = .call c (.ack true) →
            (s.m.calls c).awaiting sid = none := fun c he => by
          cases he
          exact ha
        cases ha' : (m'.calls cid).awaiting sid with
        | some op =>
            simp only [Plane.bridge, ha, ha', Option.some.injEq] at hk
            subst hk
            refine ⟨(hi.sound.request ha).mono fun c op' hop => ?_, fun hc hal he => ?_⟩
            · by_cases hne : c = cid
              · subst hne
                rw [Function.update_self] at hop
                rw [ha', hop]
              · rw [Function.update_of_ne hne] at hop
                exact hothers c op' hne hop
            · refine agrees_host hi hw hm ⟨?_, Link.request_alive⟩ hn hc hal he
              funext p
              rw [Link.Agrees, Link.request_loop, Link.settled_request, Link.Agrees]
        | none =>
            simp only [Plane.bridge, ha, ha', Option.some.injEq] at hk
            subst hk
            refine ⟨hi.sound.mono fun c op' hop => ?_, fun hc hal he =>
              agrees_host hi hw hm ⟨rfl, rfl⟩ hn hc hal he⟩
            exact hothers c op' (by rintro rfl; simp [ha] at hop) hop
  · have hn : ∀ c, l = .call c (.ack true) → (s.m.calls c).awaiting sid = none := fun c he =>
      absurd ⟨c, _, he⟩ hl
    have hk' : k = s.link := by
      cases l with
      | call c r => exact absurd ⟨c, r, rfl⟩ hl
      | _ => simpa [Plane.bridge, eq_comm] using hk
    subst hk'
    refine ⟨hi.sound.mono fun c op ha => ?_, fun hc hal he =>
      agrees_host hi hw hm ⟨rfl, rfl⟩ hn hc hal he⟩
    exact Manager.awaiting_of_other hw hm (fun r he => hl ⟨c, r, he⟩) ha

theorem step {l : PlaneLabel} (hi : PlaneInv sid s) (hw : s.m.WellFormed)
    (hg : ControlGuard sid s l) (h : s.step cfg sid l = some s') : PlaneInv sid s' := by
  cases l with
  | host l => exact hi.host hw hg h
  | route =>
      obtain ⟨k, hk, rfl⟩ := Option.map_eq_some_iff.mp h
      obtain ⟨hsound, halive, hag⟩ := hi.sound.route hk
      exact ⟨hsound, fun hc hal he => hag (hi.agrees hc (halive ▸ hal) he)⟩
  | recv =>
      obtain ⟨k, hk, rfl⟩ := Option.map_eq_some_iff.mp h
      obtain ⟨hsound, halive, hag⟩ := hi.sound.recv hk
      exact ⟨hsound, fun hc hal he => hag (halive ▸ hal) (hi.agrees hc (halive ▸ hal) he)⟩
  | sdk failure =>
      obtain ⟨k, hk, rfl⟩ := Option.map_eq_some_iff.mp h
      obtain ⟨hsound, halive, hag⟩ := hi.sound.sdk hk (by rintro rfl; exact hg)
      exact ⟨hsound, fun hc hal he => hag (halive ▸ hal) (hi.agrees hc (halive ▸ hal) he)⟩
  | routeAck =>
      obtain ⟨k, hk, rfl⟩ := Option.map_eq_some_iff.mp h
      obtain ⟨hsound, halive, hag⟩ := hi.sound.routeAck hk
      exact ⟨hsound, fun hc hal he => hag (hi.agrees hc (halive ▸ hal) he)⟩
  | close =>
      cases h
      refine ⟨⟨hi.sound.asked, hi.sound.answered, hi.sound.once, hi.sound.keys, hi.sound.ids,
        hi.sound.numbered, hi.sound.delivered, hi.sound.direct⟩, fun _ hal _ => ?_⟩
      simp [Link.close] at hal

end PlaneInv

section Runs

variable {cfg : ManagerConfig} {backend : Backend} {sid : SessionId} {s : Plane}
  {ok : Plane → PlaneLabel → Prop}

/-- A run of the product is a run of the manager. -/
lemma reachable_manager (h : (planeSystem cfg backend sid).ReachableVia ok s) :
    (managerSystem cfg).Reachable s.m := by
  induction h with
  | init h0 =>
      obtain ⟨rows, rfl⟩ := h0
      exact .init ⟨rows, rfl⟩
  | @step s t l _ _ hs ih =>
      cases l with
      | host l =>
          obtain ⟨m', hm, hs⟩ := Option.bind_eq_some_iff.mp hs
          obtain ⟨k, -, rfl⟩ := Option.map_eq_some_iff.mp hs
          exact .step ih trivial hm
      | route | recv | sdk | routeAck =>
          obtain ⟨k, -, rfl⟩ := Option.map_eq_some_iff.mp hs
          exact ih
      | close =>
          cases hs
          exact ih

/-- The session runs, nobody has cancelled it, and its transport is open. -/
def Plane.Live (sid : SessionId) (s : Plane) : Prop :=
  (s.m.sess sid).run.phase = .held ∧ s.cancelled = false ∧ s.link.alive = true

instance (sid : SessionId) (s : Plane) : Decidable (s.Live sid) := by
  unfold Plane.Live
  infer_instance

/-- When nothing is in flight, the host and the runner of a live session agree on whether it is
paused, and the runner does not reject what the host may ask for next. -/
def Plane.PausednessAgrees (sid : SessionId) (s : Plane) : Prop :=
  s.link.Quiet → s.Live sid →
    (sid ∈ s.m.pausedSet ↔ s.link.loop.paused = true) ∧
    ∀ id : ReqId, decide (sid ∈ s.m.pausedSet) = decide (id.op = .resume) →
      (s.link.loop.dispatch ⟨id⟩).2 = none

/-- **The host and the runner agree in every run that keeps to `ControlGuard`.** -/
theorem pausedness_agrees (h : (planeSystem cfg backend sid).ReachableVia (ControlGuard sid) s) :
    s.PausednessAgrees sid := by
  have hinv : PlaneInv sid s := by
    refine h.invariant_of (J := fun s => s.m.WellFormed) (fun s hs =>
      Manager.wellFormed_of_reachable (reachable_manager hs)) ?_ ?_
    · rintro _ ⟨rows, rfl⟩
      exact .fresh cfg backend rows
    · intro s l t hw hi hg hst
      exact hi.step hw hg hst
  rintro ⟨-, -, -, hup, hready⟩ ⟨hheld, hc, halive⟩
  have hag := hinv.agrees hc halive (by simp [Plane.ended, hheld])
  have hpaused : s.link.loop.paused = decide (sid ∈ s.m.pausedSet) := by
    simpa [Link.Agrees, Link.settled, Link.positives, hup, hready] using hag
  refine ⟨by simp [hpaused], fun id hid => ?_⟩
  rw [← Option.not_isSome_iff_eq_none, ControlLoop.dispatch_snd_isSome, hpaused, hid]
  cases id.op <;> simp

end Runs

/-- The session `0` up to the request of a `pause`, the call `1`. -/
def askPause : List PlaneLabel :=
  driveRun.map .host ++ [.host (.pause 0), .host (.call 1 .ok)]

/-- A `pause` over the wire. -/
theorem pausedness_agrees_of_pause :
    ∃ s, (planeSystem oneSlot .wire 0).checkedRun (ControlGuard 0)
        { m := .fresh oneSlot [], link := { backend := .wire } }
        (askPause ++ [.route, .recv, .sdk none, .routeAck, .host (.call 1 (.ack true))]) = some s ∧
      s.link.Quiet ∧ s.Live 0 ∧ s.link.loop.paused = true ∧ 0 ∈ s.m.pausedSet := by
  have hrun : ((planeSystem oneSlot .wire 0).checkedRun (ControlGuard 0)
      { m := .fresh oneSlot [], link := { backend := .wire } }
      (askPause ++ [.route, .recv, .sdk none, .routeAck, .host (.call 1 (.ack true))])).any
        (fun s => s.link.Quiet ∧ s.Live 0 ∧ s.link.loop.paused = true) = true := by decide
  obtain ⟨s, hs, he⟩ := (Option.any_eq_true _ _).mp hrun
  obtain ⟨hq, hl, hp⟩ := of_decide_eq_true he
  have hr : (planeSystem oneSlot .wire 0).ReachableVia (ControlGuard 0) s :=
    .of_checkedRun (.init ⟨[], rfl⟩) hs
  exact ⟨s, hs, hq, hl, hp, (pausedness_agrees hr hq hl).1.mpr hp⟩

/-- The `pause` times out before the runner takes it, and the runner carries it out all the same:
the host says running, and every further `pause` is rejected. -/
theorem late_pause_disagrees :
    ∃ s, (planeSystem oneSlot .inprocess 0).run
        { m := .fresh oneSlot [], link := { backend := .inprocess } }
        (askPause ++ [.host (.call 1 (.raise (.other "timeout" 504))), .recv, .sdk none]) = some s ∧
      s.link.Quiet ∧ s.Live 0 ∧ s.link.loop.paused = true ∧ 0 ∉ s.m.pausedSet ∧
      ¬s.PausednessAgrees 0 := by
  have hrun : ((planeSystem oneSlot .inprocess 0).run
      { m := .fresh oneSlot [], link := { backend := .inprocess } }
      (askPause ++ [.host (.call 1 (.raise (.other "timeout" 504))), .recv, .sdk none])).any
        (fun s => s.link.Quiet ∧ s.Live 0 ∧ s.link.loop.paused = true ∧ 0 ∉ s.m.pausedSet)
          = true := by decide
  obtain ⟨s, hs, he⟩ := (Option.any_eq_true _ _).mp hrun
  obtain ⟨hq, hl, hp, hn⟩ := of_decide_eq_true he
  exact ⟨s, hs, hq, hl, hp, hn, fun h => hn ((h hq hl).1.mpr hp)⟩

end GgRelay
