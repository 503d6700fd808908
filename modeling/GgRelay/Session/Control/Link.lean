import GgRelay.Session.Manager.Transition

/-!
The pause/resume control plane of one session: `session/control.py`, the host's end of it in
`session/runner/bridge.py` and `session/runner/inprocess_control.py`, the runner's end in
`session/runner/proxy_client.py`.

* `ControlLoop` is the runner's consumer of directives, with its own `paused` flag;
* `Link` is everything between it and the calls of `pause` and `resume` that wait for an ack:
  the futures of the bridge, the frames or messages on their way down, the acks on their way up.

The two backends differ in two places: in process a request is put into the inbox of the loop at
once and an ack completes the future at once, over the wire both travel as frames.
-/

namespace GgRelay

inductive ControlOp where
  | pause | resume
  deriving DecidableEq, Repr

/-- `f"{op}-{n}"`. -/
structure ReqId where
  op : ControlOp
  n : ℕ
  deriving DecidableEq, Repr

/-- A directive flowing from the host to the runner. -/
structure ControlMessage where
  reqId : ReqId
  deriving DecidableEq, Repr

/-- The reply of the runner to a directive. -/
structure ControlAck where
  reqId : ReqId
  ok : Bool
  error : Option String := none
  deriving DecidableEq, Repr

/-! ### The runner -/

/-- `ControlLoop`: the flag, and the directive whose SDK call is under way. -/
structure ControlLoop where
  paused : Bool := false
  handling : Option ControlMessage := none
  deriving DecidableEq, Repr

namespace ControlLoop

variable (r : ControlLoop) (msg : ControlMessage)

/-- `_dispatch`, up to `client.interrupt()` or `client.query(hint)`: a redundant directive is
rejected at once. -/
def dispatch : ControlLoop × Option ControlAck :=
  match msg.reqId.op, r.paused with
  | .pause, true => (r, some { reqId := msg.reqId, ok := false, error := some "already_paused" })
  | .resume, false => (r, some { reqId := msg.reqId, ok := false, error := some "not_paused" })
  | _, _ => ({ r with handling := some msg }, none)

/-- The SDK call is over; `failure` is the text of its exception. -/
def finish : Option String → ControlLoop × ControlAck
  | none =>
      ({ paused := msg.reqId.op = .pause, handling := none }, { reqId := msg.reqId, ok := true })
  | some e =>
      ({ r with handling := none }, { reqId := msg.reqId, ok := false, error := some e })

/-- A directive is rejected at once if and only if the runner is where it would lead to. -/
lemma dispatch_snd_isSome : (r.dispatch msg).2.isSome ↔ r.paused = decide (msg.reqId.op = .pause) := by
  rw [dispatch]
  cases msg.reqId.op <;> cases r.paused <;> simp

/-- An ack that `_dispatch` sends at once is a negative one. -/
lemma dispatch_ack {a : ControlAck} (h : (r.dispatch msg).2 = some a) :
    a.ok = false ∧ (r.dispatch msg).1 = r := by
  rw [dispatch] at h ⊢
  cases hop : msg.reqId.op <;> cases hp : r.paused <;> simp [hop, hp] at h ⊢ <;> simp [← h]

lemma dispatch_none (h : (r.dispatch msg).2 = none) :
    (r.dispatch msg).1 = { r with handling := some msg } := by
  rw [dispatch] at h ⊢
  cases hop : msg.reqId.op <;> cases hp : r.paused <;> simp_all

end ControlLoop

/-! ### The link -/

inductive Backend where
  | inprocess | wire
  deriving DecidableEq, Repr

/-- The control plane of a session. -/
structure Link where
  backend : Backend
  /-- the transport is open -/
  alive : Bool := true
  /-- the number of the last request -/
  counter : ℕ := 0
  /-- `_ack_futs`, without those that are done: who waits for which ack -/
  futs : List (ReqId × CallId) := []
  /-- the calls whose future is done and that have not run since, in the order of completion -/
  ready : List (CallId × ControlAck) := []
  /-- the frames on their way to the container -/
  down : List ControlMessage := []
  /-- the queue of the runner's `ControlChannel` -/
  inbox : List ControlMessage := []
  loop : ControlLoop := {}
  /-- the frames on their way to the host -/
  up : List ControlAck := []

namespace Link

variable (k : Link)

/-- `host_request`, `WireBridge.pause`, `WireBridge.resume`: register a future and send. -/
def request (cid : CallId) (op : ControlOp) : Link :=
  let id : ReqId := ⟨op, k.counter + 1⟩
  let k' := { k with counter := k.counter + 1, futs := k.futs ++ [(id, cid)] }
  match k.backend with
  | .inprocess => { k' with inbox := k.inbox ++ [⟨id⟩] }
  | .wire => if k.alive then { k' with down := k.down ++ [⟨id⟩] } else k'

/-- `runner_ack`, `_handle_pause_ack`: complete the future of the request, if somebody still waits
for it. -/
def resolve (a : ControlAck) : Link :=
  match k.futs.find? (·.1 = a.reqId) with
  | some p => { k with futs := k.futs.erase p, ready := k.ready ++ [(p.2, a)] }
  | none => k

/-- The runner sends an ack: `runner_ack` in process, `send_ack` over the wire. -/
def emit (a : ControlAck) : Link :=
  match k.backend with
  | .inprocess => k.resolve a
  | .wire => if k.alive then { k with up := k.up ++ [a] } else k

/-- A call stops waiting: the timeout is over, or its task is cancelled. -/
def abandon (cid : CallId) : Link :=
  { k with futs := k.futs.filter (·.2 ≠ cid), ready := k.ready.filter (·.1 ≠ cid) }

/-- What the call `cid` comes back with; the calls come back in the order in which their futures
were completed. -/
def reply (cid : CallId) : Reply → Option Link
  | .ack b =>
      match k.ready with
      | (c, a) :: rest => if c = cid ∧ a.ok = b then some { k with ready := rest } else none
      | [] => none
  | .raise _ => some (k.abandon cid)
  | _ => none

/-- The container's `consume_loop` routes the next frame into the inbox. -/
def route : Option Link :=
  match k.down with
  | msg :: rest => some { k with down := rest, inbox := k.inbox ++ [msg] }
  | [] => none

/-- The loop takes the next directive out of its inbox. -/
def recv : Option Link :=
  match k.loop.handling, k.inbox with
  | none, msg :: rest =>
      let k' := { k with inbox := rest, loop := (k.loop.dispatch msg).1 }
      some (match (k.loop.dispatch msg).2 with
        | some a => k'.emit a
        | none => k')
  | _, _ => none

/-- The SDK call of the loop comes back. -/
def sdk (failure : Option String) : Option Link :=
  match k.loop.handling with
  | some msg =>
      some ({ k with loop := (k.loop.finish msg failure).1 }.emit (k.loop.finish msg failure).2)
  | none => none

/-- The host's bridge handles the next ack frame. -/
def routeAck : Option Link :=
  match k.up with
  | a :: rest => some ({ k with up := rest }.resolve a)
  | [] => none

/-- The transport closes. -/
def close : Link := { k with alive := false }

/-- Nothing is in flight. -/
def Quiet : Prop :=
  k.down = [] ∧ k.inbox = [] ∧ k.loop.handling = none ∧ k.up = [] ∧ k.ready = []

instance : Decidable k.Quiet := by
  unfold Quiet
  infer_instance

/-- The positive acks in flight, in the order in which the host will see them. -/
def positives : List ControlAck := (k.ready.map (·.2) ++ k.up).filter (·.ok)

/-- What the host's flag will be when it has seen the acks in flight. -/
def settled (paused : Bool) : Bool :=
  (k.positives.map fun a => decide (a.reqId.op = .pause)).getLastD paused

/-- The requests the runner has not answered yet, and those whose answer is on its way. -/
def travelling : Multiset ReqId :=
  ↑(k.down.map (·.reqId)) + ↑(k.inbox.map (·.reqId)) + ↑(k.loop.handling.toList.map (·.reqId))
    + ↑(k.up.map (·.reqId))

variable {k}

/-! ### What nobody loses

`asks` says which calls wait for an ack of the session, and for which. -/

/-- The futures belong to calls that wait for them, every request has a number of its own, and
a positive ack on its way up finds its future. -/
structure Sound (asks : CallId → Option ControlOp) (k : Link) : Prop where
  asked : ∀ p ∈ k.futs, asks p.2 = some p.1.op
  answered : ∀ p ∈ k.ready, asks p.1 = some p.2.reqId.op
  once : (k.futs.map (·.2) ++ k.ready.map (·.1)).Nodup
  keys : (k.futs.map (·.1)).Nodup
  ids : k.travelling.Nodup
  numbered : (∀ p ∈ k.futs, p.1.n ≤ k.counter) ∧ ∀ id ∈ k.travelling, id.n ≤ k.counter
  delivered : ∀ a ∈ k.up, a.ok = true → a.reqId ∈ k.futs.map (·.1)
  direct : k.backend = .inprocess → k.up = []

variable {asks : CallId → Option ControlOp} {cid : CallId} {op : ControlOp} {a : ControlAck}
  {paused : Bool}

@[simp] lemma request_futs :
    (k.request cid op).futs = k.futs ++ [(⟨op, k.counter + 1⟩, cid)] := by
  rw [request]
  cases k.backend with
  | inprocess => rfl
  | wire => cases k.alive <;> rfl

@[simp] lemma request_ready : (k.request cid op).ready = k.ready := by
  rw [request]
  cases k.backend with
  | inprocess => rfl
  | wire => cases k.alive <;> rfl

@[simp] lemma request_up : (k.request cid op).up = k.up := by
  rw [request]
  cases k.backend with
  | inprocess => rfl
  | wire => cases k.alive <;> rfl

@[simp] lemma request_counter : (k.request cid op).counter = k.counter + 1 := by
  rw [request]
  cases k.backend with
  | inprocess => rfl
  | wire => cases k.alive <;> rfl

@[simp] lemma request_loop : (k.request cid op).loop = k.loop := by
  rw [request]
  cases k.backend with
  | inprocess => rfl
  | wire => cases k.alive <;> rfl

@[simp] lemma request_backend : (k.request cid op).backend = k.backend := by
  rw [request]
  cases k.backend with
  | inprocess => rfl
  | wire => cases k.alive <;> rfl

@[simp] lemma request_alive : (k.request cid op).alive = k.alive := by
  rw [request]
  cases k.backend with
  | inprocess => rfl
  | wire => cases k.alive <;> rfl

lemma travelling_request : (k.request cid op).travelling ≤ ⟨op, k.counter + 1⟩ ::ₘ k.travelling := by
  rw [request, ← Multiset.singleton_add]
  cases k.backend with
  | inprocess =>
      refine le_of_eq ?_
      simp only [travelling, List.map_append, List.map_cons, List.map_nil, ← Multiset.coe_add,
        Multiset.coe_singleton]
      abel
  | wire =>
      cases k.alive with
      | true =>
          refine le_of_eq ?_
          simp only [travelling, if_true, List.map_append, List.map_cons, List.map_nil,
            ← Multiset.coe_add, Multiset.coe_singleton]
          abel
      | false => exact Multiset.le_add_left _ _

/-- A new request. -/
lemma Sound.request (h : k.Sound asks) (hc : asks cid = none) :
    (k.request cid op).Sound (Function.update asks cid (some op)) := by
  have hne : ∀ p ∈ k.futs, p.2 ≠ cid := fun p hp he => by
    have := h.asked p hp
    simp [he, hc] at this
  have hne' : ∀ p ∈ k.ready, p.1 ≠ cid := fun p hp he => by
    have := h.answered p hp
    simp [he, hc] at this
  have hnew : ∀ id ∈ k.travelling, id ≠ ⟨op, k.counter + 1⟩ := fun id hid he => by
    have := h.numbered.2 id hid
    simp [he] at this
  refine ⟨?_, ?_, ?_, ?_, ?_, ⟨?_, ?_⟩, ?_, ?_⟩
  · intro p hp
    rw [request_futs, List.mem_append, List.mem_singleton] at hp
    rcases hp with hp | rfl
    · rw [Function.update_of_ne (hne p hp)]
      exact h.asked p hp
    · simp
  · intro p hp
    rw [request_ready] at hp
    rw [Function.update_of_ne (hne' p hp)]
    exact h.answered p hp
  · rw [request_futs, request_ready, List.map_append, List.append_assoc]
    refine (List.perm_middle.nodup_iff).mpr (List.nodup_cons.mpr ⟨?_, h.once⟩)
    intro hm
    rcases List.mem_append.mp hm with hm | hm
    · obtain ⟨p, hp, he⟩ := List.mem_map.mp hm
      exact hne p hp he
    · obtain ⟨p, hp, he⟩ := List.mem_map.mp hm
      exact hne' p hp he
  · rw [request_futs, List.map_append]
    refine List.Nodup.append h.keys (List.nodup_singleton _) ?_
    rw [List.map_singleton, List.disjoint_singleton, List.mem_map]
    rintro ⟨p, hp, he⟩
    have := h.numbered.1 p hp
    simp [he] at this
  · exact Multiset.nodup_of_le travelling_request
      (Multiset.nodup_cons.mpr ⟨fun hm => hnew _ hm rfl, h.ids⟩)
  · intro p hp
    rw [request_futs, List.mem_append, List.mem_singleton] at hp
    rw [request_counter]
    rcases hp with hp | rfl
    · exact (h.numbered.1 p hp).trans (Nat.le_succ _)
    · exact le_rfl
  · intro id hid
    rw [request_counter]
    rcases Multiset.mem_cons.mp (Multiset.mem_of_le travelling_request hid) with rfl | hid
    · exact le_rfl
    · exact (h.numbered.2 id hid).trans (Nat.le_succ _)
  · intro a ha hok
    rw [request_up] at ha
    rw [request_futs, List.map_append]
    exact List.mem_append_left _ (h.delivered a ha hok)
  · intro hb
    rw [request_backend] at hb
    rw [request_up, h.direct hb]

lemma settled_request : (k.request cid op).settled paused = k.settled paused := by
  simp [settled, positives]

/-- A call that waits for more is no harm. -/
lemma Sound.mono {asks' : CallId → Option ControlOp} (h : k.Sound asks)
    (hle : ∀ c op, asks c = some op → asks' c = some op) : k.Sound asks' :=
  ⟨fun p hp => hle _ _ (h.asked p hp), fun p hp => hle _ _ (h.answered p hp), h.once, h.keys, h.ids,
    h.numbered, h.delivered, h.direct⟩

/-- Completing a future takes it out of the dictionary and puts its call into the queue, or does
nothing. -/
lemma resolve_cases (k : Link) (a : ControlAck) :
    (∃ p ∈ k.futs, p.1 = a.reqId ∧
      k.resolve a = { k with futs := k.futs.erase p, ready := k.ready ++ [(p.2, a)] }) ∨
    a.reqId ∉ k.futs.map (·.1) ∧ k.resolve a = k := by
  rw [Link.resolve]
  cases hf : k.futs.find? (·.1 = a.reqId) with
  | none =>
      refine Or.inr ⟨fun hm => ?_, rfl⟩
      obtain ⟨p, hp, he⟩ := List.mem_map.mp hm
      have := List.find?_eq_none.mp hf p hp
      simp [he] at this
  | some p => exact Or.inl ⟨p, List.mem_of_find?_eq_some hf, by simpa using List.find?_some hf, rfl⟩

/-- An ack completes the future of its request. -/
lemma Sound.resolve (h : k.Sound asks) (ht : a.reqId ∉ k.travelling) : (k.resolve a).Sound asks := by
  rcases k.resolve_cases a with ⟨p, hp, he, hr⟩ | ⟨-, hr⟩
  · rw [hr]
    have hsub : (k.futs.erase p).Sublist k.futs := List.erase_sublist
    refine ⟨fun q hq => h.asked q (hsub.subset hq), fun q hq => ?_, ?_,
      (hsub.map _).nodup h.keys, h.ids, ⟨fun q hq => h.numbered.1 q (hsub.subset hq), h.numbered.2⟩,
      fun b hb hok => ?_, h.direct⟩
    · rcases List.mem_append.mp hq with hq | hq
      · exact h.answered q hq
      · rw [List.mem_singleton.mp hq, ← he]
        exact h.asked p hp
    · have hperm : (k.futs.map (·.2)).Perm (p.2 :: (k.futs.erase p).map (·.2)) :=
        (List.perm_cons_erase hp).map _
      rw [List.map_append, ← List.append_assoc]
      exact ((hperm.append_right _).trans (List.perm_append_singleton _ _).symm).nodup_iff.mp h.once
    · obtain ⟨q, hq, hqb⟩ := List.mem_map.mp (h.delivered b hb hok)
      have hne : q ≠ p := by
        rintro rfl
        refine ht ?_
        rw [← he, hqb]
        simp only [travelling, Multiset.mem_add, Multiset.mem_coe]
        exact Or.inr (List.mem_map.mpr ⟨b, hb, rfl⟩)
      exact List.mem_map.mpr ⟨q, (List.mem_erase_of_ne hne).mpr hq, hqb⟩
  · rwa [hr]

/-- A positive ack is not lost on its way into the queue of the calls. -/
lemma positives_resolve (hd : a.ok = true → a.reqId ∈ k.futs.map (·.1)) :
    (k.resolve a).positives = (k.ready.map (·.2) ++ a :: k.up).filter (·.ok) := by
  rcases k.resolve_cases a with ⟨p, hp, he, hr⟩ | ⟨hn, hr⟩
  · rw [hr]
    simp [positives]
  · rw [hr]
    have hok : a.ok = false := by
      by_contra hok
      exact hn (hd (by simpa using hok))
    simp [positives, hok]

@[simp] lemma resolve_loop : (k.resolve a).loop = k.loop := by
  rcases k.resolve_cases a with ⟨p, -, -, hr⟩ | ⟨-, hr⟩ <;> rw [hr]

@[simp] lemma resolve_alive : (k.resolve a).alive = k.alive := by
  rcases k.resolve_cases a with ⟨p, -, -, hr⟩ | ⟨-, hr⟩ <;> rw [hr]

@[simp] lemma emit_loop : (k.emit a).loop = k.loop := by
  rw [emit]
  cases k.backend with
  | inprocess => exact resolve_loop
  | wire => cases k.alive <;> rfl

@[simp] lemma emit_alive : (k.emit a).alive = k.alive := by
  rw [emit]
  cases k.backend with
  | inprocess => exact resolve_alive
  | wire => simp only [apply_ite Link.alive, ite_self]

lemma Sound.pushUp (h : k.Sound asks) (hb : k.backend = .wire) (ht : a.reqId ∉ k.travelling)
    (hn : a.reqId.n ≤ k.counter) (hd : a.ok = true → a.reqId ∈ k.futs.map (·.1)) :
    ({ k with up := k.up ++ [a] } : Link).Sound asks := by
  have htr : ({ k with up := k.up ++ [a] } : Link).travelling = a.reqId ::ₘ k.travelling := by
    rw [← Multiset.singleton_add]
    simp only [travelling, List.map_append, List.map_cons, List.map_nil, ← Multiset.coe_add,
      Multiset.coe_singleton]
    abel
  refine ⟨h.asked, h.answered, h.once, h.keys, ?_, ⟨h.numbered.1, fun id hid => ?_⟩,
    fun b hb hok => ?_, fun hb' => absurd (hb.symm.trans hb') (by simp)⟩
  · rw [htr]
    exact Multiset.nodup_cons.mpr ⟨ht, h.ids⟩
  · rw [htr, Multiset.mem_cons] at hid
    rcases hid with rfl | hid
    · exact hn
    · exact h.numbered.2 id hid
  · rcases List.mem_append.mp hb with hb | hb
    · exact h.delivered b hb hok
    · rw [List.mem_singleton.mp hb]
      exact hd (by rw [← List.mem_singleton.mp hb, hok])

/-- An ack is sent. -/
lemma Sound.emit (h : k.Sound asks) (ht : a.reqId ∉ k.travelling) (hn : a.reqId.n ≤ k.counter)
    (hd : a.ok = true → a.reqId ∈ k.futs.map (·.1)) : (k.emit a).Sound asks := by
  rw [Link.emit]
  split
  · exact h.resolve ht
  · rename_i hb
    split
    · exact h.pushUp hb ht hn hd
    · exact h

/-- An ack that is sent goes to the end of those in flight. -/
lemma positives_emit (h : k.Sound asks) (halive : k.alive = true)
    (hd : a.ok = true → a.reqId ∈ k.futs.map (·.1)) :
    (k.emit a).positives = k.positives ++ [a].filter (·.ok) := by
  rw [Link.emit]
  cases hb : k.backend with
  | inprocess =>
      simp only [positives_resolve hd]
      simp [positives, h.direct hb]
  | wire => simp [halive, positives]

/-- A negative ack changes nothing about the positive ones. -/
lemma settled_emit_of_not_ok (h : k.Sound asks) (halive : k.alive = true) (hok : a.ok = false) :
    (k.emit a).settled paused = k.settled paused := by
  rw [settled, positives_emit h halive (by simp [hok]), settled]
  simp [hok]

/-- A positive ack settles the flag. -/
lemma settled_emit_of_ok (h : k.Sound asks) (halive : k.alive = true) (hok : a.ok = true)
    (hd : a.reqId ∈ k.futs.map (·.1)) :
    (k.emit a).settled paused = decide (a.reqId.op = .pause) := by
  rw [settled, positives_emit h halive fun _ => hd]
  simp [hok]

/-! ### The steps of the runner and of the frames -/

/-- The host's flag will be what the runner's is. -/
def Agrees (k : Link) (paused : Bool) : Prop := k.loop.paused = k.settled paused

variable {k' : Link}

lemma Sound.route (h : k.Sound asks) (hs : k.route = some k') :
    k'.Sound asks ∧ k'.alive = k.alive ∧ (k.Agrees paused → k'.Agrees paused) := by
  rw [Link.route] at hs
  split at hs
  · rename_i msg rest hd
    cases hs
    refine ⟨⟨h.asked, h.answered, h.once, h.keys, ?_, ⟨h.numbered.1, ?_⟩, h.delivered, h.direct⟩,
      rfl, id⟩
    all_goals
      have ht : ({ k with down := rest, inbox := k.inbox ++ [msg] } : Link).travelling
          = k.travelling := by
        simp only [travelling, hd, List.map_append, List.map_cons, List.map_nil,
          ← Multiset.coe_add, ← Multiset.cons_coe, ← Multiset.singleton_add]
        abel
      rw [ht]
    · exact h.ids
    · exact h.numbered.2
  · simp at hs

lemma Sound.recv (h : k.Sound asks) (hs : k.recv = some k') :
    k'.Sound asks ∧ k'.alive = k.alive ∧
      (k.alive = true → k.Agrees paused → k'.Agrees paused) := by
  rw [Link.recv] at hs
  split at hs
  · rename_i msg rest hn hi
    simp only [Option.some.injEq] at hs
    have hid : msg.reqId ∈ k.travelling := by simp [travelling, hi]
    cases hd : (k.loop.dispatch msg).2 with
    | none =>
        -- the directive is in the hands of the SDK
        rw [hd, ControlLoop.dispatch_none _ _ hd] at hs
        subst hs
        have ht : ({ k with inbox := rest, loop := { k.loop with handling := some msg } } :
            Link).travelling = k.travelling := by
          simp only [travelling, hi, hn, Option.toList_some, Option.toList_none, List.map_cons,
            List.map_nil, ← Multiset.cons_coe, ← Multiset.singleton_add, Multiset.coe_nil]
          abel
        refine ⟨⟨h.asked, h.answered, h.once, h.keys, ?_, ⟨h.numbered.1, ?_⟩, h.delivered,
          h.direct⟩, rfl, fun _ => id⟩
        · rw [ht]
          exact h.ids
        · rw [ht]
          exact h.numbered.2
    | some a =>
        -- the directive is redundant, and answered at once
        obtain ⟨hok, hl⟩ := ControlLoop.dispatch_ack _ _ hd
        have ha : a.reqId = msg.reqId := by
          rw [ControlLoop.dispatch] at hd
          split at hd <;> simp at hd <;> rw [← hd]
        have ht : k.travelling = msg.reqId ::ₘ ({ k with inbox := rest } : Link).travelling := by
          simp only [travelling, hi, List.map_cons, ← Multiset.cons_coe, ← Multiset.singleton_add]
          abel
        have hids := h.ids
        rw [ht, Multiset.nodup_cons] at hids
        have h' : ({ k with inbox := rest } : Link).Sound asks :=
          ⟨h.asked, h.answered, h.once, h.keys, hids.2, ⟨h.numbered.1, fun id hid' =>
            h.numbered.2 id (ht ▸ Multiset.mem_cons_of_mem hid')⟩, h.delivered, h.direct⟩
        rw [hd, hl] at hs
        subst hs
        refine ⟨h'.emit (ha ▸ hids.1) (ha ▸ h.numbered.2 _ hid) (by simp [hok]), emit_alive,
          fun halive hag => ?_⟩
        rw [Agrees, emit_loop, settled_emit_of_not_ok h' halive hok]
        exact hag
  · simp at hs

lemma Sound.sdk (h : k.Sound asks) {failure : Option String} (hs : k.sdk failure = some k')
    (hg : failure = none → ∀ msg ∈ k.loop.handling, msg.reqId ∈ k.futs.map (·.1)) :
    k'.Sound asks ∧ k'.alive = k.alive ∧
      (k.alive = true → k.Agrees paused → k'.Agrees paused) := by
  rw [Link.sdk] at hs
  split at hs
  · rename_i msg hm
    simp only [Option.some.injEq] at hs
    subst hs
    have hid : msg.reqId ∈ k.travelling := by simp [travelling, hm]
    have ht : ∀ l : ControlLoop, l.handling = none →
        k.travelling = msg.reqId ::ₘ ({ k with loop := l } : Link).travelling := by
      intro l hl
      simp only [travelling, hm, hl, Option.toList_some, Option.toList_none, List.map_cons,
        List.map_nil, Multiset.coe_singleton, ← Multiset.singleton_add, Multiset.coe_nil]
      abel
    have h' : ∀ l : ControlLoop, l.handling = none → msg.reqId ∉ ({ k with loop := l } :
        Link).travelling ∧ ({ k with loop := l } : Link).Sound asks := by
      intro l hl
      have hids := h.ids
      rw [ht l hl, Multiset.nodup_cons] at hids
      exact ⟨hids.1, h.asked, h.answered, h.once, h.keys, hids.2, ⟨h.numbered.1, fun id hid' =>
        h.numbered.2 id (ht l hl ▸ Multiset.mem_cons_of_mem hid')⟩, h.delivered, h.direct⟩
    cases failure with
    | none =>
        have hf := hg rfl msg hm
        obtain ⟨hnt, hsound⟩ := h' ⟨msg.reqId.op = .pause, none⟩ rfl
        refine ⟨hsound.emit hnt (h.numbered.2 _ hid) fun _ => hf, emit_alive,
          fun halive _ => ?_⟩
        rw [Agrees, emit_loop]
        have hok : ({ reqId := msg.reqId, ok := true } : ControlAck).ok = true := rfl
        exact (settled_emit_of_ok hsound halive hok hf).symm
    | some e =>
        obtain ⟨hnt, hsound⟩ := h' { k.loop with handling := none } rfl
        refine ⟨hsound.emit hnt (h.numbered.2 _ hid) (by simp [ControlLoop.finish]), emit_alive,
          fun halive hag => ?_⟩
        rw [Agrees, emit_loop]
        exact hag.trans (settled_emit_of_not_ok hsound halive rfl).symm
  · simp at hs

lemma Sound.routeAck (h : k.Sound asks) (hs : k.routeAck = some k') :
    k'.Sound asks ∧ k'.alive = k.alive ∧ (k.Agrees paused → k'.Agrees paused) := by
  rw [Link.routeAck] at hs
  split at hs
  · rename_i a rest hu
    simp only [Option.some.injEq] at hs
    subst hs
    have ht : k.travelling = a.reqId ::ₘ ({ k with up := rest } : Link).travelling := by
      simp only [travelling, hu, List.map_cons, ← Multiset.cons_coe, ← Multiset.singleton_add]
      abel
    have hids := h.ids
    rw [ht, Multiset.nodup_cons] at hids
    have h' : ({ k with up := rest } : Link).Sound asks :=
      ⟨h.asked, h.answered, h.once, h.keys, hids.2, ⟨h.numbered.1, fun id hid' =>
        h.numbered.2 id (ht ▸ Multiset.mem_cons_of_mem hid')⟩,
        fun b hb => h.delivered b (hu ▸ List.mem_cons_of_mem _ hb),
        fun hb => by simpa [hu] using h.direct hb⟩
    refine ⟨h'.resolve hids.1, resolve_alive, fun hag => ?_⟩
    have hd : a.ok = true → a.reqId ∈ ({ k with up := rest } : Link).futs.map (·.1) :=
      h.delivered a (hu ▸ List.mem_cons_self)
    rw [Agrees, resolve_loop, settled, positives_resolve hd]
    rw [Agrees, settled, positives, hu] at hag
    exact hag
  · simp at hs

/-! ### The steps of the host -/

/-- A call comes back with its ack. -/
lemma Sound.reply (h : k.Sound asks) {b : Bool} (hs : k.reply cid (.ack b) = some k') :
    ∃ op, asks cid = some op ∧ k'.Sound (Function.update asks cid none) ∧ k'.alive = k.alive ∧
      (k.Agrees paused → k'.Agrees (if b then decide (op = .pause) else paused)) := by
  rw [Link.reply] at hs
  split at hs
  · rename_i c a rest hr
    split at hs
    · rename_i hc
      obtain ⟨rfl, rfl⟩ := hc
      cases hs
      have honce := h.once
      rw [hr, List.map_cons] at honce
      have hcn := (List.nodup_cons.mp ((List.perm_middle).nodup_iff.mp honce))
      have hne : ∀ p ∈ k.futs, p.2 ≠ c := fun p hp he =>
        hcn.1 (List.mem_append_left _ (List.mem_map.mpr ⟨p, hp, he⟩))
      have hne' : ∀ p ∈ rest, p.1 ≠ c := fun p hp he =>
        hcn.1 (List.mem_append_right _ (List.mem_map.mpr ⟨p, hp, he⟩))
      refine ⟨a.reqId.op, h.answered (c, a) (hr ▸ List.mem_cons_self), ⟨fun p hp => ?_,
        fun p hp => ?_, hcn.2, h.keys, h.ids, h.numbered, h.delivered, h.direct⟩, rfl,
        fun hag => ?_⟩
      · rw [Function.update_of_ne (hne p hp)]
        exact h.asked p hp
      · rw [Function.update_of_ne (hne' p hp)]
        exact h.answered p (hr ▸ List.mem_cons_of_mem _ hp)
      · rw [Agrees, settled, positives, hr, List.map_cons, List.cons_append] at hag
        cases hok : a.ok with
        | true =>
            rw [List.filter_cons_of_pos hok, List.map_cons, List.getLastD_cons] at hag
            exact hag
        | false =>
            rw [List.filter_cons_of_neg (by simp [hok])] at hag
            exact hag
    · simp at hs
  · simp at hs

/-- A call stops waiting; no positive ack for it is on its way. -/
lemma Sound.abandon (h : k.Sound asks) (hready : ∀ p ∈ k.ready, p.1 = cid → p.2.ok = false)
    (hup : ∀ a ∈ k.up, a.ok = true → (a.reqId, cid) ∉ k.futs) :
    (k.abandon cid).Sound (Function.update asks cid none) ∧ (k.abandon cid).alive = k.alive ∧
      (k.Agrees paused → (k.abandon cid).Agrees paused) := by
  have hsub : (k.futs.filter (·.2 ≠ cid)).Sublist k.futs := List.filter_sublist
  have hsub' : (k.ready.filter (·.1 ≠ cid)).Sublist k.ready := List.filter_sublist
  refine ⟨⟨fun p hp => ?_, fun p hp => ?_, ((hsub.map _).append (hsub'.map _)).nodup h.once,
    (hsub.map _).nodup h.keys, h.ids, ⟨fun p hp => h.numbered.1 p (hsub.subset hp), h.numbered.2⟩,
    fun a ha hok => ?_, h.direct⟩, rfl, fun hag => ?_⟩
  · have hp' := List.mem_filter.mp hp
    rw [Function.update_of_ne (by simpa using hp'.2)]
    exact h.asked p hp'.1
  · have hp' := List.mem_filter.mp hp
    rw [Function.update_of_ne (by simpa using hp'.2)]
    exact h.answered p hp'.1
  · obtain ⟨p, hp, he⟩ := List.mem_map.mp (h.delivered a ha hok)
    refine List.mem_map.mpr ⟨p, List.mem_filter.mpr ⟨hp, ?_⟩, he⟩
    simp only [ne_eq, decide_eq_true_eq]
    rintro rfl
    exact hup a ha hok (by rw [← he]; exact hp)
  · have hpos : (k.abandon cid).positives = k.positives := by
      rw [positives, positives, List.filter_append, List.filter_append]
      congr 1
      rw [List.filter_map, List.filter_map]
      congr 1
      rw [Link.abandon, List.filter_filter]
      refine List.filter_congr fun p hp => ?_
      have := hready p hp
      by_cases hc : p.1 = cid <;> simp_all
    rw [Agrees, settled, hpos]
    exact hag

end Link

end GgRelay
