import GgRelay.Api.Sse
import GgRelay.Core.Cleanup

/-!
The subscriptions of the event streams (`_stream` of `api/sse.py`) on the in-process bus.

A stream subscribes, fetches and yields what it replays or back-fills, and only then asks its
subscription for the first event.  The other consumers of the bus use their iterators as they like.

* `Server` is the bus with its streams, `Server.step` one step of either;
* `Server.Wired` ties the generator of a stream to the iterator of its subscription;
* `subscriptions_cleaned_up` is the result, `early_disconnect_leaks` a client that leaves a queue.
-/

namespace GgRelay.Streams

open EventBus (Bus BusConfig SubId busSystem wildcard)
open Sse (FrameId cursorOf frameCursorOf initialBufferSize)

abbrev StreamId := ℕ

/-- Where the generator of a stream is. -/
inductive GenPc where
  /-- not started -/
  | created
  /-- waiting for the rows of `replay_after` or of `list_frames` -/
  | fetching (sub : SubId)
  /-- at its `yield` of one of them, with this many to go -/
  | filling (sub : SubId) (left : ℕ)
  /-- in `async for event in sub` -/
  | live (sub : SubId)
  /-- over, with the subscription it had -/
  | ended (sub : Option SubId)
  deriving DecidableEq

/-- The subscription it would close. -/
def GenPc.sub? : GenPc → Option SubId
  | .fetching u | .filling u _ | .live u => some u
  | .created | .ended _ => none

/-- The subscription it has or had. -/
def GenPc.had? : GenPc → Option SubId
  | .fetching u | .filling u _ | .live u => some u
  | .created => none
  | .ended sub => sub

lemma GenPc.had_of_sub {pc : GenPc} {u : SubId} (h : pc.sub? = some u) : pc.had? = some u := by
  cases pc with
  | created => cases h
  | fetching v => exact h
  | filling v n => exact h
  | live v => exact h
  | ended sub => cases h

/-- The bus and the streams. -/
structure Server where
  bus : Bus
  gens : StreamId → GenPc
  /-- the subscriptions that belong to a stream -/
  owned : SubId → Bool

inductive Label where
  /-- a publisher, or a consumer that is no stream -/
  | bus (l : EventBus.Label)
  /-- the response asks for its first frame, with this `Last-Event-ID` -/
  | start (i : StreamId) (header : Option FrameId)
  /-- the store returns rows, of which this many are yielded -/
  | fetched (i : StreamId) (frames : ℕ)
  /-- the store, or the rendering of a frame, raises -/
  | failed (i : StreamId)
  /-- the response asks for the next frame -/
  | next (i : StreamId)
  /-- the iterator of the subscription finds its waker set -/
  | wake (i : StreamId)
  /-- the client disconnects: the generator is closed, or cancelled at its `await` -/
  | disconnect (i : StreamId)
  deriving DecidableEq

namespace Server

/-- No stream and no subscriber. -/
def fresh : Server := { bus := .fresh, gens := fun _ => .created, owned := fun _ => false }

variable (cfg : BusConfig) (s : Server)

/-- `sub.aclose()`. -/
def aclose (b : Bus) (u : SubId) : Bus :=
  match (b.subs u).iter with
  | .created => b.discard u
  | .handling | .waiting => b.unsubscribe u
  | .finished => b

/-- The generator goes on in `async for event in sub`, to the next event or to the end. -/
def goLive (i : StreamId) (u : SubId) : Server :=
  let b := s.bus.advance u
  { s with
    bus := b
    gens := Function.update s.gens i
      (if (b.subs u).iter = .finished then .ended (some u) else .live u) }

/-- The `finally` of the generator. -/
def exit (i : StreamId) (u : SubId) : Server :=
  { s with bus := aclose s.bus u, gens := Function.update s.gens i (.ended (some u)) }

/-- The generator subscribes to everything. -/
def subscribed : Server :=
  { s with
    bus := s.bus.subscribe wildcard initialBufferSize
    owned := Function.update s.owned s.bus.nextSub true }

/-- The generator up to its first `await`: without a cursor there is nothing to fetch, and without a
durable store there is nothing to replay. -/
def start (i : StreamId) (header : Option FrameId) : Server :=
  if ((cursorOf header).isSome && cfg.hasStore) || (frameCursorOf header).isSome then
    { s.subscribed with gens := Function.update s.gens i (.fetching s.bus.nextSub) }
  else s.subscribed.goLive i s.bus.nextSub

/-- One step of the server. -/
def step : Label → Option Server
  | .bus l =>
      if l.consumer.any s.owned then none
      else (s.bus.step cfg l).map fun b => { s with bus := b }
  | .start i header =>
      match s.gens i with
      | .created => some (s.start cfg i header)
      | _ => none
  | .fetched i frames =>
      match s.gens i, frames with
      | .fetching u, 0 => some (s.goLive i u)
      | .fetching u, n + 1 => some { s with gens := Function.update s.gens i (.filling u n) }
      | _, _ => none
  | .failed i => (s.gens i).sub?.map (s.exit i)
  | .next i =>
      match s.gens i with
      | .filling u 0 => some (s.goLive i u)
      | .filling u (n + 1) => some { s with gens := Function.update s.gens i (.filling u n) }
      | .live u => if (s.bus.subs u).iter = .handling then some (s.goLive i u) else none
      | _ => none
  | .wake i =>
      match s.gens i with
      | .live u =>
          if (s.bus.subs u).iter = .waiting ∧ (s.bus.subs u).waker = true then some (s.goLive i u)
          else none
      | _ => none
  | .disconnect i =>
      match s.gens i with
      | .created => some { s with gens := Function.update s.gens i (.ended none) }
      | .fetching u | .filling u _ | .live u => some (s.exit i u)
      | .ended _ => none

/-- The iterators that a step closes. -/
def closes : Label → Option SubId
  | .bus (.leave u) => some u
  | .failed i | .disconnect i => (s.gens i).sub?
  | _ => none

/-- **The condition**: a step closes no iterator that was not started. -/
def StartedFirst (l : Label) : Prop := ∀ u ∈ s.closes l, (s.bus.subs u).iter ≠ .created

instance (l : Label) : Decidable (s.StartedFirst l) :=
  inferInstanceAs (Decidable (∀ u ∈ s.closes l, (s.bus.subs u).iter ≠ .created))

/-- The iterator of this subscription was closed, or came to its end, or its stream did. -/
def Closed (u : SubId) : Prop :=
  u < s.bus.nextSub ∧ (s.bus.subs u).iter = .finished ∨ ∃ i, s.gens i = .ended (some u)

end Server

/-- The server. -/
def streamSystem (cfg : BusConfig) : System Server Label where
  init s := s = Server.fresh
  step s l := s.step cfg l

/-! ### Generators and iterators -/

open EventBus (IterPc)
open EventBus.Bus (Turn)

/-- How far the iterator of the subscription is. -/
def GenPc.Fits : GenPc → IterPc → Prop
  | .created, _ => True
  | .fetching _, pc | .filling _ _, pc => pc = .created
  | .live _, pc => pc ≠ .created ∧ pc ≠ .finished
  | .ended _, pc => pc = .finished

namespace Server

variable {cfg : BusConfig} {s t : Server} {i : StreamId} {u : SubId} {l : Label}

/-- A stream has a subscription of its own, whose iterator is as far as its generator says. -/
structure Wired (s : Server) : Prop where
  owned : ∀ u, s.owned u = true → u < s.bus.nextSub
  had : ∀ i, ∀ u ∈ (s.gens i).had?, s.owned u = true
  distinct : ∀ i j, ∀ u ∈ (s.gens i).had?, u ∈ (s.gens j).had? → i = j
  fits : ∀ i, ∀ u ∈ (s.gens i).had?, (s.gens i).Fits (s.bus.subs u).iter

lemma wired_fresh : fresh.Wired where
  owned u h := by cases h
  had i u h := by cases h
  distinct i j u h := by cases h
  fits i u h := by cases h

lemma Wired.known (hw : s.Wired) (h : u ∈ (s.gens i).had?) : u < s.bus.nextSub :=
  hw.owned u (hw.had i u h)

/-- A stream goes on, with the subscription it has. -/
lemma Wired.gen (hw : s.Wired) (hu : u ∈ (s.gens i).had?) {pc : GenPc} {b : Bus}
    (hpc : pc.had? = some u) (hn : b.nextSub = s.bus.nextSub)
    (hother : ∀ v < s.bus.nextSub, v ≠ u → (b.subs v).iter = (s.bus.subs v).iter)
    (hfit : pc.Fits (b.subs u).iter) :
    Wired { s with bus := b, gens := Function.update s.gens i pc } := by
  have hgen : ∀ j, (Function.update s.gens i pc j).had? = (s.gens j).had? := by
    intro j
    by_cases hj : j = i
    · subst hj
      rw [Function.update_self, hpc]
      exact (Option.mem_def.mp hu).symm
    · rw [Function.update_of_ne hj]
  refine ⟨fun v hv => hn ▸ hw.owned v hv, fun j v hv => hw.had j v (hgen j ▸ hv),
    fun j k v hj hk => hw.distinct j k v (hgen j ▸ hj) (hgen k ▸ hk), fun j v hv => ?_⟩
  have hv' : v ∈ (s.gens j).had? := hgen j ▸ hv
  show (Function.update s.gens i pc j).Fits (b.subs v).iter
  by_cases hj : j = i
  · subst hj
    have huv : v = u := Option.mem_unique hv' hu
    subst huv
    rwa [Function.update_self]
  · have hne : v ≠ u := by
      rintro rfl
      exact hj (hw.distinct j i v hv' hu)
    rw [Function.update_of_ne hj, hother v (hw.known hv') hne]
    exact hw.fits j v hv'

/-- The other streams do not see what the consumer of one subscription does. -/
lemma Wired.turn (hw : s.Wired) (hu : u ∈ (s.gens i).had?) {pc : GenPc} {b : Bus}
    {l : EventBus.Label} (hpc : pc.had? = some u) (hn : b.nextSub = s.bus.nextSub)
    (ht : Turn s.bus l b) (hl : l.consumer = some u) (hfit : pc.Fits (b.subs u).iter) :
    Wired { s with bus := b, gens := Function.update s.gens i pc } := by
  refine hw.gen hu hpc hn (fun v hv hne => ht.iter hv ?_) hfit
  rw [hl]
  exact fun h => hne (Option.some.inj h).symm

lemma Wired.goLive (hw : s.Wired) (hu : u ∈ (s.gens i).had?)
    (hi : (s.bus.subs u).iter ≠ .finished) : (s.goLive i u).Wired := by
  have hturn : Turn s.bus (.next u) (s.bus.advance u) :=
    Bus.advance_turn rfl (hw.known hu) hi
  refine hw.turn hu ?_ Bus.advance_nextSub hturn rfl ?_
  · split
    · rfl
    · rfl
  · split
    · rename_i hfin
      exact hfin
    · rename_i hfin
      exact ⟨Bus.advance_iter, hfin⟩

/-- Closing an iterator is a step of the bus, or nothing. -/
lemma aclose_turn (b : Bus) (hu : u < b.nextSub) :
    (Turn b (.leave u) (aclose b u) ∨ aclose b u = b) ∧ (aclose b u).nextSub = b.nextSub ∧
      ((aclose b u).subs u).iter = .finished := by
  unfold aclose
  split
  · rename_i hi
    exact ⟨Or.inl (.discarded hu hi), rfl, by simp [Bus.discard]⟩
  · rename_i hi
    exact ⟨Or.inl (.parted rfl hu (by simp [hi])), rfl, by simp [Bus.unsubscribe]⟩
  · rename_i hi
    exact ⟨Or.inl (.parted rfl hu (by simp [hi])), rfl, by simp [Bus.unsubscribe]⟩
  · rename_i hi
    exact ⟨Or.inr rfl, rfl, hi⟩

lemma Wired.exit (hw : s.Wired) (hu : u ∈ (s.gens i).had?) : (s.exit i u).Wired := by
  obtain ⟨hturn, hn, hfin⟩ := aclose_turn s.bus (hw.known hu)
  rcases hturn with hturn | hsame
  · exact hw.turn hu rfl hn hturn rfl hfin
  · exact hw.gen hu rfl hn (fun v _ _ => by rw [hsame]) hfin

/-- A stream ends that has never subscribed. -/
lemma Wired.unopened (hw : s.Wired) :
    Wired { s with gens := Function.update s.gens i (.ended none) } := by
  have hcases : ∀ j, ∀ v ∈ (Function.update s.gens i (.ended none) j).had?,
      v ∈ (s.gens j).had? ∧ Function.update s.gens i (.ended none) j = s.gens j := by
    intro j v hv
    by_cases hj : j = i
    · subst hj
      rw [Function.update_self] at hv
      cases hv
    · rw [Function.update_of_ne hj] at hv ⊢
      exact ⟨hv, rfl⟩
  refine ⟨hw.owned, fun j v hv => hw.had j v (hcases j v hv).1,
    fun j k v hj hk => hw.distinct j k v (hcases j v hj).1 (hcases k v hk).1, fun j v hv => ?_⟩
  obtain ⟨hv', heq⟩ := hcases j v hv
  show (Function.update s.gens i (.ended none) j).Fits (s.bus.subs v).iter
  rw [heq]
  exact hw.fits j v hv'

/-- A stream that is about to fetch. -/
def opened (s : Server) (i : StreamId) : Server :=
  { s.subscribed with gens := Function.update s.gens i (.fetching s.bus.nextSub) }

lemma Wired.opened (hw : s.Wired) (hi : s.gens i = .created) : (s.opened i).Wired := by
  have hnew : ∀ j, ∀ v ∈ (s.gens j).had?, v ≠ s.bus.nextSub := fun j v hv =>
    ne_of_lt (hw.known hv)
  -- a subscription is the new one, or one that a stream had before
  have hcases : ∀ j, ∀ v ∈ ((s.opened i).gens j).had?,
      j = i ∧ v = s.bus.nextSub ∨ j ≠ i ∧ v ∈ (s.gens j).had? := by
    intro j v hv
    have hv : v ∈ (Function.update s.gens i (.fetching s.bus.nextSub) j).had? := hv
    by_cases hj : j = i
    · subst hj
      rw [Function.update_self] at hv
      exact Or.inl ⟨rfl, (Option.some.inj hv).symm⟩
    · rw [Function.update_of_ne hj] at hv
      exact Or.inr ⟨hj, hv⟩
  have hsub : ∀ v ≠ s.bus.nextSub, (s.opened i).bus.subs v = s.bus.subs v := fun v hv =>
    Bus.subscribe_of_ne hv
  have howned : ∀ v, (s.opened i).owned v = true ↔ v = s.bus.nextSub ∨ s.owned v = true := by
    intro v
    by_cases hv : v = s.bus.nextSub
    · simp [Server.opened, subscribed, hv]
    · simp [Server.opened, subscribed, hv]
  refine ⟨fun v hv => ?_, fun j v hv => (howned v).mpr ?_, fun j k v hj hk => ?_,
    fun j v hv => ?_⟩
  · rcases (howned v).mp hv with rfl | hv
    · exact Nat.lt_succ_self _
    · exact Nat.lt_succ_of_lt (hw.owned v hv)
  · rcases hcases j v hv with ⟨-, rfl⟩ | ⟨-, hv⟩
    · exact Or.inl rfl
    · exact Or.inr (hw.had j v hv)
  · rcases hcases j v hj with ⟨rfl, rfl⟩ | ⟨-, hj'⟩
    · rcases hcases k _ hk with ⟨rfl, -⟩ | ⟨-, hk'⟩
      · rfl
      · exact absurd rfl (hnew k _ hk')
    · rcases hcases k v hk with ⟨-, rfl⟩ | ⟨-, hk'⟩
      · exact absurd rfl (hnew j _ hj')
      · exact hw.distinct j k v hj' hk'
  · rcases hcases j v hv with ⟨rfl, rfl⟩ | ⟨hj, hv'⟩
    · simp [Server.opened, subscribed, Bus.subscribe, GenPc.Fits]
    · have hgen : (s.opened i).gens j = s.gens j := Function.update_of_ne hj _ _
      rw [hgen, hsub v (hnew j v hv')]
      exact hw.fits j v hv'

/-- A stream without anything to fetch goes on from there. -/
lemma start_eq (cfg : BusConfig) (s : Server) (i : StreamId) (header : Option FrameId) :
    s.start cfg i header = s.opened i ∨
      s.start cfg i header = (s.opened i).goLive i s.bus.nextSub := by
  rw [start]
  split
  · exact Or.inl rfl
  · refine Or.inr ?_
    simp only [Server.opened, Server.goLive, subscribed, Function.update_idem]
    rfl

/-! ### What a step of the server is on the bus -/

/-- A stream goes on. -/
lemma leads_goLive (hu : u < s.bus.nextSub)
    (h : (s.bus.subs u).iter = .created ∨ (s.bus.subs u).iter = .handling ∨
      (s.bus.subs u).iter = .waiting ∧ (s.bus.subs u).waker = true) :
    (busSystem cfg).Leads (fun b l => b.StartedFirst l) s.bus (s.goLive i u).bus := by
  have hnext : s.bus.StartedFirst (.next u) := by
    intro v h
    cases h
  have hwake : s.bus.StartedFirst (.wake u) := by
    intro v h
    cases h
  refine .single ?_
  rcases h with h | h | h
  · exact ⟨.next u, hnext, if_pos ⟨hu, Or.inl h⟩⟩
  · exact ⟨.next u, hnext, if_pos ⟨hu, Or.inr h⟩⟩
  · exact ⟨.wake u, hwake, if_pos ⟨hu, h⟩⟩

lemma step_leave (b : Bus) (hu : u < b.nextSub) (hi : (b.subs u).iter ≠ .finished) :
    b.step cfg (.leave u) = some (aclose b u) := by
  rw [Bus.step, if_pos hu, aclose]
  cases hpc : (b.subs u).iter with
  | created => rfl
  | handling => rfl
  | waiting => rfl
  | finished => exact absurd hpc hi

/-- A stream is closed. -/
lemma leads_exit (hu : u < s.bus.nextSub) {ok : Bus → EventBus.Label → Prop}
    (hok : ok s.bus (.leave u)) :
    (busSystem cfg).Leads ok s.bus (s.exit i u).bus := by
  by_cases hi : (s.bus.subs u).iter = .finished
  · have hsame : (s.exit i u).bus = s.bus := by
      rw [exit, aclose, hi]
    rw [hsame]
    exact .refl
  · have hleave : s.bus.step cfg (.leave u) = some (aclose s.bus u) := step_leave s.bus hu hi
    exact .single ⟨.leave u, hok, hleave⟩

lemma leads_subscribed :
    (busSystem cfg).Leads (fun b l => b.StartedFirst l) s.bus s.subscribed.bus :=
  .single ⟨.subscribe wildcard initialBufferSize, ⟨fun _ h => (by cases h), rfl⟩⟩

/-- What one step of the server does to its generators, and what it is on the bus. -/
structure Follows (cfg : BusConfig) (s : Server) (l : Label) (t : Server) : Prop where
  wired : t.Wired
  leads : (busSystem cfg).Leads (fun b l' => s.StartedFirst l → b.StartedFirst l') s.bus t.bus

lemma follows_goLive (hw : s.Wired) (hu : u ∈ (s.gens i).had?)
    (h : (s.bus.subs u).iter = .created ∨ (s.bus.subs u).iter = .handling ∨
      (s.bus.subs u).iter = .waiting ∧ (s.bus.subs u).waker = true) :
    Follows cfg s l (s.goLive i u) := by
  have hne : (s.bus.subs u).iter ≠ .finished := by
    intro hf
    rw [hf] at h
    rcases h with h | h | ⟨h, -⟩
    · cases h
    · cases h
    · cases h
  exact ⟨hw.goLive hu hne, (leads_goLive (hw.known hu) h).mono fun _ _ h _ => h⟩

lemma follows_exit (hw : s.Wired) (hu : u ∈ (s.gens i).had?) (hl : u ∈ s.closes l) :
    Follows cfg s l (s.exit i u) := by
  refine ⟨hw.exit hu, leads_exit (hw.known hu) fun hok v hv => ?_⟩
  cases hv
  exact hok u hl

lemma follows_gen (hw : s.Wired) (hu : u ∈ (s.gens i).had?) {pc : GenPc} (hpc : pc.had? = some u)
    (hfit : pc.Fits (s.bus.subs u).iter) :
    Follows cfg s l { s with gens := Function.update s.gens i pc } :=
  ⟨hw.gen hu hpc rfl (fun _ _ _ => rfl) hfit, .refl⟩

lemma follows_bus {l : EventBus.Label} {b : Bus} (hw : s.Wired) (hl : l.consumer.any s.owned = false)
    (hs : s.bus.step cfg l = some b) : Follows cfg s (.bus l) { s with bus := b } := by
  have hturn : Turn s.bus l b := Bus.step_turn hs
  have hn : s.bus.nextSub ≤ b.nextSub := hturn.nextSub_le
  refine ⟨⟨fun u hu => (hw.owned u hu).trans_le hn, hw.had, hw.distinct, fun i u hu => ?_⟩,
    .single ⟨l, fun hok v hv => ?_, hs⟩⟩
  · have hne : l.consumer ≠ some u := by
      intro h
      rw [h, Option.any_some, hw.had i u hu] at hl
      cases hl
    show (s.gens i).Fits (b.subs u).iter
    rw [hturn.iter (hw.known hu) hne]
    exact hw.fits i u hu
  · subst hv
    exact hok v rfl

/-- **Every step of the server** keeps its generators in step with their iterators, and is a run of
the bus. -/
theorem step_follows (hw : s.Wired) (h : s.step cfg l = some t) : Follows cfg s l t := by
  cases l with
  | bus l =>
      rw [step] at h
      split at h
      · cases h
      · rename_i hl
        obtain ⟨b, hs, rfl⟩ := Option.map_eq_some_iff.mp h
        exact follows_bus hw (by simpa using hl) hs
  | start i header =>
      rw [step] at h
      split at h
      · rename_i hi
        cases h
        have hopened : Follows cfg s (.start i header) (s.opened i) :=
          ⟨hw.opened hi, leads_subscribed.mono fun _ _ h _ => h⟩
        have hmem : s.bus.nextSub ∈ ((s.opened i).gens i).had? := by
          simp [Server.opened, GenPc.had?]
        rcases start_eq cfg s i header with heq | heq
        · rw [heq]
          exact hopened
        · rw [heq]
          have hcreated : ((s.opened i).bus.subs s.bus.nextSub).iter = .created := by
            simp [Server.opened, subscribed, Bus.subscribe]
          have hlive : Follows cfg (s.opened i) (.start i header)
              ((s.opened i).goLive i s.bus.nextSub) :=
            follows_goLive hopened.wired hmem (Or.inl hcreated)
          refine ⟨hlive.wired, hopened.leads.trans (hlive.leads.mono fun b l' h _ => h ?_)⟩
          intro v hv
          cases hv
      · cases h
  | fetched i frames =>
      simp only [step] at h
      split at h
      · rename_i u hi
        cases h
        have hu : u ∈ (s.gens i).had? := by simp [hi, GenPc.had?]
        have hfit := hw.fits i u hu
        rw [hi] at hfit
        exact follows_goLive hw hu (Or.inl hfit)
      · rename_i u n hi
        cases h
        have hu : u ∈ (s.gens i).had? := by simp [hi, GenPc.had?]
        have hfit := hw.fits i u hu
        rw [hi] at hfit
        exact follows_gen hw hu rfl hfit
      · cases h
  | failed i =>
      rw [step] at h
      obtain ⟨u, hsub, rfl⟩ := Option.map_eq_some_iff.mp h
      exact follows_exit hw (GenPc.had_of_sub hsub) hsub
  | next i =>
      rw [step] at h
      split at h
      · rename_i u hi
        cases h
        have hu : u ∈ (s.gens i).had? := by simp [hi, GenPc.had?]
        have hfit := hw.fits i u hu
        rw [hi] at hfit
        exact follows_goLive hw hu (Or.inl hfit)
      · rename_i u n hi
        cases h
        have hu : u ∈ (s.gens i).had? := by simp [hi, GenPc.had?]
        have hfit := hw.fits i u hu
        rw [hi] at hfit
        exact follows_gen hw hu rfl hfit
      · rename_i u hi
        simp only [Option.ite_none_right_eq_some, Option.some.injEq] at h
        obtain ⟨hiter, rfl⟩ := h
        exact follows_goLive hw (by simp [hi, GenPc.had?]) (Or.inr (Or.inl hiter))
      · cases h
  | wake i =>
      rw [step] at h
      split at h
      · rename_i u hi
        simp only [Option.ite_none_right_eq_some, Option.some.injEq] at h
        obtain ⟨hiter, rfl⟩ := h
        exact follows_goLive hw (by simp [hi, GenPc.had?]) (Or.inr (Or.inr hiter))
      · cases h
  | disconnect i =>
      rw [step] at h
      cases hi : s.gens i with
      | created =>
          rw [hi] at h
          cases h
          exact ⟨hw.unopened, .refl⟩
      | fetching u =>
          rw [hi] at h
          cases h
          exact follows_exit hw (by simp [hi, GenPc.had?]) (by simp [closes, hi, GenPc.sub?])
      | filling u n =>
          rw [hi] at h
          cases h
          exact follows_exit hw (by simp [hi, GenPc.had?]) (by simp [closes, hi, GenPc.sub?])
      | live u =>
          rw [hi] at h
          cases h
          exact follows_exit hw (by simp [hi, GenPc.had?]) (by simp [closes, hi, GenPc.sub?])
      | ended sub =>
          rw [hi] at h
          cases h

end Server

/-! ### Clean-up -/

open Server
open EventBus (wellFormed_of_via listed_of_via leaked_of_leads cleanedUp_of_via untouched_of_leads)
open EventBus.Bus (leaked_discard)

variable {cfg : BusConfig} {s t : Server} {ok : Server → Label → Prop}

lemma wired_of_via (h : (streamSystem cfg).ReachableVia ok s) : s.Wired := by
  refine h.invariant (fun s hs => ?_) fun s l t hw _ hs => ?_
  · have hs : s = fresh := hs
    subst hs
    exact wired_fresh
  · have hs : s.step cfg l = some t := hs
    exact (step_follows hw hs).wired

lemma fresh_of_init (h : (streamSystem cfg).init s) : (busSystem cfg).init s.bus := by
  have h : s = fresh := h
  subst h
  exact rfl

/-- A run of the server is a run of the bus. -/
lemma bus_of_via (h : (streamSystem cfg).ReachableVia ok s) : (busSystem cfg).Reachable s.bus :=
  h.map_leads Server.bus (fun _ => fresh_of_init) fun _ _ _ hr _ hs =>
    (step_follows (wired_of_via hr) hs).leads.mono fun _ _ _ => trivial

lemma bus_of_startedFirst
    (h : (streamSystem cfg).ReachableVia (fun s l => s.StartedFirst l) s) :
    (busSystem cfg).ReachableVia (fun b l => b.StartedFirst l) s.bus :=
  h.map_leads Server.bus (fun _ => fresh_of_init) fun _ _ _ hr hok hs =>
    (step_follows (wired_of_via hr) hs).leads.mono fun _ _ hl => hl hok

lemma bus_leads (h : (streamSystem cfg).ReachableVia ok s) (hst : (streamSystem cfg).Leads ok s t) :
    (busSystem cfg).Leads (fun _ _ => True) s.bus t.bus :=
  hst.map Server.bus h fun _ _ _ hr _ hs =>
    (step_follows (wired_of_via hr) hs).leads.mono fun _ _ _ => trivial

/-- The step that closes an iterator too early leaks its queue. -/
lemma leaked_of_early {l : Label} {u : SubId} (hw : s.Wired) (hb : s.bus.Listed)
    (h : s.step cfg l = some t) (hu : u ∈ s.closes l) (hi : (s.bus.subs u).iter = .created) :
    t.bus.Leaked u := by
  have hexit : ∀ i, u ∈ (s.gens i).sub? → (s.exit i u).bus.Leaked u := by
    intro i hsub
    have hdiscard : (s.exit i u).bus = s.bus.discard u := by
      rw [exit, aclose, hi]
    rw [hdiscard]
    exact leaked_discard hb (hw.known (GenPc.had_of_sub hsub)) hi
  cases l with
  | bus l =>
      cases l with
      | leave v =>
          cases hu
          rw [Server.step] at h
          split at h
          · cases h
          · obtain ⟨b, hs, rfl⟩ := Option.map_eq_some_iff.mp h
            simp only [Bus.step, Option.ite_none_right_eq_some, hi] at hs
            obtain ⟨hlt, hs⟩ := hs
            cases hs
            exact leaked_discard hb hlt hi
      | _ => cases hu
  | failed i =>
      have hu : (s.gens i).sub? = some u := hu
      rw [Server.step, hu] at h
      cases h
      exact hexit i hu
  | disconnect i =>
      have hu : (s.gens i).sub? = some u := hu
      rw [Server.step] at h
      cases hg : s.gens i with
      | created =>
          rw [hg] at hu
          cases hu
      | fetching v =>
          rw [hg] at hu h
          cases hu
          cases h
          exact hexit i (by rw [hg]; rfl)
      | filling v n =>
          rw [hg] at hu h
          cases hu
          cases h
          exact hexit i (by rw [hg]; rfl)
      | live v =>
          rw [hg] at hu h
          cases hu
          cases h
          exact hexit i (by rw [hg]; rfl)
      | ended sub =>
          rw [hg] at hu
          cases hu
  | start i header => cases hu
  | fetched i frames => cases hu
  | next i => cases hu
  | wake i => cases hu

/-- Where every closed subscriber is gone, none was ever closed before it was started. -/
lemma startedFirst_of_cleanedUp (h : (streamSystem cfg).Reachable s) (hc : s.bus.CleanedUp) :
    (streamSystem cfg).ReachableVia (fun s l => s.StartedFirst l) s := by
  induction h with
  | init h0 => exact .init h0
  | @step s t l hr _ hs ih =>
      have hbus : (busSystem cfg).Reachable s.bus := bus_of_via hr
      have hleads := (step_follows (wired_of_via hr) hs).leads
      -- what has leaked stays in its bucket
      have hleak : ∀ u, ¬t.bus.Leaked u := fun u hk =>
        hc u hk.known hk.finished _ hk.listed
      refine .step (ih fun u hu hf k hk => ?_) (fun u hu hi => ?_) hs
      · have htop : (s.bus.subs u).topic = k := ((wellFormed_of_via hbus).bucket k u hk).2
        have hleaked : s.bus.Leaked u := ⟨hu, hf, htop ▸ hk⟩
        exact hleak u (leaked_of_leads hleaked hleads)
      · exact hleak u (leaked_of_early (wired_of_via hr) (listed_of_via hbus) hs hu hi)

lemma finished_of_closed (hw : s.Wired) {u : SubId} (h : s.Closed u) :
    u < s.bus.nextSub ∧ (s.bus.subs u).iter = .finished := by
  rcases h with h | ⟨i, hi⟩
  · exact h
  · have hu : u ∈ (s.gens i).had? := by simp [hi, GenPc.had?]
    have hfit := hw.fits i u hu
    rw [hi] at hfit
    exact ⟨hw.known hu, hfit⟩

/-- **Clean-up is complete** in exactly the runs that close no iterator before it was started: in
these, whoever is closed is out of the buckets, receives nothing any more, and no publisher that was
not waiting for it already comes to wait for it. -/
theorem subscriptions_cleaned_up (h : (streamSystem cfg).Reachable s) :
    (∀ u, s.Closed u → ∀ t, (streamSystem cfg).Leads (fun _ _ => True) s t →
      s.bus.Untouched u t.bus) ↔
    (streamSystem cfg).ReachableVia (fun s l => s.StartedFirst l) s := by
  constructor
  · intro hclean
    exact startedFirst_of_cleanedUp h fun u hu hf =>
      (hclean u (Or.inl ⟨hu, hf⟩) s .refl).unlisted
  · intro hvia u hu t hst
    obtain ⟨hlt, hfin⟩ := finished_of_closed (wired_of_via hvia) hu
    have hc : s.bus.CleanedUp := cleanedUp_of_via (bus_of_startedFirst hvia)
    exact untouched_of_leads ⟨hlt, hfin, hc u hlt hfin⟩ (bus_leads h hst)

/-- A client without a cursor gets an event and disconnects. -/
def readsAndLeaves : List Label :=
  [.start 0 none, .bus (.publish 0 EventBus.stateChanged), .wake 0, .next 0, .disconnect 0]

theorem subscriptions_cleaned_up_of_readsAndLeaves : ∃ s,
    (streamSystem {}).checkedRun (fun s l => s.StartedFirst l) fresh readsAndLeaves = some s ∧
      s.gens 0 = .ended (some 0) ∧
      ∀ u, s.Closed u → ∀ t, (streamSystem {}).Leads (fun _ _ => True) s t →
        s.bus.Untouched u t.bus := by
  have hrun : ((streamSystem {}).checkedRun (fun s l => s.StartedFirst l) fresh
      readsAndLeaves).map (fun s => decide (s.gens 0 = .ended (some 0))) = some true := by decide
  obtain ⟨s, hs, he⟩ := Option.map_eq_some_iff.mp hrun
  have hvia : (streamSystem {}).ReachableVia (fun s l => s.StartedFirst l) s :=
    .of_checkedRun (.init rfl) hs
  exact ⟨s, hs, of_decide_eq_true he, (subscriptions_cleaned_up hvia.reachable).mpr hvia⟩

/-! ### A queue that stays -/

/-- A client disconnects while its frames are fetched; another subscriber, with room for one event,
closes its iterator without having read anything. -/
def leaveEarly : List Label :=
  [.start 0 (some (.frame 3)), .disconnect 0, .bus (.subscribe wildcard 1), .bus (.leave 1)]

/-- Then two durable events are published. -/
def publishTwice : List Label :=
  [.bus (.publish 0 EventBus.stateChanged), .bus (.publish 0 EventBus.stateChanged)]

/-- Both queues stay in their bucket, and the second publisher waits for one that nobody reads. -/
theorem early_disconnect_leaks : ∃ s, (streamSystem {}).Reachable s ∧
    s.gens 0 = .ended (some 0) ∧ 0 ∈ s.bus.buckets wildcard ∧
    s.Closed 1 ∧ 1 ∈ s.bus.buckets wildcard ∧ (∀ q e, ¬s.bus.Awaits q 1 e) ∧
    ∃ t, (streamSystem {}).Leads (fun _ _ => True) s t ∧
      ∃ e, e.durable = true ∧ t.bus.Awaits 0 1 e := by
  refine ⟨_, .of_run (.init rfl) (show (streamSystem {}).run fresh leaveEarly = some _ from rfl),
    rfl, by decide, Or.inl (by decide), by decide, ?_, _,
    .of_run (show (streamSystem {}).run _ publishTwice = some _ from rfl), _, ?_, _, _, _, _, rfl,
    rfl⟩
  · rintro q e ⟨pub, wild, pos, w, h, -⟩
    cases h
  · decide

end GgRelay.Streams
