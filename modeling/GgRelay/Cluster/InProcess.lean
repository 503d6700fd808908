import GgRelay.Cluster.Wire
import GgRelay.Core.Fanout

/-!
One subscriber of the in-process bus, whose publisher publishes typed events one after the other.

* `InProcess` is the bus with the events that were published, `KeepsUp` the condition that there is
  room for them;
* `received_eq` says what the subscriber has received: the events of its class.
-/

namespace GgRelay.Cluster

open Wire
open EventBus (Bus BusConfig Event Publish)

/-- The in-process bus and what was published on it. -/
structure InProcess where
  bus : Bus
  published : List RelayEvent

inductive InProcessLabel where
  /-- `publish(event)` -/
  | publish (e : RelayEvent)
  /-- `durable_store.persist` returns -/
  | persisted
  /-- the subscriber asks for the next event -/
  | next
  /-- its iterator finds the waker set -/
  | wake

namespace InProcess

/-- `bus.subscribe(cls)`, on a new bus. -/
def fresh (cls : EventClass) (maxsize : ℕ) : InProcess :=
  { bus := Bus.fresh.subscribe cls.name maxsize, published := [] }

variable (cfg : BusConfig) (s : InProcess)

/-- `publish`. -/
def publish (e : RelayEvent) : Option InProcess :=
  (s.bus.step cfg (.publish 0 (.typed e.cls.className e.tier))).map fun b =>
    { bus := b, published := s.published ++ [e] }

/-- One step. -/
def step : InProcessLabel → Option InProcess
  | .publish e => s.publish cfg e
  | .persisted => (s.bus.step cfg (.persisted 0 true)).map fun b => { s with bus := b }
  | .next => (s.bus.step cfg (.next 0)).map fun b => { s with bus := b }
  | .wake => (s.bus.step cfg (.wake 0)).map fun b => { s with bus := b }

/-- What is published finds room in the queue of the subscriber. -/
def KeepsUp : InProcessLabel → Prop
  | .publish _ | .persisted => (s.bus.subs 0).full = false
  | .next | .wake => True

instance (l : InProcessLabel) : Decidable (s.KeepsUp l) := by
  cases l <;> unfold KeepsUp <;> infer_instance

/-- The events that these publications were about. -/
def events (published : List RelayEvent) (l : List Event) : List RelayEvent :=
  l.filterMap fun e => published[e.number]?

/-- What the subscriber has received. -/
def received : List RelayEvent := events s.published (s.bus.subs 0).delivered

/-- Everything that was published has been dispatched and received. -/
def CaughtUp : Prop := (s.bus.pubs 0).publish? = none ∧ (s.bus.subs 0).items = []

end InProcess

/-- The in-process bus, with its durable store or without. -/
def inProcessSystem (blocks hasStore : Bool) (cls : EventClass) (maxsize : ℕ) :
    System InProcess InProcessLabel where
  init s := s = InProcess.fresh cls maxsize
  step s l := s.step { blocks := blocks, hasStore := hasStore } l

namespace InProcess

/-! ### The invariant -/

/-- What holds of the bus when `done` was dispatched: the subscriber was given the events of its
class, and nobody else is there. -/
structure Given (cls : EventClass) (b : Bus) (published done : List RelayEvent) : Prop where
  buckets : ∀ k, b.buckets k = if k = cls.name then [0] else []
  nextSub : b.nextSub = 1
  opened : b.closed = false
  closedFlag : (b.subs 0).closedFlag = false
  numbered : b.nextEvent = published.length
  queued : (b.subs 0).appended = (b.subs 0).delivered ++ (b.subs 0).items
  below : ∀ e ∈ (b.subs 0).appended, e.number < done.length
  given : events published (b.subs 0).appended = done.filter fun e => e.cls = cls

/-- The publication that is still to be persisted is the last one. -/
def Persisting (s : InProcess) (pub : Publish) : Prop :=
  ∃ e, s.published = s.published.dropLast ++ [e] ∧
    pub.event.number = s.published.dropLast.length ∧
      pub.event.form = .typed e.cls.className e.tier

/-- What has been dispatched. -/
def dispatched (s : InProcess) : List RelayEvent :=
  match s.bus.pubs 0 with
  | .persisting _ => s.published.dropLast
  | _ => s.published

/-- **The invariant.** -/
structure Kept (cls : EventClass) (s : InProcess) : Prop where
  given : Given cls s.bus s.published s.dispatched
  publisher : s.bus.pubs 0 = .idle ∨ ∃ pub, s.bus.pubs 0 = .persisting pub ∧ s.Persisting pub

variable {cfg : BusConfig} {cls : EventClass} {s : InProcess} {b : Bus} {pub : Publish}

/-- A dispatch comes to the subscriber, or to nobody. -/
lemma dispatch_eq (hb : ∀ k, b.buckets k = if k = cls.name then [0] else [])
    (hfull : (b.subs 0).full = false) {e : RelayEvent}
    (hform : pub.event.form = .typed e.cls.className e.tier) :
    b.dispatchTopic cfg 0 pub 0 =
      (if e.cls = cls then
        b.setSub 0 { b.subs 0 with
          items := (b.subs 0).items ++ [pub.event], waker := true
          appended := (b.subs 0).appended ++ [pub.event] }
      else b).finish 0 pub := by
  have htopic : pub.event.form.topic = e.cls.name := by
    rw [hform]
    rfl
  have hwild : b.buckets EventBus.wildcard = [] := by
    rw [hb, if_neg (Ne.symm cls.name_ne_wildcard)]
  have hpush : (b.subs 0).push pub.event = some { b.subs 0 with
      items := (b.subs 0).items ++ [pub.event], waker := true
      appended := (b.subs 0).appended ++ [pub.event] } := by
    rw [EventBus.Sub.push, hfull]
    rfl
  by_cases hc : e.cls = cls
  · have hbucket : b.buckets pub.event.form.topic = [0] := by
      rw [hb, htopic, hc, if_pos rfl]
    rw [if_pos hc, Bus.dispatchTopic, hbucket]
    simp only [List.drop_zero, Bus.dispatchLoop, hfull, hpush, Bus.dispatchWild, hwild]
    rfl
  · have hbucket : b.buckets pub.event.form.topic = [] := by
      rw [hb, htopic, if_neg fun h => hc (EventClass.name_injective h)]
    rw [if_neg hc, Bus.dispatchTopic, hbucket]
    simp only [List.drop_zero, Bus.dispatchLoop, Bus.dispatchWild, hwild]

variable {b' : Bus} {published done : List RelayEvent}

lemma Given.congr (hg : Given cls b published done) (hb : b'.buckets = b.buckets)
    (hn : b'.nextSub = b.nextSub) (hc : b'.closed = b.closed) (he : b'.nextEvent = b.nextEvent)
    (hs : b'.subs 0 = b.subs 0) : Given cls b' published done :=
  ⟨hb ▸ hg.buckets, hn.trans hg.nextSub, hc.trans hg.opened, hs ▸ hg.closedFlag,
    he.trans hg.numbered, hs ▸ hg.queued, hs ▸ hg.below, hs ▸ hg.given⟩

/-- Later publications do not matter for the earlier ones. -/
lemma events_append {l : List Event} (hl : ∀ x ∈ l, x.number < published.length) (e : RelayEvent) :
    events (published ++ [e]) l = events published l :=
  List.filterMap_congr fun x hx => List.getElem?_append_left (hl x hx)

lemma Given.publish (hg : Given cls b done done) (e : RelayEvent)
    (he : b'.nextEvent = b.nextEvent + 1) (hb : b'.buckets = b.buckets)
    (hn : b'.nextSub = b.nextSub) (hc : b'.closed = b.closed) (hs : b'.subs 0 = b.subs 0) :
    Given cls b' (done ++ [e]) done := by
  refine ⟨hb ▸ hg.buckets, hn.trans hg.nextSub, hc.trans hg.opened, hs ▸ hg.closedFlag, ?_,
    hs ▸ hg.queued, hs ▸ hg.below, ?_⟩
  · rw [he, hg.numbered, List.length_append, List.length_singleton]
  · rw [hs, events_append hg.below, hg.given]

/-- **A dispatch** brings the event to the subscriber if it is of its class. -/
lemma Given.dispatch (cfg : BusConfig) {e : RelayEvent} (hg : Given cls b (done ++ [e]) done)
    (hfull : (b.subs 0).full = false) (hnum : pub.event.number = done.length)
    (hform : pub.event.form = .typed e.cls.className e.tier) :
    Given cls (b.dispatchTopic cfg 0 pub 0) (done ++ [e]) (done ++ [e]) ∧
      (b.dispatchTopic cfg 0 pub 0).pubs 0 = .idle := by
  rw [dispatch_eq hg.buckets hfull hform]
  refine ⟨?_, by simp [Bus.finish]⟩
  have hlen : (done ++ [e]).length = done.length + 1 := by simp
  have hbelow : ∀ x ∈ (b.subs 0).appended, x.number < (done ++ [e]).length := fun x hx => by
    have := hg.below x hx
    omega
  by_cases hc : e.cls = cls
  · rw [if_pos hc]
    have hsub : ((b.setSub 0 { b.subs 0 with
        items := (b.subs 0).items ++ [pub.event], waker := true
        appended := (b.subs 0).appended ++ [pub.event] }).finish 0 pub).subs 0 =
        { b.subs 0 with
          items := (b.subs 0).items ++ [pub.event], waker := true
          appended := (b.subs 0).appended ++ [pub.event] } := by
      simp [Bus.finish, Bus.setSub]
    refine ⟨hg.buckets, hg.nextSub, hg.opened, ?_, hg.numbered, ?_, fun x hx => ?_, ?_⟩
    · rw [hsub]
      exact hg.closedFlag
    · rw [hsub]
      show (b.subs 0).appended ++ [pub.event]
        = (b.subs 0).delivered ++ ((b.subs 0).items ++ [pub.event])
      rw [hg.queued, List.append_assoc]
    · rw [hsub] at hx
      rcases List.mem_append.mp hx with hx | hx
      · exact hbelow x hx
      · rw [List.mem_singleton.mp hx, hnum, hlen]
        exact Nat.lt_succ_self _
    · rw [hsub]
      show events (done ++ [e]) ((b.subs 0).appended ++ [pub.event]) = _
      have hlast : events (done ++ [e]) [pub.event] = [e] := by
        simp [events, hnum]
      have happ : events (done ++ [e]) ((b.subs 0).appended ++ [pub.event])
          = events (done ++ [e]) (b.subs 0).appended ++ events (done ++ [e]) [pub.event] :=
        List.filterMap_append
      rw [happ, hlast, hg.given, List.filter_append, List.filter_singleton]
      simp [hc]
  · rw [if_neg hc]
    refine ⟨hg.buckets, hg.nextSub, hg.opened, hg.closedFlag, hg.numbered, hg.queued, hbelow, ?_⟩
    show events (done ++ [e]) (b.subs 0).appended = _
    rw [hg.given, List.filter_append, List.filter_singleton]
    simp [hc]

/-- A durable event is persisted first if there is a store; everything else is dispatched at once. -/
lemma publish_eq {blocks hasStore : Bool} (hc : b.closed = false) (e : RelayEvent) :
    b.publish { blocks := blocks, hasStore := hasStore } 0 (.typed e.cls.className e.tier) =
      if e.tier = .durable ∧ hasStore = true then
        { b.begin 0 with
          pubs := Function.update b.pubs 0
            (.persisting (b.publication 0 (.typed e.cls.className e.tier))) }
      else (b.begin 0).dispatchTopic { blocks := blocks, hasStore := hasStore } 0
        (b.publication 0 (.typed e.cls.className e.tier)) 0 := by
  unfold Bus.publish
  rw [if_neg (by simp [hc])]
  cases e.tier with
  | lossy => simp only [reduceCtorEq, false_and, if_false, Bus.begin, Bus.publication]
  | durable =>
      cases hasStore with
      | true => simp only [if_true, and_self, Bus.begin, Bus.publication]
      | false =>
          simp only [Bool.false_eq_true, and_false, if_false, Bus.begin, Bus.publication]

/-- The subscriber takes an event, or waits. -/
lemma Given.advance (hg : Given cls b published done) :
    Given cls (b.advance 0) published done ∧
      ((b.pubs 0 = .idle → (b.advance 0).pubs 0 = .idle) ∧
        ∀ pub, b.pubs 0 = .persisting pub → (b.advance 0).pubs 0 = .persisting pub) := by
  rw [Bus.advance]
  split
  · rename_i x rest hx
    have hq := hg.queued
    rw [hx] at hq
    split
    · refine ⟨⟨hg.buckets, hg.nextSub, hg.opened, ?_, hg.numbered, ?_, ?_, ?_⟩, fun h => ?_,
        fun pub h => ?_⟩
      · simp [hg.closedFlag]
      · simp [hq]
      · simpa using hg.below
      · simpa using hg.given
      · simp [h, EventBus.PubPc.wake]
      · simp [h, EventBus.PubPc.wake]
    · refine ⟨⟨hg.buckets, hg.nextSub, hg.opened, ?_, hg.numbered, ?_, ?_, ?_⟩, id, fun _ => id⟩
      · simp [hg.closedFlag]
      · simp [hq]
      · simpa using hg.below
      · simpa using hg.given
  · rename_i hx
    rw [if_neg (by simp [hg.closedFlag])]
    refine ⟨⟨hg.buckets, hg.nextSub, hg.opened, ?_, hg.numbered, ?_, ?_, ?_⟩, id, fun _ => id⟩
    · simp [hg.closedFlag]
    · simpa using hg.queued
    · simpa using hg.below
    · simpa using hg.given

/-- **Every step in which there is room keeps the invariant.** -/
lemma Kept.step {blocks hasStore : Bool} {l : InProcessLabel} {t : InProcess} (hk : Kept cls s)
    (hok : s.KeepsUp l) (h : s.step { blocks := blocks, hasStore := hasStore } l = some t) :
    Kept cls t := by
  have hidle : s.bus.pubs 0 = .idle → s.dispatched = s.published := fun hi => by
    rw [dispatched, hi]
  -- the subscriber goes on
  have hadvance : Kept cls { s with bus := s.bus.advance 0 } := by
    obtain ⟨hgiven, hi, hp⟩ := hk.given.advance
    rcases hk.publisher with hpub | ⟨pub, hpub, hlast⟩
    · refine ⟨?_, Or.inl (hi hpub)⟩
      rw [dispatched, hi hpub]
      rwa [hidle hpub] at hgiven
    · refine ⟨?_, Or.inr ⟨pub, hp pub hpub, hlast⟩⟩
      rw [dispatched, hp pub hpub]
      rwa [dispatched, hpub] at hgiven
  cases l with
  | publish e =>
      obtain ⟨b, hb, rfl⟩ := Option.map_eq_some_iff.mp h
      have hfull : (s.bus.subs 0).full = false := hok
      rw [Bus.step] at hb
      split at hb
      · rename_i hpub
        simp only [Option.ite_none_right_eq_some, Option.some.injEq] at hb
        obtain ⟨-, rfl⟩ := hb
        have hg : Given cls s.bus s.published s.published := by
          have hg := hk.given
          rwa [hidle hpub] at hg
        have hnum : (s.bus.publication 0 (.typed e.cls.className e.tier)).event.number
            = s.published.length := hg.numbered
        have hbegun : Given cls (s.bus.begin 0) (s.published ++ [e]) s.published :=
          hg.publish e rfl rfl rfl rfl rfl
        rw [publish_eq hg.opened]
        split
        · refine ⟨?_, Or.inr ⟨s.bus.publication 0 (.typed e.cls.className e.tier),
            ?_, e, ?_, ?_, rfl⟩⟩
          · rw [dispatched]
            simp only [Function.update_self, List.dropLast_concat]
            exact hbegun.congr rfl rfl rfl rfl rfl
          · simp only [Function.update_self]
          · rw [List.dropLast_concat]
          · rw [List.dropLast_concat]
            exact hnum
        · obtain ⟨hgiven, hi⟩ :=
            hbegun.dispatch { blocks := blocks, hasStore := hasStore } hfull hnum rfl
          refine ⟨?_, Or.inl hi⟩
          rw [dispatched]
          simp only [hi]
          exact hgiven
      · cases hb
  | persisted =>
      obtain ⟨b, hb, rfl⟩ := Option.map_eq_some_iff.mp h
      have hfull : (s.bus.subs 0).full = false := hok
      rw [Bus.step] at hb
      split at hb
      · rename_i pub hpub
        cases hb
        rcases hk.publisher with hi | ⟨pub', hpub', e, hlast, hnum, hform⟩
        · rw [hi] at hpub
          cases hpub
        · rw [hpub] at hpub'
          cases hpub'
          have hg : Given cls s.bus (s.published.dropLast ++ [e]) s.published.dropLast := by
            rw [← hlast]
            have hg := hk.given
            rwa [dispatched, hpub] at hg
          obtain ⟨hgiven, hi⟩ :=
            hg.dispatch { blocks := blocks, hasStore := hasStore } hfull hnum hform
          rw [← hlast] at hgiven
          refine ⟨?_, Or.inl hi⟩
          rw [dispatched]
          simp only [if_true, hi]
          exact hgiven
      · cases hb
  | next =>
      obtain ⟨b, hb, rfl⟩ := Option.map_eq_some_iff.mp h
      simp only [Bus.step, Option.ite_none_right_eq_some, Option.some.injEq] at hb
      obtain ⟨-, rfl⟩ := hb
      exact hadvance
  | wake =>
      obtain ⟨b, hb, rfl⟩ := Option.map_eq_some_iff.mp h
      simp only [Bus.step, Option.ite_none_right_eq_some, Option.some.injEq] at hb
      obtain ⟨-, rfl⟩ := hb
      exact hadvance

lemma kept_fresh (cls : EventClass) (maxsize : ℕ) : Kept cls (fresh cls maxsize) := by
  refine ⟨⟨fun k => ?_, rfl, rfl, ?_, rfl, ?_, ?_, ?_⟩, Or.inl rfl⟩
  · by_cases hk : k = cls.name
    · subst hk
      simp [fresh, Bus.subscribe, Bus.fresh]
    · simp [fresh, Bus.subscribe, Bus.fresh, hk]
  all_goals simp [fresh, Bus.subscribe, Bus.fresh, events, dispatched]

/-- The runs in which the subscriber keeps up. -/
abbrev Runs (blocks hasStore : Bool) (cls : EventClass) (maxsize : ℕ) (s : InProcess) : Prop :=
  (inProcessSystem blocks hasStore cls maxsize).ReachableVia (fun s l => s.KeepsUp l) s

lemma kept_of_runs {blocks hasStore : Bool} {maxsize : ℕ} (h : Runs blocks hasStore cls maxsize s) :
    Kept cls s :=
  h.invariant (fun _ hs => hs ▸ kept_fresh cls maxsize) fun _ _ _ hk hok hs => hk.step hok hs

/-- **Who keeps up receives the events of its class**, as they were published. -/
theorem received_eq {blocks hasStore : Bool} {maxsize : ℕ} (h : Runs blocks hasStore cls maxsize s)
    (hc : s.CaughtUp) : s.received = s.published.filter fun e => e.cls = cls := by
  have hk := kept_of_runs h
  have hidle : s.bus.pubs 0 = .idle := by
    refine hk.publisher.resolve_right fun ⟨pub, hpub, _⟩ => ?_
    have hnone := hc.1
    rw [hpub] at hnone
    cases hnone
  have hdone : s.dispatched = s.published := by rw [dispatched, hidle]
  have hall : (s.bus.subs 0).appended = (s.bus.subs 0).delivered := by
    rw [hk.given.queued, hc.2, List.append_nil]
  rw [received, ← hall, hk.given.given, hdone]

end InProcess

end GgRelay.Cluster
