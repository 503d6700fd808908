import GgRelay.Lib.System

/-!
The in-process event bus (`core/event_bus.py`) as a transition system.

A publisher runs through the subscribers of its topic, then through those of the wildcard,
without a pause unless a durable event meets a full queue: there it waits, with its position in
the live list of subscribers.  Everything else can happen in the meantime.

* `Sub` is a subscriber with its queue and its iterator, `PubPc` where a publisher is suspended;
* `dispatchLoop` is the loop of `_dispatch` up to its next `await`, `Bus.step` the whole bus;
* `appended`, `delivered`, `before` and `ended` are history: the program does not read them.
-/

namespace GgRelay.EventBus

/-- The special key of the subscribers to everything. -/
def wildcard : String := "*"

/-- `type(ev).__name__`. -/
abbrev ClassName := { s : String // s ≠ wildcard }

/-- `DeliveryTier`. -/
inductive Tier where
  | lossy
  | durable
  deriving DecidableEq, Repr

/-- The two forms of `publish`. -/
inductive Form where
  /-- `publish(event)` -/
  | typed (cls : ClassName) (tier : Tier)
  /-- `publish(topic, payload)` -/
  | legacy (topic : String)
  deriving DecidableEq

/-- `topic_key`. -/
def Form.topic : Form → String
  | .typed cls _ => cls
  | .legacy topic => topic

/-- The tier it is dispatched with. -/
def Form.tier : Form → Tier
  | .typed _ tier => tier
  | .legacy _ => .lossy

abbrev SubId := ℕ
abbrev PubId := ℕ

/-- An event that was passed to `publish`: publications are numbered in their order. -/
structure Event where
  number : ℕ
  publisher : PubId
  form : Form
  deriving DecidableEq

/-- A durable event. -/
def Event.durable (e : Event) : Bool := e.form.tier = .durable

/-- `SessionStateChanged` -/
def stateChanged : Form := .typed ⟨"SessionStateChanged", by decide⟩ .durable

/-- `SessionOutputChunk` -/
def outputChunk : Form := .typed ⟨"SessionOutputChunk", by decide⟩ .lossy

/-- Where the iterator of a subscriber is. -/
inductive IterPc where
  /-- not started -/
  | created
  /-- at its `yield`, while the consumer handles the item -/
  | handling
  /-- waiting for the waker -/
  | waiting
  | finished
  deriving DecidableEq, Repr

/-- A `_Sub`, with the iterator that reads it. -/
structure Sub where
  topic : String
  maxsize : ℕ
  items : List Event := []
  waker : Bool := false
  drained : Bool := false
  closedFlag : Bool := false
  dropped : ℕ := 0
  durableDropped : ℕ := 0
  iter : IterPc := .created
  /-- history: what was appended to the queue -/
  appended : List Event := []
  /-- history: what the iterator has yielded -/
  delivered : List Event := []

/-- `len(sub.items) >= sub.maxsize`. -/
def Sub.full (s : Sub) : Bool := s.maxsize ≤ s.items.length

/-- The end of an iteration of the loop in `_dispatch`: make room, append, wake.  Popping from an
empty queue raises. -/
def Sub.push (e : Event) (s : Sub) : Option Sub :=
  if s.full then
    match s.items with
    | _ :: rest => some { s with
        items := rest ++ [e], dropped := s.dropped + 1, waker := true
        appended := s.appended ++ [e] }
    | [] => none
  else some { s with items := s.items ++ [e], waker := true, appended := s.appended ++ [e] }

/-- A publication, with the subscribers of its topic or of the wildcard when it began. -/
structure Publish where
  event : Event
  before : List SubId

/-- Where a publisher is suspended. -/
inductive PubPc where
  | idle
  /-- `durable_store.persist` -/
  | persisting (pub : Publish)
  /-- waiting for room in the queue of `sub`, at this position of the list it goes through;
  `woken` once the queue has been drained -/
  | blocked (pub : Publish) (wild : Bool) (pos : ℕ) (sub : SubId) (woken : Bool)

/-- The publication in progress. -/
def PubPc.publish? : PubPc → Option Publish
  | .idle => none
  | .persisting pub | .blocked pub _ _ _ _ => some pub

/-- The publishers that wait for this subscriber are woken. -/
def PubPc.wake (s : SubId) : PubPc → PubPc
  | .blocked pub wild pos sub woken => .blocked pub wild pos sub (woken || decide (sub = s))
  | pc => pc

/-- A publication that is over, with the subscribers of its topic or of the wildcard then. -/
structure Ended where
  pub : Publish
  after : List SubId

/-- The constructor arguments of `EventBus`. -/
structure BusConfig where
  /-- `durable_block_timeout_s > 0` -/
  blocks : Bool := true
  hasStore : Bool := false
  strictDurable : Bool := false

/-- The state of an `EventBus`. -/
structure Bus where
  subs : SubId → Sub
  /-- `_subs` -/
  buckets : String → List SubId
  closed : Bool
  pubs : PubId → PubPc
  nextSub : SubId
  nextPub : PubId
  nextEvent : ℕ
  ended : List Ended

namespace Bus

/-- `EventBus.__init__`. -/
def fresh : Bus where
  subs := fun _ => { topic := "", maxsize := 0 }
  buckets := fun _ => []
  closed := false
  pubs := fun _ => .idle
  nextSub := 0
  nextPub := 0
  nextEvent := 0
  ended := []

variable (cfg : BusConfig) (b : Bus)

/-- The subscribers an event of this topic is for. -/
def audience (topic : String) : List SubId := b.buckets topic ++ b.buckets wildcard

/-! ### `publish` and `_dispatch` -/

/-- What becomes of the loop of `_dispatch`. -/
inductive Dispatched where
  | through
  /-- it waits for this subscriber, at this position -/
  | blockedAt (pos : ℕ) (s : SubId)
  | raised

/-- The loop of `_dispatch` over the rest of the list, from the position `pos` on. -/
def dispatchLoop (e : Event) :
    List SubId → ℕ → (SubId → Sub) → (SubId → Sub) × Dispatched
  | [], _, subs => (subs, .through)
  | s :: rest, pos, subs =>
      if (subs s).full && e.durable && cfg.blocks then
        (Function.update subs s { subs s with drained := false }, .blockedAt pos s)
      else
        match (subs s).push e with
        | none => (subs, .raised)
        | some t => dispatchLoop e rest (pos + 1) (Function.update subs s t)

/-- The publication is over. -/
def finish (p : PubId) (pub : Publish) : Bus :=
  { b with
    pubs := Function.update b.pubs p .idle
    ended := ⟨pub, b.audience pub.event.form.topic⟩ :: b.ended }

/-- The dispatch to the wildcard, from a position on. -/
def dispatchWild (p : PubId) (pub : Publish) (pos : ℕ) : Bus :=
  match dispatchLoop cfg pub.event ((b.buckets wildcard).drop pos) pos b.subs with
  | (subs, .blockedAt i s) =>
      { b with subs := subs, pubs := Function.update b.pubs p (.blocked pub true i s false) }
  | (subs, .through) | (subs, .raised) => { b with subs := subs }.finish p pub

/-- The dispatch to the topic, from a position on, and then to the wildcard. -/
def dispatchTopic (p : PubId) (pub : Publish) (pos : ℕ) : Bus :=
  match dispatchLoop cfg pub.event ((b.buckets pub.event.form.topic).drop pos) pos b.subs with
  | (subs, .blockedAt i s) =>
      { b with subs := subs, pubs := Function.update b.pubs p (.blocked pub false i s false) }
  | (subs, .through) => { b with subs := subs }.dispatchWild cfg p pub 0
  | (subs, .raised) => { b with subs := subs }.finish p pub

/-- `publish`, up to its first `await`. -/
def publish (p : PubId) (form : Form) : Bus :=
  let pub : Publish := ⟨⟨b.nextEvent, p, form⟩, b.audience form.topic⟩
  let b' := { b with nextEvent := b.nextEvent + 1, nextPub := max b.nextPub (p + 1) }
  if b.closed then b'.finish p pub
  else
    match form with
    | .typed _ .durable =>
        -- persisted before it is fanned out; strict mode refuses to go on without a store
        if cfg.hasStore then { b' with pubs := Function.update b.pubs p (.persisting pub) }
        else if cfg.strictDurable then b'.finish p pub
        else b'.dispatchTopic cfg p pub 0
    | _ => b'.dispatchTopic cfg p pub 0

/-- The rest of an iteration after the wait, and the rest of the loop. -/
def afterWait (p : PubId) (pub : Publish) (wild : Bool) (pos : ℕ) (s : SubId) : Bus :=
  match (b.subs s).push pub.event with
  | none => b.finish p pub
  | some t =>
      let b' := { b with subs := Function.update b.subs s t }
      if wild then b'.dispatchWild cfg p pub (pos + 1) else b'.dispatchTopic cfg p pub (pos + 1)

/-! ### The subscribers -/

/-- `subscribe`. -/
def subscribe (topic : String) (maxsize : ℕ) : Bus :=
  { b with
    subs := Function.update b.subs b.nextSub
      { topic := topic, maxsize := maxsize, closedFlag := b.closed, waker := b.closed }
    buckets := Function.update b.buckets topic (b.buckets topic ++ [b.nextSub])
    nextSub := b.nextSub + 1 }

/-- The `finally` of the iterator: drop the subscriber from its bucket. -/
def unsubscribe (s : SubId) : Bus :=
  { b with
    subs := Function.update b.subs s { b.subs s with iter := .finished }
    buckets := Function.update b.buckets (b.subs s).topic
      ((b.buckets (b.subs s).topic).erase s) }

/-- The end of an iterator that never started: it stays in its bucket. -/
def discard (s : SubId) : Bus :=
  { b with subs := Function.update b.subs s { b.subs s with iter := .finished } }

/-- The iterator from the head of its loop to its next `yield`, `await` or end. -/
def advance (s : SubId) : Bus :=
  match (b.subs s).items with
  | x :: rest =>
      let popped := { b.subs s with
        items := rest, iter := .handling, delivered := (b.subs s).delivered ++ [x] }
      if (b.subs s).full && !(b.subs s).drained then
        { b with
          subs := Function.update b.subs s { popped with drained := true }
          pubs := fun p => (b.pubs p).wake s }
      else { b with subs := Function.update b.subs s popped }
  | [] =>
      if (b.subs s).closedFlag then b.unsubscribe s
      else
        { b with subs := Function.update b.subs s { b.subs s with waker := false, iter := .waiting } }

/-- `close`. -/
def close : Bus :=
  if b.closed then b
  else
    { b with
      closed := true
      subs := fun s =>
        if s ∈ b.buckets (b.subs s).topic then { b.subs s with closedFlag := true, waker := true }
        else b.subs s }

end Bus

/-- One step of a publisher, of a consumer or of the clock. -/
inductive Label where
  | publish (p : PubId) (form : Form)
  /-- `durable_store.persist` returns, or raises -/
  | persisted (p : PubId) (ok : Bool)
  /-- a publisher that was woken goes on -/
  | resume (p : PubId)
  /-- a publisher has waited for `durable_block_timeout_s` -/
  | timeout (p : PubId)
  /-- the task of a publisher is cancelled at its `await` -/
  | cancel (p : PubId)
  | subscribe (topic : String) (maxsize : ℕ)
  /-- the consumer asks for the next item -/
  | next (s : SubId)
  /-- the iterator finds its waker set -/
  | wake (s : SubId)
  /-- the iterator is closed, or its consumer cancelled, before its end -/
  | leave (s : SubId)
  | close
  deriving DecidableEq

/-- One step of the bus. -/
def Bus.step (cfg : BusConfig) (b : Bus) : Label → Option Bus
  | .publish p form =>
      match b.pubs p with
      | .idle => if p ≤ b.nextPub then some (b.publish cfg p form) else none
      | _ => none
  | .persisted p ok =>
      match b.pubs p with
      | .persisting pub => some (if ok then b.dispatchTopic cfg p pub 0 else b.finish p pub)
      | _ => none
  | .resume p =>
      match b.pubs p with
      | .blocked pub wild pos s true => some (b.afterWait cfg p pub wild pos s)
      | _ => none
  | .timeout p =>
      match b.pubs p with
      | .blocked pub wild pos s _ =>
          let counted := { b.subs s with durableDropped := (b.subs s).durableDropped + 1 }
          some ({ b with subs := Function.update b.subs s counted }.afterWait cfg p pub wild pos s)
      | _ => none
  | .cancel p =>
      match b.pubs p with
      | .persisting pub | .blocked pub _ _ _ _ => some (b.finish p pub)
      | .idle => none
  | .subscribe topic maxsize => some (b.subscribe topic maxsize)
  | .next s =>
      if s < b.nextSub ∧ ((b.subs s).iter = .created ∨ (b.subs s).iter = .handling) then
        some (b.advance s)
      else none
  | .wake s =>
      if s < b.nextSub ∧ (b.subs s).iter = .waiting ∧ (b.subs s).waker = true then
        some (b.advance s)
      else none
  | .leave s =>
      if s < b.nextSub then
        match (b.subs s).iter with
        -- closing a generator that has not started runs none of its body
        | .created => some (b.discard s)
        | .handling | .waiting => some (b.unsubscribe s)
        | .finished => none
      else none
  | .close => some b.close

/-- The bus. -/
def busSystem (cfg : BusConfig) : System Bus Label where
  init b := b = Bus.fresh
  step b l := b.step cfg l

end GgRelay.EventBus
