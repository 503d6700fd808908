import GgRelay.Cluster.Wire

/-!
The bus on a Redis stream (`cluster/redis_bus.py`), in one process.

Publishers add entries to the stream, the pump reads them in batches and puts what they decode to
into the queues of the local subscribers.  The id of an entry is its place in the stream; a cursor is
the number of entries that are not after it, or `$`.

* `LocalDeque` is a subscriber with its queue, `PumpPc` where the pump is;
* `RedisBus.step` is one step of a publisher, of Redis, of the pump or of a consumer;
* `registered`, `put`, `got` and `firstRead` are history: the program does not read them.
-/

namespace GgRelay.Cluster

open Wire

/-- What one subscribes to. -/
inductive Topic where
  | cls (c : EventClass)
  | name (s : String)
  deriving DecidableEq

/-- `matches`. -/
def Topic.matches (topic : Topic) (e : RelayEvent) : Bool :=
  match topic, e.body with
  | .name s, .replayed typeName _ _ _ =>
      s = EventBus.wildcard || e.cls.name = s || typeName = s
  | .name s, .typed _ _ _ => s = EventBus.wildcard || e.cls.name = s
  | .cls c, .replayed typeName _ _ _ => e.isinstance c || typeName = c.name
  | .cls c, .typed _ _ _ => e.isinstance c

/-- A `_LocalDeque`. -/
structure LocalDeque where
  topic : Topic
  /-- without a limit if 0 -/
  maxsize : ℕ
  queue : List RelayEvent := []
  closed : Bool := false
  /-- history: the length of the stream when it was registered -/
  registered : ℕ := 0
  /-- history: what was put into the queue, with the place of its entry -/
  put : List (ℕ × RelayEvent) := []
  /-- history: what the consumer has taken -/
  got : List RelayEvent := []

namespace LocalDeque

/-- `put_nowait` raises `QueueFull`. -/
def full (d : LocalDeque) : Bool := d.maxsize ≠ 0 && d.maxsize ≤ d.queue.length

/-- `offer`, of what the entry `n` decodes to. -/
def offer (n : ℕ) (e : RelayEvent) (d : LocalDeque) : LocalDeque :=
  if d.closed || d.full then d
  else { d with queue := d.queue ++ [e], put := d.put ++ [(n, e)] }

/-- The `get` of `__anext__`. -/
def get (d : LocalDeque) : LocalDeque :=
  match d.queue with
  | [] => d
  | e :: rest => { d with queue := rest, got := d.got ++ [e] }

/-- `aclose`. -/
def aclose (d : LocalDeque) : LocalDeque := { d with closed := true }

end LocalDeque

/-- Where the task of `_pump_loop` is. -/
inductive PumpPc where
  /-- there is none -/
  | absent
  /-- between two reads, with its `last_id`; `none` is `$` -/
  | between (lastId : Option ℕ)
  /-- in an `XREAD` that found nothing after `pos` -/
  | blocked (lastId : Option ℕ) (pos : ℕ)
  /-- these entries are on their way to it -/
  | served (first count : ℕ)
  /-- the task is done -/
  | done
  deriving DecidableEq

/-- A `RedisStreamEventBus` and its stream. -/
structure RedisBus where
  /-- everything that was ever added -/
  stream : List RawEntry
  /-- as many of the first entries are gone -/
  trimmed : ℕ
  /-- `_subs` -/
  subs : List LocalDeque
  pump : PumpPc
  closed : Bool
  /-- history: the length of the stream when the first read of the pump began -/
  firstRead : Option ℕ

structure RedisConfig where
  /-- the `MAXLEN` of `XADD`; the approximate form may keep more -/
  maxlen : ℕ := 100000

/-- The `count` of `XREAD`. -/
def readCount : ℕ := 100

inductive Label where
  /-- `publish`; it may trim the stream to this place, as far as `MAXLEN` lets it -/
  | publish (e : RelayEvent) (trim : ℕ)
  /-- `XADD` by somebody else -/
  | xadd (raw : RawEntry) (trim : ℕ)
  | subscribe (topic : Topic) (maxsize : ℕ)
  /-- the pump comes to its next `XREAD` -/
  | call
  /-- Redis answers a blocked `XREAD` -/
  | serve
  /-- `block` is over -/
  | timeout
  /-- the pump goes through a response, with what `uuid4()` and the clock return for each entry -/
  | handle (env : ℕ → ℕ × ℕ)
  /-- the consumer of a subscriber takes an event -/
  | get (i : ℕ)
  | aclose (i : ℕ)
  | close

/-- What is added to the stream. -/
def Label.added : Label → Option (RawEntry × ℕ)
  | .publish e trim => some (.fields (encodeEvent e), trim)
  | .xadd raw trim => some (raw, trim)
  | _ => none

/-- `_fanout`, of what the entry `n` decodes to. -/
def fanout (n : ℕ) (e : RelayEvent) (subs : List LocalDeque) : List LocalDeque :=
  subs.map fun d => if d.topic.matches e then d.offer n e else d

/-- The loop over the entries of a response, from the entry `n` on, and whether it crashes. -/
def fanBatch (env : ℕ → ℕ × ℕ) :
    List RawEntry → ℕ → List LocalDeque → List LocalDeque × Bool
  | [], _, subs => (subs, false)
  | raw :: rest, n, subs =>
      match raw.read (env n).1 (env n).2 with
      | .ok e => fanBatch env rest (n + 1) (fanout n e subs)
      | .error err => if err.crashes then (subs, true) else fanBatch env rest (n + 1) subs

/-- One subscriber changes. -/
def updateAt (i : ℕ) (f : LocalDeque → LocalDeque) (subs : List LocalDeque) : List LocalDeque :=
  subs.mapIdx fun j d => if j = i then f d else d

namespace RedisBus

/-- `__init__`, on a stream that has been in use. -/
def fresh (stream : List RawEntry) (trimmed : ℕ) : RedisBus where
  stream := stream
  trimmed := trimmed
  subs := []
  pump := .absent
  closed := false
  firstRead := none

variable (cfg : RedisConfig) (b : RedisBus)

/-- The place up to which an `XADD` trims. -/
def trimTo (trim : ℕ) : ℕ := max b.trimmed (min trim (b.stream.length + 1 - cfg.maxlen))

/-- `XADD`. -/
def xadd (raw : RawEntry) (trim : ℕ) : RedisBus :=
  { b with stream := b.stream ++ [raw], trimmed := b.trimTo cfg trim }

/-- `subscribe`. -/
def subscribe (topic : Topic) (maxsize : ℕ) : RedisBus :=
  { b with
    subs := b.subs ++ [{ topic := topic, maxsize := maxsize, registered := b.stream.length }]
    pump := match b.pump with
      | .absent | .done => .between none
      | pump => pump }

/-- The first entry after this one that is still there. -/
def after (pos : ℕ) : ℕ := max pos b.trimmed

/-- Redis answers with the entries after this one. -/
def serveFrom (pos : ℕ) : RedisBus :=
  { b with pump := .served (b.after pos) (min readCount (b.stream.length - b.after pos)) }

/-- The `XREAD` of the pump. -/
def call (lastId : Option ℕ) : RedisBus :=
  if b.closed then { b with pump := .done }
  else
    -- `$` is the end of the stream now
    let pos := lastId.getD b.stream.length
    let b' := { b with firstRead := some (b.firstRead.getD b.stream.length) }
    if b.after pos < b.stream.length then b'.serveFrom pos
    else { b' with pump := .blocked lastId pos }

/-- The entries of a response. -/
def batch (first count : ℕ) : List RawEntry := (b.stream.drop first).take count

/-- The pump goes through a response. -/
def handle (env : ℕ → ℕ × ℕ) (first count : ℕ) : RedisBus :=
  match fanBatch env (b.batch first count) first b.subs with
  | (subs, true) => { b with subs := subs, pump := .done }
  | (subs, false) => { b with subs := subs, pump := .between (some (first + count)) }

/-- `close`. -/
def close : RedisBus :=
  { b with
    subs := b.subs.map LocalDeque.aclose
    pump := if b.pump = .absent then .absent else .done
    closed := true }

/-- One step of the bus. -/
def step : Label → Option RedisBus
  | .publish e trim => some (b.xadd cfg (.fields (encodeEvent e)) trim)
  | .xadd raw trim => some (b.xadd cfg raw trim)
  | .subscribe topic maxsize => some (b.subscribe topic maxsize)
  | .call =>
      match b.pump with
      | .between lastId => some (b.call lastId)
      | _ => none
  | .serve =>
      match b.pump with
      | .blocked _ pos => if b.after pos < b.stream.length then some (b.serveFrom pos) else none
      | _ => none
  | .timeout =>
      match b.pump with
      | .blocked lastId pos =>
          -- an entry that is there is answered with
          if b.after pos < b.stream.length then none
          else some { b with pump := .between lastId }
      | _ => none
  | .handle env =>
      match b.pump with
      | .served first count => some (b.handle env first count)
      | _ => none
  | .get i =>
      if i < b.subs.length then some { b with subs := updateAt i LocalDeque.get b.subs } else none
  | .aclose i =>
      if i < b.subs.length then some { b with subs := updateAt i LocalDeque.aclose b.subs } else none
  | .close => some b.close

end RedisBus

/-- The bus. -/
def redisSystem (cfg : RedisConfig) : System RedisBus Label where
  init b := ∃ stream trimmed, trimmed ≤ stream.length ∧ b = RedisBus.fresh stream trimmed
  step b l := b.step cfg l

end GgRelay.Cluster
