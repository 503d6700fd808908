import GgRelay.Store.DurableEvents

/-!
The event stream of a session (`api/sse.py`), over the in-process bus with its durable store or over
the Redis bus (`cluster/redis_bus.py`).

One client is followed through its connections.  A connection subscribes, replays what the store has
above the cursor of its `Last-Event-ID`, back-fills frames, and goes on with what the bus has put
into its queue.

* `Item` is what a stream renders, `eventToSse` its frame, `cursorOf` what a reconnect reads off the
  id of a frame;
* `Stream.step` is one step of the store, of a publisher, of the generator or of the client;
* `since`, `pruned`, `missed` and `used` are history: the program does not read them.
-/

namespace GgRelay.Sse

open DurableEvents

abbrev SessionId := ℕ

/-- `event_bus_backend` -/
inductive Backend where
  | inProcess
  | redis
  deriving DecidableEq, Repr

/-- The id of a frame. -/
inductive FrameId where
  /-- `"<seq>:<event_id>"`; the uuid is not read back -/
  | durable (seq : ℕ)
  /-- `"<event_id>"` -/
  | bare
  /-- `"seq:<N>"` -/
  | frame (seq : ℕ)
  deriving DecidableEq, Repr

/-- What a stream renders. -/
inductive Item where
  /-- a `ReplayedEvent`: a row of the store, or an entry of the Redis stream -/
  | replayed (row : EventRow)
  /-- a durable `RelayEvent` of the in-process bus -/
  | event (e : RelayEvent)
  /-- a lossy `RelayEvent`; the Redis bus decodes it to a `ReplayedEvent` -/
  | lossy (session : Option SessionId) (decoded : Bool)
  /-- a frame dict -/
  | frame (session : SessionId) (seq : Option ℕ)
  deriving DecidableEq

/-- The durable event it shows. -/
def Item.eventId? : Item → Option ℕ
  | .replayed row => some row.eventId
  | .event e => some e.eventId
  | .lossy _ _ | .frame _ _ => none

/-- The session it belongs to. -/
def Item.session : Item → Option SessionId
  | .replayed row => row.sessionId
  | .event e => e.sessionId
  | .lossy session _ => session
  | .frame session _ => some session

/-- The id that `_event_to_sse` gives it. -/
def Item.frameId : Item → Option FrameId
  | .replayed row => some (.durable row.seq)
  | .event _ => some .bare
  | .lossy _ decoded => some (if decoded then .durable 0 else .bare)
  | .frame _ seq => seq.map .frame

/-- `_parse_durable_last_event_id`: a uuid has no colon, and a frame cursor is left to the other
parser. -/
def cursorOf : Option FrameId → Option ℕ
  | some (.durable seq) => some seq
  | _ => none

/-- `_parse_last_event_id`: neither a uuid nor a durable cursor is an integer. -/
def frameCursorOf : Option FrameId → Option ℕ
  | some (.frame seq) => some seq
  | _ => none

/-- Where the generator of a connection is. -/
inductive Phase where
  /-- it has subscribed -/
  | opening
  /-- it yields the rows that were fetched -/
  | replaying (rows : List EventRow)
  | listing
  /-- it yields the frames that were listed, by their seq -/
  | backfilling (seqs : List ℕ)
  | live
  deriving DecidableEq

/-- A connection of the client. -/
structure Connection where
  /-- `Last-Event-ID` -/
  header : Option FrameId
  phase : Phase := .opening
  /-- the queue of its subscription -/
  queue : List Item := []
  /-- the client has received a frame on it -/
  got : Bool := false

/-- The rows it has fetched and not yielded. -/
def Connection.rows (c : Connection) : List EventRow :=
  match c.phase with
  | .replaying rows => rows
  | _ => []

/-- `initial_buffer_size` -/
def initialBufferSize : ℕ := 1024

/-- The `limit` of `replay_after`. -/
def replayLimit : ℕ := 1000

structure StreamConfig where
  backend : Backend
  store : StoreConfig
  /-- the `session_id` of the stream -/
  session : SessionId

/-- The stream of a session and its client. -/
structure Stream where
  store : EventStore
  /-- the events whose dispatch has not reached the place of the client's subscription -/
  publishing : List RelayEvent
  conn : Option Connection
  opened : Bool
  /-- the id of the last frame that had one -/
  lastId : Option FrameId
  received : List Item
  /-- history: the durable events of the session that were published since the client has first
  connected -/
  since : List ℕ
  /-- history: the events whose rows were deleted -/
  pruned : List ℕ
  /-- history: the events that were in the queue when the client disconnected, or were dispatched
  since then -/
  missed : List ℕ
  /-- history: all durable events -/
  used : List ℕ

/-- One step. -/
inductive Label where
  /-- a statement on the `events` table; a commit is followed by the dispatch -/
  | store (l : DurableEvents.Label)
  /-- `XADD` -/
  | xadd (e : RelayEvent)
  /-- a dispatch comes to the subscription of the client -/
  | reach (i : ℕ)
  /-- a dispatch leaves it out: it has raised, was cancelled, or the list has moved under it -/
  | skip (i : ℕ)
  | lossy (session : Option SessionId)
  /-- `publish("frame", ..)` -/
  | frame (session : SessionId) (seq : Option ℕ)
  | connect (header : Option FrameId)
  /-- `replay_after`, up to its rows -/
  | replay
  /-- `list_frames`, with the seqs of the frames -/
  | listFrames (seqs : List ℕ)
  /-- the generator goes on to its next frame -/
  | send
  | disconnect
  deriving DecidableEq

/-- The durable events of a list of items. -/
def eventIds (items : List Item) : List ℕ := items.filterMap Item.eventId?

namespace Stream

/-- Nobody has connected. -/
def fresh : Stream where
  store := .fresh
  publishing := []
  conn := none
  opened := false
  lastId := none
  received := []
  since := []
  pruned := []
  missed := []
  used := []

variable (cfg : StreamConfig) (s : Stream)

/-- A durable event is about to be dispatched. -/
def publish (e : RelayEvent) : Stream :=
  { s with
    publishing := s.publishing ++ [e]
    used := s.used ++ [e.eventId]
    since := if s.opened && e.sessionId = some cfg.session then s.since ++ [e.eventId] else s.since }

/-- The append to a queue: the in-process bus makes room, the Redis bus drops the newcomer. -/
def offer (backend : Backend) (item : Item) (queue : List Item) : List Item :=
  if initialBufferSize ≤ queue.length then
    match backend with
    | .inProcess => queue.tail ++ [item]
    | .redis => queue
  else queue ++ [item]

/-- An item comes to the subscription. -/
def arrive (item : Item) : Stream :=
  match s.conn with
  | none => s
  | some c => { s with conn := some { c with queue := offer cfg.backend item c.queue } }

/-- How the event comes out of the bus: `decode_event` does not know its seq. -/
def liveItem (e : RelayEvent) : Item :=
  match cfg.backend with
  | .inProcess => .event e
  | .redis => .replayed ⟨e, 0⟩

/-- The dispatch of an event does not reach the client. -/
def miss (i : ℕ) : Stream := { s with missed := s.missed ++ [i] }

/-- The client receives a frame. -/
def receive (c : Connection) (item : Item) : Stream :=
  { s with
    conn := some { c with got := true }
    received := s.received ++ [item]
    lastId := item.frameId <|> s.lastId }

/-- The generator goes on in another phase. -/
def turn (c : Connection) (phase : Phase) : Stream := { s with conn := some { c with phase } }

/-- The connection is gone, with all that it has not yielded. -/
def drop (c : Connection) : Stream :=
  { s with
    conn := none
    missed := s.missed ++ c.rows.map (·.eventId) ++ eventIds c.queue }

/-- The filter of the replay: a row without a session passes. -/
def replays (row : EventRow) : Bool :=
  row.sessionId = none ∨ row.sessionId = some cfg.session

/-- The replay of a connection. -/
def replay (c : Connection) : Stream :=
  match cursorOf c.header, cfg.backend with
  | none, _ => s.turn c .listing
  -- `RedisStreamEventBus` has no `replay_after`
  | some _, .redis => s.drop c
  | some n, .inProcess =>
      let rows := fetchAfter n replayLimit s.store.table
      { s.turn c (.replaying (rows.filter (replays cfg))) with store := s.store.see rows }

/-- The generator, up to its next `yield` or phase. -/
def send (c : Connection) : Option Stream :=
  match c.phase with
  | .opening | .listing => none
  | .replaying [] => some (s.turn c .listing)
  | .replaying (row :: rows) =>
      some (s.receive { c with phase := .replaying rows } (.replayed row))
  | .backfilling [] => some (s.turn c .live)
  | .backfilling (seq :: seqs) =>
      some (s.receive { c with phase := .backfilling seqs } (.frame cfg.session (some seq)))
  | .live =>
      match c.queue with
      | [] => none
      | item :: queue =>
          if item.session = some cfg.session then some (s.receive { c with queue } item)
          else some { s with conn := some { c with queue } }

/-- A statement on the `events` table. -/
def onStore (l : DurableEvents.Label) : Option Stream :=
  (s.store.step cfg.store l).bind fun store =>
    let s' := { s with
      store := store
      pruned := s.pruned ++ (s.store.table.filter fun row => row ∉ store.table).map (·.eventId) }
    match s.store.commits l with
    | none => some s'
    -- `uuid4` does not repeat itself
    | some row => if row.eventId ∈ s.used then none else some (s'.publish cfg row.toRelayEvent)

/-- One step. -/
def step : Label → Option Stream
  | .store l => if cfg.backend = .inProcess then s.onStore cfg l else none
  | .xadd e =>
      if cfg.backend = .redis ∧ e.eventId ∉ s.used then some (s.publish cfg e) else none
  | .reach i =>
      match s.publishing.find? (·.eventId = i) with
      | none => none
      | some e =>
          let s' := { s with publishing := s.publishing.erase e }
          if s.conn.isSome then some (s'.arrive cfg (liveItem cfg e)) else some (s'.miss i)
  | .skip i =>
      match s.publishing.find? (·.eventId = i) with
      | none => none
      | some e =>
          let s' := { s with publishing := s.publishing.erase e }
          if s.conn.isSome then some s' else some (s'.miss i)
  | .lossy session => some (s.arrive cfg (.lossy session (cfg.backend = .redis)))
  -- the Redis bus ignores the two-argument form of `publish`
  | .frame session seq =>
      some (if cfg.backend = .redis then s else s.arrive cfg (.frame session seq))
  | .connect header =>
      -- a client that has received frames sends the id of the last one
      if s.conn.isNone ∧ (s.opened = true → header = s.lastId) then
        some { s with conn := some { header }, opened := true, missed := [] }
      else none
  | .replay =>
      match s.conn with
      | some c => if c.phase = .opening then some (s.replay cfg c) else none
      | none => none
  | .listFrames seqs =>
      match s.conn with
      | some c =>
          if c.phase = .listing then
            match frameCursorOf c.header with
            | none => some (s.turn c .live)
            | some n => some (s.turn c (.backfilling (seqs.filter (n < ·))))
          else none
      | none => none
  | .send => s.conn.bind fun c => s.send cfg c
  | .disconnect =>
      match s.conn with
      | some c => if c.got = true then some (s.drop c) else none
      | none => none

end Stream

/-- The stream. -/
def streamSystem (cfg : StreamConfig) : System Stream Label where
  init s := s = Stream.fresh
  step s l := s.step cfg l

end GgRelay.Sse
