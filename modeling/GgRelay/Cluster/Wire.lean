import GgRelay.Core.EventBus
import GgRelay.Lib.Json

/-!
The events of the relay (`core/events.py`) and their form on the Redis stream (`cluster/wire.py`).

A text of a stream entry is taken as what its parser makes of it: `none` where the parser rejects it.

* `EventClass` are the event classes, `RelayEvent` their instances, `RelayEvent.isinstance` the
  check subscribers make;
* `encodeEvent` and `decodeEvent` go to the wire and back: what comes back is a `ReplayedEvent`,
  whatever went out.
-/

namespace GgRelay.Wire

open EventBus (Tier)

/-- The classes of events; all others derive from `relayEvent` directly. -/
inductive EventClass where
  | relayEvent
  | sessionCreated
  | sessionStateChanged
  | sessionOutputChunk
  | sessionCompleted
  | hitlRequested
  | hitlResolved
  | toolRequested
  | toolResolved
  | toolInvocationStarted
  | toolInvocationFinished
  | subagentCompleted
  | installDone
  | installError
  | heartbeat
  | keyInvalidated
  | replayedEvent
  deriving DecidableEq, Repr

/-- `cls.__name__`. -/
def EventClass.name : EventClass → String
  | relayEvent => "RelayEvent"
  | sessionCreated => "SessionCreated"
  | sessionStateChanged => "SessionStateChanged"
  | sessionOutputChunk => "SessionOutputChunk"
  | sessionCompleted => "SessionCompleted"
  | hitlRequested => "HITLRequested"
  | hitlResolved => "HITLResolved"
  | toolRequested => "ToolRequested"
  | toolResolved => "ToolResolved"
  | toolInvocationStarted => "ToolInvocationStarted"
  | toolInvocationFinished => "ToolInvocationFinished"
  | subagentCompleted => "SubagentCompleted"
  | installDone => "InstallDone"
  | installError => "InstallError"
  | heartbeat => "Heartbeat"
  | keyInvalidated => "KeyInvalidated"
  | replayedEvent => "ReplayedEvent"

/-- All classes. -/
def EventClass.all : List EventClass :=
  [relayEvent, sessionCreated, sessionStateChanged, sessionOutputChunk, sessionCompleted,
    hitlRequested, hitlResolved, toolRequested, toolResolved, toolInvocationStarted,
    toolInvocationFinished, subagentCompleted, installDone, installError, heartbeat, keyInvalidated,
    replayedEvent]

lemma EventClass.find_name (c : EventClass) :
    EventClass.all.find? (fun d => d.name = c.name) = some c := by
  cases c <;> rfl

/-- No two classes have the same name. -/
lemma EventClass.name_injective : Function.Injective EventClass.name := by
  intro c d h
  have hc := c.find_name
  rw [h, d.find_name] at hc
  exact (Option.some.inj hc).symm

lemma EventClass.name_ne_wildcard (c : EventClass) : c.name ≠ EventBus.wildcard := by
  cases c <;> decide

/-- The name, as the in-process bus takes it. -/
def EventClass.className (c : EventClass) : EventBus.ClassName := ⟨c.name, c.name_ne_wildcard⟩

/-- What an event has besides the fields of `RelayEvent`. -/
inductive Body where
  /-- the fields of its class, in their order -/
  | typed (cls : EventClass) (h : cls ≠ .replayedEvent) (fields : List (String × Json))
  /-- a `ReplayedEvent` -/
  | replayed (typeName sessionId : String) (payload : List (String × Json)) (seq : ℕ)

/-- An event. -/
structure RelayEvent where
  eventId : ℕ
  occurredAt : ℕ
  tier : Tier
  body : Body

/-- `type(event)`. -/
def RelayEvent.cls (e : RelayEvent) : EventClass :=
  match e.body with
  | .typed cls _ _ => cls
  | .replayed _ _ _ _ => .replayedEvent

/-- `isinstance(event, cls)`. -/
def RelayEvent.isinstance (e : RelayEvent) (cls : EventClass) : Bool :=
  e.cls = cls || cls = .relayEvent

/-- `getattr(event, "session_id", "") or ""`. -/
def RelayEvent.sessionId (e : RelayEvent) : String :=
  match e.body with
  | .typed _ _ fields =>
      match fields.lookup "session_id" with
      | some (.str s) => s
      | _ => ""
  | .replayed _ sessionId _ _ => sessionId

/-- `delivery_tier`. -/
def tierName : Tier → String
  | .lossy => "lossy"
  | .durable => "durable"

/-- `dataclasses.asdict(event)`, without `event_id` and `occurred_at`. -/
def RelayEvent.payload (e : RelayEvent) : List (String × Json) :=
  ("delivery_tier", .str (tierName e.tier)) ::
    match e.body with
    | .typed _ _ fields => fields
    | .replayed typeName sessionId payload seq =>
        [("type_name", .str typeName), ("session_id", .str sessionId),
          ("payload", .mapping payload), ("seq", .scalar (.int seq))]

/-! ### JSON texts -/

/-- The representation of a float. -/
def isFloat (r : String) : Bool :=
  r ∈ ["nan", "inf", "-inf"] ||
    r.toList.all (fun c => c.isDigit || c ∈ ['.', 'e', '+', '-']) &&
      r.toList.any fun c => c = '.' || c = 'e'

mutual

/-- `json.loads(json.dumps(value, default=str))`. -/
def reread : Json → Json
  | .scalar (.other r) => if isFloat r then .scalar (.other r) else .str r
  | .scalar a => .scalar a
  | .str s => .str s
  | .list vs => .list (rereadList vs)
  -- tuples become lists
  | .tuple vs => .list (rereadList vs)
  | .mapping d => .mapping (rereadDict d)

def rereadList : List Json → List Json
  | [] => []
  | v :: vs => reread v :: rereadList vs

def rereadDict : List (String × Json) → List (String × Json)
  | [] => []
  | (k, v) :: d => (k, reread v) :: rereadDict d

end

/-- A text that is to be JSON. -/
inductive JsonText where
  | value (v : Json)
  /-- `ValueError` -/
  | invalid
  /-- nested too deep for the parser -/
  | tooDeep

/-! ### The wire -/

/-- `SCHEMA_VERSION` -/
def schemaVersion : ℤ := 1

/-- The fields of a stream entry. -/
structure Entry where
  v : Option (Option ℤ)
  type : Option String
  /-- an empty text counts as missing -/
  eventId : Option (Option ℕ)
  ts : Option (Option ℕ)
  sessionId : Option String
  tier : Option String
  /-- an empty text counts as missing -/
  payload : Option JsonText

/-- `encode_event`. -/
def encodeEvent (e : RelayEvent) : Entry where
  v := some (some schemaVersion)
  type := some e.cls.name
  eventId := some (some e.eventId)
  ts := some (some e.occurredAt)
  sessionId := some e.sessionId
  tier := some (tierName e.tier)
  payload := some (.value (reread (.mapping e.payload)))

/-- What reading an entry raises. -/
inductive ReadError where
  /-- no `v`, one that is no integer, or another version -/
  | unsupportedWireVersion (version : Option (Option ℤ))
  | keyError (field : String)
  | recursionError
  | unicodeDecodeError
  deriving DecidableEq

/-- The checks of `decode_event`: the time and the class name of an entry that it accepts. -/
def Entry.required (entry : Entry) : Except ReadError (Option ℕ × String) :=
  if entry.v = some (some schemaVersion) then
    match entry.ts, entry.payload, entry.type with
    | none, _, _ => .error (.keyError "ts")
    | some _, some .tooDeep, _ => .error .recursionError
    | some _, _, none => .error (.keyError "type")
    | some ts, _, some typeName => .ok (ts, typeName)
  else .error (.unsupportedWireVersion entry.v)

/-- `decode_event`, with what `uuid4()` and `datetime.now(UTC)` return. -/
def decodeEvent (uuid now : ℕ) (entry : Entry) : Except ReadError RelayEvent :=
  match entry.required with
  | .error err => .error err
  | .ok (ts, typeName) => .ok
      { eventId := (entry.eventId.getD none).getD uuid
        occurredAt := ts.getD now
        tier := if entry.tier = some "lossy" then .lossy else .durable
        body := .replayed typeName (entry.sessionId.getD "")
          (match entry.payload with
            | some (.value (.mapping d)) => d
            | _ => []) 0 }

/-- An entry of the stream. -/
inductive RawEntry where
  | fields (entry : Entry)
  /-- a key or a value is no UTF-8 -/
  | notUtf8

/-- `decode_event(_normalise_fields(..))`. -/
def RawEntry.read (uuid now : ℕ) : RawEntry → Except ReadError RelayEvent
  | .fields entry => decodeEvent uuid now entry
  | .notUtf8 => .error .unicodeDecodeError

/-- The errors that the pump does not catch. -/
def ReadError.crashes : ReadError → Bool
  | .unsupportedWireVersion _ | .keyError _ => false
  | .recursionError | .unicodeDecodeError => true

/-! ### What comes back -/

/-- What becomes of an entry, whatever the clock says. -/
def RawEntry.required : RawEntry → Except ReadError (Option ℕ × String)
  | .fields entry => entry.required
  | .notUtf8 => .error .unicodeDecodeError

/-- The name of the class of the event that it decodes to. -/
def RawEntry.typeName? (raw : RawEntry) : Option String :=
  match raw.required with
  | .ok (_, typeName) => some typeName
  | .error _ => none

/-- Reading it ends the pump. -/
def RawEntry.crashes (raw : RawEntry) : Bool :=
  match raw.required with
  | .ok _ => false
  | .error err => err.crashes

variable {raw : RawEntry} {uuid now : ℕ}

/-- Every decoded event is a `ReplayedEvent` that carries the name of its class. -/
theorem read_ok {e : RelayEvent} (h : raw.read uuid now = .ok e) :
    raw.crashes = false ∧ ∃ name sessionId payload,
      raw.typeName? = some name ∧ e.body = .replayed name sessionId payload 0 := by
  cases raw with
  | fields entry =>
      rw [RawEntry.read, decodeEvent] at h
      cases hr : entry.required with
      | error err =>
          rw [hr] at h
          cases h
      | ok r =>
          rw [hr] at h
          cases h
          exact ⟨by simp [RawEntry.crashes, RawEntry.required, hr], r.2, _, _,
            by simp [RawEntry.typeName?, RawEntry.required, hr], rfl⟩
  | notUtf8 => cases h

theorem read_error {err : ReadError} (h : raw.read uuid now = .error err) :
    raw.typeName? = none ∧ raw.crashes = err.crashes := by
  cases raw with
  | fields entry =>
      rw [RawEntry.read, decodeEvent] at h
      cases hr : entry.required with
      | error err' =>
          rw [hr] at h
          cases h
          exact ⟨by simp [RawEntry.typeName?, RawEntry.required, hr],
            by simp [RawEntry.crashes, RawEntry.required, hr]⟩
      | ok r =>
          rw [hr] at h
          cases h
  | notUtf8 =>
      cases h
      exact ⟨rfl, rfl⟩

/-- What is published can be read. -/
lemma typeName_encode (e : RelayEvent) :
    (RawEntry.fields (encodeEvent e)).typeName? = some e.cls.name := by
  simp [RawEntry.typeName?, RawEntry.required, Entry.required, encodeEvent]

/-- An event that was published comes back as a `ReplayedEvent` with its id, its time, its tier and
its session; its fields are in the payload. -/
theorem decode_encode (e : RelayEvent) :
    decodeEvent uuid now (encodeEvent e) = .ok
      { e with body := .replayed e.cls.name e.sessionId (rereadDict e.payload) 0 } := by
  have htier : (if tierName e.tier = "lossy" then Tier.lossy else .durable) = e.tier := by
    cases e.tier with
    | lossy => rfl
    | durable => rfl
  simp [decodeEvent, Entry.required, encodeEvent, reread, htier]

end GgRelay.Wire
