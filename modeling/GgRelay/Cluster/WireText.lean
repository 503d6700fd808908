import GgRelay.Cluster.Wire
import GgRelay.Lib.IsoTime
import GgRelay.Lib.JsonRoundTrip
import GgRelay.Lib.Uuid

/-!
The wire of the Redis stream (`cluster/wire.py`) text by text: a stream entry is a map of strings.

* `encode` and `decode` are `encode_event` and `decode_event` on texts; `decode_entry` says that the
  parsed entries of `Cluster/Wire` are what `decode` makes of them;
* `codec_iff`: an entry is decoded, or raises only what the pump skips over, and an encoded event
  comes back whole, exactly unless the payload is nested too deep for `json.loads`.
-/

namespace GgRelay.Wire

open EventBus (Tier)
open JsonRead
open Json (write dumpsWithin image imageItems All KeysDistinct IntShort)

/-- `datetime.fromisoformat`; `none` is its `ValueError`. -/
structure IsoReader where
  read : String → Option DateTime
  read_isoformat : ∀ t : DateTime, read t.isoformat = some t

instance : Inhabited IsoReader := ⟨⟨fromisoformat, fromisoformat_isoformat⟩⟩

/-- An event with its id and its time. -/
structure StampedEvent where
  eventId : Uuid
  occurredAt : DateTime
  tier : Tier
  body : Body

/-- The event, with its time as a number. -/
def StampedEvent.event (time : DateTime → ℕ) (e : StampedEvent) : RelayEvent :=
  ⟨e.eventId.toNat, time e.occurredAt, e.tier, e.body⟩

/-- `dataclasses.asdict(event)`, without `event_id` and `occurred_at`. -/
def StampedEvent.payload (e : StampedEvent) : List (String × Json) :=
  (e.event fun _ => 0).payload

/-- `getattr(event, "session_id", "") or ""`. -/
def StampedEvent.sessionId (e : StampedEvent) : String := (e.event fun _ => 0).sessionId

/-- `type(event)`. -/
def StampedEvent.cls (e : StampedEvent) : EventClass := (e.event fun _ => 0).cls

/-- `ReplayedEvent`. -/
structure ReplayedEvent where
  eventId : Uuid
  occurredAt : DateTime
  tier : Tier
  typeName : String
  sessionId : String
  payload : List (String × Json)
  seq : ℕ

/-- A `ReplayedEvent` as an event. -/
def ReplayedEvent.event (time : DateTime → ℕ) (e : ReplayedEvent) : RelayEvent :=
  ⟨e.eventId.toNat, time e.occurredAt, e.tier, .replayed e.typeName e.sessionId e.payload e.seq⟩

/-- A string-to-string map. -/
abbrev Fields := String → Option String

/-- `encode_event`, with so many levels for `json.dumps`; `none` is its exception. -/
def encode (limit : ℕ) (e : StampedEvent) : Option Fields :=
  (dumpsWithin [' '] limit (.mapping e.payload)).map fun text k => List.lookup k
    [("v", "1"), ("type", e.cls.name), ("event_id", e.eventId.text), ("ts", e.occurredAt.isoformat),
      ("session_id", e.sessionId), ("tier", tierName e.tier), ("payload", String.ofList text)]

/-- `int(entry.get("v"))`, if there is one and it is an integer. -/
def version (fields : Fields) : Option (Option ℤ) := (fields "v").map IntText.parse

/-- `entry.get("payload") or "{}"`. -/
def payloadText (fields : Fields) : String :=
  match fields "payload" with
  | some t => if t = "" then "{}" else t
  | none => "{}"

/-- The payload; what is no JSON text and what is no dict counts as an empty one. -/
def payloadOf (limit : ℕ) (fields : Fields) : Except ReadError (List (String × Json)) :=
  match loads limit (payloadText fields).toList with
  | .ok (.mapping d) => .ok d
  | .ok _ => .ok []
  | .error .tooDeep => .error .recursionError
  | .error _ => .ok []

/-- The id, or a new one. -/
def eventIdOf (uuid : Uuid) (fields : Fields) : Uuid :=
  match fields "event_id" with
  | some t => if t = "" then uuid else (Uuid.parse t).getD uuid
  | none => uuid

/-- `decode_event`, with so many levels for `json.loads`, and with what `uuid4()` and
`datetime.now(UTC)` return. -/
def decode (R : IsoReader) (limit : ℕ) (uuid : Uuid) (now : DateTime) (fields : Fields) :
    Except ReadError ReplayedEvent :=
  if version fields = some (some schemaVersion) then
    match fields "ts" with
    | none => .error (.keyError "ts")
    | some ts =>
        match payloadOf limit fields with
        | .error err => .error err
        | .ok payload =>
            match fields "type" with
            | none => .error (.keyError "type")
            | some typeName => .ok {
                eventId := eventIdOf uuid fields
                occurredAt := (R.read ts).getD now
                tier := if fields "tier" = some "lossy" then .lossy else .durable
                typeName := typeName
                sessionId := (fields "session_id").getD ""
                payload := payload
                seq := 0 }
  else .error (.unsupportedWireVersion (version fields))

/-! ### The parsed entries -/

/-- A text that is to be JSON, parsed. -/
def jsonText (limit : ℕ) (t : String) : JsonText :=
  match loads limit t.toList with
  | .ok v => .value v
  | .error .tooDeep => .tooDeep
  | .error _ => .invalid

/-- The entry with its texts parsed; a missing payload is the text of an empty dict. -/
def entryOf (R : IsoReader) (limit : ℕ) (time : DateTime → ℕ) (fields : Fields) : Entry where
  v := version fields
  type := fields "type"
  eventId := (fields "event_id").bind fun t =>
    if t = "" then none else some ((Uuid.parse t).map BitVec.toNat)
  ts := (fields "ts").map fun t => (R.read t).map time
  sessionId := fields "session_id"
  tier := fields "tier"
  payload := some (jsonText limit (payloadText fields))

section Entry

variable {R : IsoReader} {limit : ℕ} {time : DateTime → ℕ} {fields : Fields} {uuid : Uuid}
  {now : DateTime}

lemma eventIdOf_entryOf : (eventIdOf uuid fields).toNat =
    ((entryOf R limit time fields).eventId.getD none).getD uuid.toNat := by
  rw [eventIdOf, entryOf]
  cases fields "event_id" with
  | none => rfl
  | some t =>
      simp only [Option.bind_some]
      split_ifs
      · rfl
      · cases Uuid.parse t <;> rfl

/-- **`decode` makes of the texts what the model of the pump makes of the parsed entry.** -/
theorem decode_entry : (decode R limit uuid now fields).map (ReplayedEvent.event time) =
    decodeEvent uuid.toNat (time now) (entryOf R limit time fields) := by
  rw [decode, decodeEvent, Entry.required]
  by_cases hv : version fields = some (some schemaVersion)
  · have hv' : (entryOf R limit time fields).v = some (some schemaVersion) := hv
    rw [if_pos hv, if_pos hv']
    cases hts : fields "ts" with
    | none =>
        have hts' : (entryOf R limit time fields).ts = none := by simp [entryOf, hts]
        rw [hts']
        rfl
    | some ts =>
        have hts' : (entryOf R limit time fields).ts = some ((R.read ts).map time) := by
          simp [entryOf, hts]
        have htype : (entryOf R limit time fields).type = fields "type" := rfl
        have hpayload : (entryOf R limit time fields).payload
            = some (jsonText limit (payloadText fields)) := rfl
        rw [hts', htype, hpayload, payloadOf, jsonText]
        have hid := @eventIdOf_entryOf R limit time fields uuid
        have htime : time ((R.read ts).getD now) = ((R.read ts).map time).getD (time now) := by
          cases R.read ts <;> rfl
        have hevent : ∀ (name : String) (payload : List (String × Json)),
            ReplayedEvent.event time {
                eventId := eventIdOf uuid fields
                occurredAt := (R.read ts).getD now
                tier := if fields "tier" = some "lossy" then .lossy else .durable
                typeName := name
                sessionId := (fields "session_id").getD ""
                payload := payload
                seq := 0 } =
              ⟨((entryOf R limit time fields).eventId.getD none).getD uuid.toNat,
                ((R.read ts).map time).getD (time now),
                if (entryOf R limit time fields).tier = some "lossy" then .lossy else .durable,
                .replayed name ((entryOf R limit time fields).sessionId.getD "") payload 0⟩ := by
          intro name payload
          rw [ReplayedEvent.event, hid, htime]
          rfl
        cases loads limit (payloadText fields).toList with
        | ok v =>
            cases fields "type" with
            | none => cases v <;> rfl
            | some name => cases v <;> exact congrArg Except.ok (hevent name _)
        | error e =>
            cases e with
            | tooDeep => rfl
            | decode | tooLong | stuck =>
                cases fields "type" with
                | none => rfl
                | some name => exact congrArg Except.ok (hevent name _)
  · have hv' : ¬(entryOf R limit time fields).v = some (some schemaVersion) := hv
    rw [if_neg hv, if_neg hv']
    rfl

end Entry

/-! ### Which entries are decoded -/

/-- An error that the pump skips over. -/
def Skipped (err : ReadError) : Prop :=
  (∃ v, err = .unsupportedWireVersion v) ∨ ∃ k, err = .keyError k

/-- An entry of the version that is spoken here, with a time, whose payload `json.loads` finds too
deep. -/
def TooDeep (limit : ℕ) (fields : Fields) : Prop :=
  version fields = some (some schemaVersion) ∧ (fields "ts").isSome = true ∧
    loads limit (payloadText fields).toList = .error .tooDeep

/-- What is encoded for an event, whose payload has no key twice. -/
structure Encoded (limit : ℕ) where
  event : StampedEvent
  keys : All KeysDistinct (.mapping event.payload)
  fields : Fields
  encoded : encode limit event = some fields

/-- The event as it comes back: with its id, its time, its class name, its session and its tier, and
with the image of its other fields. -/
def StampedEvent.replayed (e : StampedEvent) : ReplayedEvent where
  eventId := e.eventId
  occurredAt := e.occurredAt
  tier := e.tier
  typeName := e.cls.name
  sessionId := e.sessionId
  payload := imageItems e.payload
  seq := 0

section Codec

variable {R : IsoReader} {limit writer : ℕ} {fields : Fields} {uuid : Uuid} {now : DateTime}

lemma payloadOf_error {err : ReadError} (h : payloadOf limit fields = .error err) :
    err = .recursionError ∧ loads limit (payloadText fields).toList = .error .tooDeep := by
  rw [payloadOf] at h
  cases hloads : loads limit (payloadText fields).toList with
  | ok v =>
      rw [hloads] at h
      cases v <;> cases h
  | error e =>
      rw [hloads] at h
      cases e <;> cases h
      exact ⟨rfl, rfl⟩

/-- **An entry is decoded or skipped, unless it is too deep.** -/
theorem decode_handled_iff :
    (∀ err, decode R limit uuid now fields = .error err → Skipped err) ↔ ¬TooDeep limit fields := by
  constructor
  · rintro h ⟨hv, hts, hdeep⟩
    obtain ⟨ts, hts⟩ := Option.isSome_iff_exists.mp hts
    have hpayload : payloadOf limit fields = .error .recursionError := by rw [payloadOf, hdeep]
    have herror : decode R limit uuid now fields = .error .recursionError := by
      rw [decode, if_pos hv, hts, hpayload]
    rcases h _ herror with ⟨v, hskip⟩ | ⟨k, hskip⟩ <;> cases hskip
  · intro hdeep err h
    rw [decode] at h
    by_cases hv : version fields = some (some schemaVersion)
    · rw [if_pos hv] at h
      cases hts : fields "ts" with
      | none =>
          rw [hts] at h
          cases h
          exact Or.inr ⟨_, rfl⟩
      | some ts =>
          rw [hts] at h
          cases hpayload : payloadOf limit fields with
          | error err' =>
              exact absurd ⟨hv, by rw [hts]; rfl, (payloadOf_error hpayload).2⟩ hdeep
          | ok payload =>
              rw [hpayload] at h
              cases htype : fields "type" with
              | none =>
                  rw [htype] at h
                  cases h
                  exact Or.inr ⟨_, rfl⟩
              | some name =>
                  rw [htype] at h
                  cases h
    · rw [if_neg hv] at h
      cases h
      exact Or.inl ⟨_, rfl⟩

/-- The texts of an encoded event. -/
lemma Encoded.fields_eq (e : Encoded writer) : All IntShort (.mapping e.event.payload) ∧
    e.fields = fun k => List.lookup k
      [("v", "1"), ("type", e.event.cls.name), ("event_id", e.event.eventId.text),
        ("ts", e.event.occurredAt.isoformat), ("session_id", e.event.sessionId),
        ("tier", tierName e.event.tier),
        ("payload", String.ofList (write [' '] (.mapping e.event.payload)))] := by
  obtain ⟨text, htext, hfields⟩ := Option.map_eq_some_iff.mp e.encoded
  rw [dumpsWithin] at htext
  split_ifs at htext with hfits
  cases htext
  exact ⟨hfits.2, hfields.symm⟩

lemma Encoded.payloadText_eq (e : Encoded writer) :
    (payloadText e.fields).toList = write [' '] (.mapping e.event.payload) := by
  have hpayload : e.fields "payload" = some
      (String.ofList (write [' '] (.mapping e.event.payload))) := by
    rw [e.fields_eq.2]
    rfl
  have hne : String.ofList (write [' '] (.mapping e.event.payload)) ≠ "" := by
    intro h
    have hlist := congrArg String.toList h
    rw [String.toList_ofList, write] at hlist
    cases hlist
  rw [payloadText, hpayload]
  simp only [if_neg hne, String.toList_ofList]

lemma Encoded.version_eq (e : Encoded writer) : version e.fields = some (some schemaVersion) := by
  rw [version, e.fields_eq.2]
  exact congrArg some (@IntText.parse_toString 1 (by decide))

lemma Encoded.ts_eq (e : Encoded writer) : e.fields "ts" = some e.event.occurredAt.isoformat := by
  rw [e.fields_eq.2]
  rfl

lemma Encoded.eventIdOf_eq (e : Encoded writer) : eventIdOf uuid e.fields = e.event.eventId := by
  have hid : e.fields "event_id" = some e.event.eventId.text := by
    rw [e.fields_eq.2]
    rfl
  have hne : e.event.eventId.text ≠ "" := by
    intro h
    have hparse := Uuid.parse_text e.event.eventId
    rw [h] at hparse
    cases hparse
  rw [eventIdOf, hid]
  simp only [if_neg hne, Uuid.parse_text, Option.getD_some]

lemma loads_blank : ∀ c ∈ [' '], c = ' ' := fun _ h => List.mem_singleton.mp h

/-- An encoded event is too deep exactly if its payload has more levels than the reader. -/
lemma Encoded.tooDeep_iff (e : Encoded writer) :
    TooDeep limit e.fields ↔ limit < Json.depth (.mapping e.event.payload) := by
  rw [TooDeep, e.payloadText_eq, loads_write_tooDeep loads_blank e.keys e.fields_eq.1]
  refine ⟨fun h => h.2.2, fun h => ⟨e.version_eq, ?_, h⟩⟩
  rw [e.ts_eq]
  rfl

/-- **An encoded event comes back, unless it is too deep.** -/
theorem decode_encode_iff (e : Encoded writer) :
    decode R limit uuid now e.fields = .ok e.event.replayed ↔ ¬TooDeep limit e.fields := by
  constructor
  · intro h
    refine (@decode_handled_iff R limit e.fields uuid now).mp fun err herr => ?_
    rw [h] at herr
    cases herr
  · intro hdeep
    rw [e.tooDeep_iff, Nat.not_lt] at hdeep
    have hpayload : payloadOf limit e.fields = .ok (imageItems e.event.payload) := by
      rw [payloadOf, e.payloadText_eq, loads_write loads_blank e.keys e.fields_eq.1 hdeep, image]
    have htype : e.fields "type" = some e.event.cls.name := by
      rw [e.fields_eq.2]
      rfl
    have htier : (if e.fields "tier" = some "lossy" then Tier.lossy else .durable)
        = e.event.tier := by
      have h : e.fields "tier" = some (tierName e.event.tier) := by
        rw [e.fields_eq.2]
        rfl
      rw [h]
      cases e.event.tier with
      | lossy => rfl
      | durable => rfl
    have hsession : (e.fields "session_id").getD "" = e.event.sessionId := by
      rw [e.fields_eq.2]
      rfl
    rw [decode, if_pos e.version_eq, e.ts_eq, hpayload, htype]
    simp only [e.eventIdOf_eq, R.read_isoformat, Option.getD_some, htier, hsession]
    rfl

end Codec

/-- **The codec of the wire.** Every encoded event comes back with its id, its time, its class name,
its session and its tier and with the image of its other fields, and every map of strings is decoded
or raises what the pump skips over, unless `json.loads` finds the payload too deep. -/
theorem codec_iff (R : IsoReader) (writer limit : ℕ) (uuid : Uuid) (now : DateTime) :
    (∀ e : Encoded writer,
      decode R limit uuid now e.fields = .ok e.event.replayed ↔ ¬TooDeep limit e.fields) ∧
    ∀ fields : Fields, (∀ err, decode R limit uuid now fields = .error err → Skipped err) ↔
      ¬TooDeep limit fields :=
  ⟨fun e => decode_encode_iff e, fun _ => decode_handled_iff⟩

/-- An entry whose payload is a text of brackets. -/
def bracketEntry (n : ℕ) : Fields := fun k => List.lookup k
  [("v", "1"), ("type", "SessionOutputChunk"), ("ts", "2026-01-01T00:00:00+00:00"),
    ("payload", String.ofList (List.replicate n '['))]

/-- Brackets beyond the limit raise a `RecursionError`. -/
lemma decode_brackets (R : IsoReader) (limit : ℕ) (uuid : Uuid) (now : DateTime) :
    decode R limit uuid now (bracketEntry (limit + 1)) = .error .recursionError := by
  have hv : version (bracketEntry (limit + 1)) = some (some schemaVersion) :=
    congrArg some (@IntText.parse_toString 1 (by decide))
  have hpayload : bracketEntry (limit + 1) "payload"
      = some (String.ofList (List.replicate (limit + 1) '[')) := rfl
  have hne : String.ofList (List.replicate (limit + 1) '[') ≠ "" := by
    intro h
    have hlist := congrArg String.toList h
    rw [String.toList_ofList, List.replicate_succ] at hlist
    cases hlist
  have hdeep := loads_nested limit []
  rw [List.append_nil] at hdeep
  have hread : payloadOf limit (bracketEntry (limit + 1)) = .error .recursionError := by
    rw [payloadOf, payloadText, hpayload]
    simp only [if_neg hne, String.toList_ofList, hdeep]
  rw [decode, if_pos hv, show bracketEntry (limit + 1) "ts" = some _ from rfl, hread]

/-- A time at which an entry is read. -/
def newYear : DateTime :=
  ⟨{ year := 2026, month := 1, day := 1, hour := 0, minute := 0, second := 0, microsecond := 0,
     offset := some ⟨false, 0, 0, 0, 0⟩ }, by decide⟩

/-- Brackets escape: the pump does not skip over the `RecursionError`. -/
theorem brackets_escape :
    decode default 1000 0 newYear (bracketEntry 1001) = .error .recursionError ∧
      ¬Skipped .recursionError := by
  refine ⟨decode_brackets default 1000 0 newYear, ?_⟩
  rintro (⟨v, h⟩ | ⟨k, h⟩) <;> cases h

end GgRelay.Wire
