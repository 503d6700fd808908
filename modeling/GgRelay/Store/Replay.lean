import GgRelay.Cluster.Wire
import GgRelay.Lib.Page

/-!
Events through the `events` table and back (`store/durable_event.py`).

* `persistRow` is the row `persist` inserts for an event, `rowToReplayed` what `_row_to_replayed`
  makes of a row, `fetchReplayed` the answer of `fetch_after`;
* `Agrees` is what is to survive, `dedup` a subscriber that takes one event for each id;
* `rowToReplayed_persistRow`: all of it survives but the id, which is drawn anew;
* `replay_agrees_iff` is the result.
-/

namespace GgRelay.Wire

open EventBus (Tier)

/-! ### JSON-representable fields -/

mutual

/-- The value is one that `json.dumps` writes without `default`. -/
def Representable : Json → Prop
  | .scalar (.other r) => isFloat r = true
  | .scalar _ | .str _ => True
  | .list vs | .tuple vs => RepresentableMembers vs
  | .mapping d => RepresentableItems d

def RepresentableMembers : List Json → Prop
  | [] => True
  | v :: vs => Representable v ∧ RepresentableMembers vs

def RepresentableItems : List (String × Json) → Prop
  | [] => True
  | (_, v) :: d => Representable v ∧ RepresentableItems d

end

mutual

/-- The value with its tuples as lists, as JSON has them. -/
def listed : Json → Json
  | .scalar a => .scalar a
  | .str s => .str s
  | .list vs | .tuple vs => .list (listedMembers vs)
  | .mapping d => .mapping (listedItems d)

def listedMembers : List Json → List Json
  | [] => []
  | v :: vs => listed v :: listedMembers vs

def listedItems : List (String × Json) → List (String × Json)
  | [] => []
  | (k, v) :: d => (k, listed v) :: listedItems d

end

mutual

/-- What is representable is read back, with lists for tuples. -/
theorem reread_eq_listed : ∀ v : Json, Representable v → reread v = listed v
  | .scalar .null, _ | .scalar (.bool _), _ | .scalar (.int _), _ | .str _, _ => rfl
  | .scalar (.other r), h => by
      rw [reread, if_pos (show isFloat r = true from h), listed]
  | .list vs, h | .tuple vs, h => congrArg Json.list (rereadList_eq_listed vs h)
  | .mapping d, h => congrArg Json.mapping (rereadDict_eq_listed d h)

theorem rereadList_eq_listed :
    ∀ vs : List Json, RepresentableMembers vs → rereadList vs = listedMembers vs
  | [], _ => rfl
  | v :: vs, h => by
      rw [rereadList, listedMembers, reread_eq_listed v h.1, rereadList_eq_listed vs h.2]

theorem rereadDict_eq_listed :
    ∀ d : List (String × Json), RepresentableItems d → rereadDict d = listedItems d
  | [], _ => rfl
  | (k, v) :: d, h => by
      rw [rereadDict, listedItems, reread_eq_listed v h.1, rereadDict_eq_listed d h.2]

end

/-! ### The table -/

/-- A row of the `events` table. -/
structure StoredEvent where
  eventId : ℕ
  /-- none where the driver returns no `datetime` -/
  ts : Option ℕ
  type : String
  sessionId : Option String
  /-- the JSON column -/
  payload : Option (List (String × Json))
  deliveryTier : String
  seq : ℕ

/-- `getattr(event, "session_id", None)`. -/
def RelayEvent.sessionId? (e : RelayEvent) : Option String :=
  match e.body with
  | .typed _ _ fields =>
      match fields.lookup "session_id" with
      | some (.str s) => some s
      | _ => none
  | .replayed _ sessionId _ _ => some sessionId

/-- The row that `persist` inserts. -/
def persistRow (e : RelayEvent) (seq : ℕ) : StoredEvent where
  eventId := e.eventId
  ts := some e.occurredAt
  type := e.cls.name
  sessionId := e.sessionId?
  payload := some (rereadDict e.payload)
  deliveryTier := "disk"
  seq := seq

/-- `_row_to_replayed`, with what `uuid4()` and `datetime.now(UTC)` return. -/
def rowToReplayed (uuid now : ℕ) (row : StoredEvent) : RelayEvent :=
  let payload := row.payload.getD []
  { eventId := uuid
    occurredAt := row.ts.getD now
    tier :=
      match payload.lookup "delivery_tier" with
      | some (.str "lossy") => .lossy
      | _ => .durable
    body := .replayed row.type (row.sessionId.getD "") payload row.seq }

/-- `fetch_after`; `draw` are the ids that `uuid4()` returns, row by row. -/
def fetchReplayed (draw : ℕ → ℕ) (now lastSeq limit : ℕ) (table : List StoredEvent) :
    List RelayEvent :=
  (page StoredEvent.seq lastSeq limit table).map fun row => rowToReplayed (draw row.seq) now row

/-- The cursor an event carries. -/
def RelayEvent.seq? (e : RelayEvent) : Option ℕ :=
  match e.body with
  | .typed _ _ _ => none
  | .replayed _ _ _ seq => some seq

/-! ### What is to survive -/

/-- The replayed copy agrees with the event. -/
structure Agrees (e r : RelayEvent) : Prop where
  eventId : r.eventId = e.eventId
  occurredAt : r.occurredAt = e.occurredAt
  tier : r.tier = e.tier
  sessionId : r.sessionId = e.sessionId
  body : ∃ sessionId seq, r.body = .replayed e.cls.name sessionId (listedItems e.payload) seq

/-- A subscriber who takes the first event of each id. -/
def dedup : List RelayEvent → List RelayEvent
  | [] => []
  | e :: es => e :: (dedup es).filter fun r => r.eventId ≠ e.eventId

lemma sessionId_eq (e : RelayEvent) : e.sessionId?.getD "" = e.sessionId := by
  rw [RelayEvent.sessionId?, RelayEvent.sessionId]
  cases e.body with
  | typed cls h fields =>
      simp only
      cases fields.lookup "session_id" with
      | none => rfl
      | some v => cases v <;> rfl
  | replayed => rfl

/-- **What becomes of an event**: its id is lost, all the rest of it is kept. -/
theorem rowToReplayed_persistRow (uuid now seq : ℕ) (e : RelayEvent) :
    rowToReplayed uuid now (persistRow e seq)
      = { e with eventId := uuid,
                 body := .replayed e.cls.name e.sessionId (rereadDict e.payload) seq } := by
  have htier : (match (rereadDict e.payload).lookup "delivery_tier" with
      | some (.str "lossy") => Tier.lossy
      | _ => .durable) = e.tier := by
    rw [RelayEvent.payload]
    cases e.tier with
    | lossy => rfl
    | durable => rfl
  simp only [rowToReplayed, persistRow, Option.getD_some, htier, sessionId_eq]

lemma agrees_iff {e : RelayEvent} (hjson : RepresentableItems e.payload) (uuid now seq : ℕ) :
    Agrees e (rowToReplayed uuid now (persistRow e seq)) ↔ uuid = e.eventId := by
  rw [rowToReplayed_persistRow]
  refine ⟨fun h => h.eventId, fun h => ⟨h, rfl, rfl, rfl, e.sessionId, seq, ?_⟩⟩
  rw [rereadDict_eq_listed _ hjson]

lemma length_dedup_iff (e r : RelayEvent) :
    (dedup [e, r]).length = 1 ↔ r.eventId = e.eventId := by
  simp [dedup, List.filter_cons]

/-- **When a replayed event agrees with the persisted one**: when the id drawn for it is that of the
event; a subscriber who has both copies takes them for one event in this case only. -/
theorem replay_agrees_iff (draw : ℕ → ℕ) (now lastSeq limit : ℕ) {persisted : List (RelayEvent × ℕ)}
    (hseqs : (persisted.map Prod.snd).Nodup) {e : RelayEvent} {seq : ℕ}
    (he : (e, seq) ∈ persisted) (hjson : RepresentableItems e.payload) :
    let fetched := fetchReplayed draw now lastSeq limit
      (persisted.map fun p => persistRow p.1 p.2)
    (lastSeq < seq → (∃ r ∈ fetched, r.seq? = some seq) ∨
      fetched.length = limit ∧ ∀ r ∈ fetched, ∀ n ∈ r.seq?, n ≤ seq) ∧
    ∀ r ∈ fetched, r.seq? = some seq →
      (Agrees e r ↔ draw seq = e.eventId) ∧
      ((dedup [e, r]).length = 1 ↔ draw seq = e.eventId) := by
  intro fetched
  have hrow : persistRow e seq ∈ persisted.map fun p => persistRow p.1 p.2 :=
    List.mem_map.mpr ⟨(e, seq), he, rfl⟩
  refine ⟨fun hlt => ?_, fun r hr hseq => ?_⟩
  · have hlt : lastSeq < StoredEvent.seq (persistRow e seq) := hlt
    rcases mem_page_or_full (n := limit) hrow hlt with h | ⟨hfull, hle⟩
    · exact Or.inl ⟨_, List.mem_map.mpr ⟨_, h, rfl⟩, rfl⟩
    · refine Or.inr ⟨by rw [← hfull]; exact List.length_map _, fun r hr n hn => ?_⟩
      obtain ⟨row, hpage, rfl⟩ := List.mem_map.mp hr
      cases hn
      exact hle row hpage
  · obtain ⟨row, hpage, rfl⟩ := List.mem_map.mp hr
    obtain ⟨⟨e', seq'⟩, he', rfl⟩ := List.mem_map.mp (mem_of_mem_page hpage).1
    obtain rfl : seq' = seq := Option.some.inj hseq
    obtain rfl : e' = e := congrArg Prod.fst (List.inj_on_of_nodup_map hseqs he' he rfl)
    refine ⟨agrees_iff hjson _ _ _, ?_⟩
    rw [length_dedup_iff]
    rfl

/-- A heartbeat of a session. -/
def someHeartbeat : RelayEvent where
  eventId := 7
  occurredAt := 100
  tier := .lossy
  body := .typed .heartbeat nofun [("session_id", .str "s"), ("runtime_id", .str "r")]

/-- The heartbeat is fetched under another id, and agrees but for it. -/
theorem someHeartbeat_fetched :
    (∃ r ∈ fetchReplayed (fun _ => 8) 0 0 10 [persistRow someHeartbeat 1], r.seq? = some 1 ∧
      ¬Agrees someHeartbeat r) ∧
    ∃ r ∈ fetchReplayed (fun _ => 7) 0 0 10 [persistRow someHeartbeat 1], r.seq? = some 1 ∧
      Agrees someHeartbeat r := by
  have hjson : RepresentableItems someHeartbeat.payload := ⟨trivial, trivial, trivial, trivial⟩
  have key := fun draw : ℕ → ℕ => @replay_agrees_iff draw 0 0 10 [(someHeartbeat, 1)] (by decide)
    someHeartbeat 1 (List.mem_singleton.mpr rfl) hjson
  refine ⟨⟨_, List.mem_singleton.mpr rfl, rfl, ?_⟩, ⟨_, List.mem_singleton.mpr rfl, rfl, ?_⟩⟩
  · have h := ((key fun _ => 8).2 _ (List.mem_singleton.mpr rfl) rfl).1
    exact fun hagrees => absurd (h.mp hagrees) (by decide)
  · exact ((key fun _ => 7).2 _ (List.mem_singleton.mpr rfl) rfl).1.mpr rfl

/-- A subscriber who has the heartbeat and its replayed copy takes them for two events. -/
theorem someHeartbeat_twice :
    ¬∀ r ∈ fetchReplayed (fun _ => 8) 0 0 10 [persistRow someHeartbeat 1],
      Agrees someHeartbeat r ∧ (dedup [someHeartbeat, r]).length = 1 := by
  intro h
  obtain ⟨hagrees, -⟩ := h _ (List.mem_singleton.mpr rfl)
  exact absurd hagrees.eventId (by decide)

end GgRelay.Wire
