import GgRelay.Api.Sse

/-!
What a client of an event stream has received over all its connections (`_stream`).

* `StreamGuard` is the condition on runs: a replay picks up exactly what the bus will not bring, and
  nothing is thrown out of the client's queue;
* `Stream.Kept` is the invariant of these runs: an event is received, on its way, or above the
  cursor of the next replay;
* `reconnect_loses_nothing` is the result, `live_id_loses_event` a run in which an event is lost.
-/

namespace GgRelay.Sse

open DurableEvents

@[simp] lemma eventIds_nil : eventIds [] = [] := rfl

@[simp] lemma eventIds_append (l l' : List Item) :
    eventIds (l ++ l') = eventIds l ++ eventIds l' :=
  List.filterMap_append

namespace Stream

/-- The rows that were fetched and not yielded. -/
def rows (s : Stream) : List EventRow := s.conn.elim [] Connection.rows

/-- The queue of the subscription. -/
def queue (s : Stream) : List Item := s.conn.elim [] Connection.queue

/-- The events the bus is about to bring. -/
def waiting (s : Stream) : List ℕ := eventIds s.queue ++ s.publishing.map (·.eventId)

/-- The events that were received. -/
def receivedIds (s : Stream) : List ℕ := eventIds s.received

/-- All events that are accounted for without a replay. -/
def account (s : Stream) : List ℕ :=
  s.receivedIds ++ s.rows.map (·.eventId) ++ s.waiting ++ s.missed

/-- The cursor of the next replay. -/
def ahead (s : Stream) : Option ℕ :=
  match s.conn with
  | none => cursorOf s.lastId
  | some c => if c.phase = .opening then cursorOf c.header else none

/-! ### The condition -/

/-- The replay from this cursor picks up exactly what the bus will not bring. -/
def Complements (s : Stream) (n : ℕ) : Prop :=
  ∀ row ∈ s.store.table, row.eventId ∈ s.since → n < row.seq →
    (row ∈ fetchAfter n replayLimit s.store.table ↔ row.eventId ∉ s.waiting)

instance (s : Stream) (n : ℕ) : Decidable (s.Complements n) :=
  inferInstanceAs (Decidable (∀ row ∈ s.store.table, row.eventId ∈ s.since → n < row.seq →
    (row ∈ fetchAfter n replayLimit s.store.table ↔ row.eventId ∉ s.waiting)))

/-- The event that an append throws out of the queue, or that does not get in. -/
def overflow (cfg : StreamConfig) (s : Stream) (new : List ℕ) : List ℕ :=
  match s.conn with
  | none => []
  | some c =>
      if initialBufferSize ≤ c.queue.length then
        match cfg.backend with
        | .inProcess => eventIds (c.queue.take 1)
        | .redis => new
      else []

/-- The events that a connected client loses with this step. -/
def loses (cfg : StreamConfig) (s : Stream) : Label → List ℕ
  | .skip i => if s.conn.isSome then [i] else []
  | .reach i => s.overflow cfg [i]
  | .lossy _ | .frame _ _ => s.overflow cfg []
  | _ => []

/-- The statement on the `events` table. -/
def statement : Label → Option DurableEvents.Label
  | .store l => some l
  | _ => none

/-- The `Last-Event-ID` of a new connection. -/
def connects : Label → Option (Option FrameId)
  | .connect header => some header
  | _ => none

/-- The cursor of a replay. -/
def replays? (s : Stream) : Label → Option ℕ
  | .replay => s.ahead
  | _ => none

/-- The condition on the steps of a run. -/
structure StreamGuard (cfg : StreamConfig) (s : Stream) (l : Label) : Prop where
  /-- the cursors of the store are sound -/
  cursor : ∀ l' ∈ statement l, s.store.CursorGuard cfg.store l'
  /-- the Redis bus has nothing to replay -/
  backend : ∀ header ∈ connects l, cfg.backend = .redis → s.opened = false ∧ cursorOf header = none
  /-- the first connection may go on from what was given to an earlier client -/
  first : ∀ header ∈ connects l, s.opened = false → ∀ n ∈ cursorOf header,
    n = 0 ∨ n ∈ s.store.seen
  /-- a connection without a replay follows one that has missed nothing -/
  gap : ∀ header ∈ connects l, s.opened = true → cursorOf header = none →
    ∀ i ∈ s.missed, i ∉ s.since
  replay : ∀ n ∈ s.replays? l, s.Complements n
  kept : s.ahead = none → ∀ i ∈ s.loses cfg l, i ∉ s.since

instance (cfg : StreamConfig) (s : Stream) (l : Label) : Decidable (s.StreamGuard cfg l) :=
  decidable_of_iff
    ((∀ l' ∈ statement l, s.store.CursorGuard cfg.store l') ∧
      (∀ header ∈ connects l, cfg.backend = .redis → s.opened = false ∧ cursorOf header = none) ∧
      (∀ header ∈ connects l, s.opened = false → ∀ n ∈ cursorOf header,
        n = 0 ∨ n ∈ s.store.seen) ∧
      (∀ header ∈ connects l, s.opened = true → cursorOf header = none →
        ∀ i ∈ s.missed, i ∉ s.since) ∧
      (∀ n ∈ s.replays? l, s.Complements n) ∧
      (s.ahead = none → ∀ i ∈ s.loses cfg l, i ∉ s.since))
    ⟨fun h => ⟨h.1, h.2.1, h.2.2.1, h.2.2.2.1, h.2.2.2.2.1, h.2.2.2.2.2⟩,
      fun h => ⟨h.cursor, h.backend, h.first, h.gap, h.replay, h.kept⟩⟩

/-! ### The invariant -/

/-- Everything an event can be mentioned in. -/
def mentioned (s : Stream) : List ℕ :=
  s.since ++ s.store.table.map (·.eventId) ++ s.pruned ++ s.account

/-- How the seqs of what was received, fetched and queued compare. -/
structure Ordered (s : Stream) : Prop where
  read : ∀ n ∈ cursorOf s.lastId, ∀ y ∈ s.store.table, y.eventId ∈ s.since →
    y.eventId ∈ s.receivedIds → y.seq ≤ n
  later : s.ahead = none → ∀ y ∈ s.store.table, y.eventId ∈ s.since → y.eventId ∈ s.waiting →
    (∀ n ∈ cursorOf s.lastId, n < y.seq) ∧ ∀ r ∈ s.rows, r.seq < y.seq
  sorted : s.rows.Pairwise fun x y => x.seq < y.seq
  next : ∀ r ∈ s.rows, (∀ n ∈ cursorOf s.lastId, n < r.seq) ∧ r.seq ∈ s.store.seen
  same : ∀ r ∈ s.rows, ∀ y ∈ s.store.table, y.eventId = r.eventId → y = r
  unread : s.rows ≠ [] → cursorOf s.lastId = none → ∀ i ∈ s.since, i ∉ s.receivedIds
  seen : ∀ n ∈ cursorOf s.lastId, n ∈ s.store.seen
  ahead_seen : ∀ n ∈ s.ahead, n = 0 ∨ n ∈ s.store.seen

/-- What a connection was opened with. -/
structure Opened (cfg : StreamConfig) (s : Stream) (c : Connection) : Prop where
  cursor : c.phase = .opening → ∀ n ∈ cursorOf s.lastId, cursorOf c.header = some n
  unread : c.phase = .opening → cursorOf s.lastId = none → cursorOf c.header ≠ none →
    ∀ i ∈ s.since, i ∉ s.receivedIds
  got : c.got = true → c.phase ≠ .opening
  redis : cfg.backend = .redis → cursorOf c.header = none
  /-- only the store gives out durable ids -/
  plain : cfg.backend = .inProcess → ∀ item ∈ c.queue, ∀ n, item.frameId ≠ some (.durable n)
  own : ∀ item ∈ c.queue, ∀ i ∈ item.eventId?, i ∈ s.since → item.session = some cfg.session

/-- **The invariant.**  A published event that is not pruned is accounted for once, or it is above
the cursor of the next replay. -/
structure Kept (cfg : StreamConfig) (s : Stream) : Prop where
  assigned : s.store.Assigned cfg.store
  sound : s.store.Sound
  ids : (s.store.table.map (·.eventId)).Nodup
  used : ∀ i ∈ s.mentioned, i ∈ s.used
  own_table : ∀ y ∈ s.store.table, y.eventId ∈ s.since → y.sessionId = some cfg.session
  own_publishing : ∀ e ∈ s.publishing, e.eventId ∈ s.since → e.sessionId = some cfg.session
  unopened : s.opened = false → s.since = [] ∧ s.conn = none ∧ s.lastId = none
  opened : ∀ c ∈ s.conn, s.Opened cfg c
  unmissed : ∀ c ∈ s.conn, s.missed = []
  gone : ∀ y ∈ s.store.table, y.eventId ∉ s.pruned
  present : cfg.backend = .inProcess → ∀ i ∈ s.since, i ∉ s.pruned →
    i ∈ s.store.table.map (·.eventId)
  settled : s.ahead = none → ∀ i ∈ s.since, i ∉ s.pruned → s.account.count i = 1
  behind : cfg.backend = .inProcess → ∀ n ∈ s.ahead, ∀ y ∈ s.store.table, y.eventId ∈ s.since →
    n < y.seq ∧ y.eventId ∉ s.receivedIds ∧ s.waiting.count y.eventId ≤ 1 ∨
      y.seq ≤ n ∧ s.receivedIds.count y.eventId = 1 ∧ y.eventId ∉ s.waiting
  ordered : cfg.backend = .inProcess → s.Ordered

variable {cfg : StreamConfig} {s s' : Stream} {l : Label}

lemma kept_fresh : Kept cfg fresh := by
  have hsound : EventStore.fresh.Assigned cfg.store ∧ EventStore.fresh.Sound :=
    EventStore.sound_fresh
  refine ⟨hsound.1, hsound.2, List.nodup_nil, ?_, ?_, ?_, fun _ => ⟨rfl, rfl, rfl⟩, ?_, ?_, ?_, ?_, ?_,
    ?_, fun _ => ⟨?_, ?_, List.Pairwise.nil, ?_, ?_, ?_, ?_, ?_⟩⟩
  all_goals simp [fresh, mentioned, account, receivedIds, rows, waiting, queue, EventStore.fresh,
    cursorOf, ahead]

/-! ### The bus and the generator -/

/-- Something moves between the bus and the queue, or out of the queue. -/
lemma Kept.move (hk : Kept cfg s) (publishing : List RelayEvent) (conn : Option Connection)
    (missed : List ℕ) (hs : s' = { s with publishing := publishing, conn := conn, missed := missed })
    (hpub : publishing ⊆ s.publishing) (hahead : s'.ahead = s.ahead) (hrows : s'.rows = s.rows)
    (hconn : s.opened = false → conn = none) (hopened : ∀ c ∈ conn, s'.Opened cfg c)
    (hmissed : ∀ c ∈ conn, missed = []) (hused : ∀ i ∈ s'.account, i ∈ s.used)
    (hwait : ∀ i, s'.waiting.count i ≤ s.waiting.count i)
    (hacc : s.ahead = none → ∀ i ∈ s.since, s'.account.count i = s.account.count i) :
    Kept cfg s' := by
  have hmem : ∀ i, i ∈ s'.waiting → i ∈ s.waiting := fun i hi =>
    List.count_pos_iff.mp ((List.count_pos_iff.mpr hi).trans_le (hwait i))
  subst hs
  refine ⟨hk.assigned, hk.sound, hk.ids, fun i hi => ?_, hk.own_table,
    fun e he => hk.own_publishing e (hpub he), fun ho => ?_, hopened, hmissed, hk.gone, hk.present,
    fun ha i hi hn => ?_, fun hb n hn y hy hi => ?_, fun hb => ?_⟩
  · rcases List.mem_append.mp hi with hi | hi
    · exact hk.used i (List.mem_append_left _ hi)
    · exact hused i hi
  · obtain ⟨hsince, -, hlast⟩ := hk.unopened ho
    exact ⟨hsince, hconn ho, hlast⟩
  · rw [hahead] at ha
    rw [hacc ha i hi]
    exact hk.settled ha i hi hn
  · rw [hahead] at hn
    rcases hk.behind hb n hn y hy hi with ⟨hlt, hr, hw⟩ | ⟨hle, hr, hw⟩
    · exact Or.inl ⟨hlt, hr, (hwait _).trans hw⟩
    · exact Or.inr ⟨hle, hr, fun h => hw (hmem _ h)⟩
  · obtain ⟨hread, hlater, hsorted, hnext, hsame, hunread, hseen, haseen⟩ := hk.ordered hb
    refine ⟨hread, fun ha y hy hi hw => ?_, ?_, ?_, ?_, ?_, hseen, ?_⟩
    · rw [hahead] at ha
      rw [hrows]
      exact hlater ha y hy hi (hmem _ hw)
    · rwa [hrows]
    · rwa [hrows]
    · rwa [hrows]
    · rwa [hrows]
    · rwa [hahead]

/-- The item is no longer on its way. -/
lemma publishing_perm {e : RelayEvent} (he : e ∈ s.publishing) :
    (s.publishing.map (·.eventId)).Perm
      (e.eventId :: (s.publishing.erase e).map (·.eventId)) :=
  (List.perm_cons_erase he).map _

lemma waiting_conn {c : Connection} (hc : s.conn = some c) :
    s.waiting = eventIds c.queue ++ s.publishing.map (·.eventId) := by
  rw [waiting, queue, hc]
  rfl

lemma rows_conn {c : Connection} (hc : s.conn = some c) : s.rows = c.rows := by
  rw [rows, hc]
  rfl

lemma mem_offer {backend : Backend} {item x : Item} {q : List Item}
    (h : x ∈ offer backend item q) : x ∈ q ∨ x = item := by
  unfold offer at h
  split at h
  · split at h
    · rcases List.mem_append.mp h with h | h
      · exact Or.inl (List.mem_of_mem_tail h)
      · exact Or.inr (List.mem_singleton.mp h)
    · exact Or.inl h
  · rcases List.mem_append.mp h with h | h
    · exact Or.inl h
    · exact Or.inr (List.mem_singleton.mp h)

/-- What is in the queue after an append, and what is not. -/
lemma offer_perm {c : Connection} (hc : s.conn = some c) (item : Item) :
    (eventIds (offer cfg.backend item c.queue) ++ s.overflow cfg (eventIds [item])).Perm
      (eventIds c.queue ++ eventIds [item]) := by
  unfold offer overflow
  simp only [hc]
  split
  · cases cfg.backend with
    | inProcess =>
        have hq : eventIds c.queue = eventIds (c.queue.take 1) ++ eventIds c.queue.tail := by
          rw [← eventIds_append, ← List.drop_one, List.take_append_drop]
        rw [hq, eventIds_append]
        refine List.perm_append_comm.trans ?_
        rw [List.append_assoc]
    | redis => exact List.Perm.refl _
  · rw [List.append_nil, eventIds_append]

/-- An item comes to the queue, on its way from the bus or from nowhere: what is thrown out for it
is no event of the client. -/
lemma Kept.arrive (hk : Kept cfg s) {c : Connection} (hc : s.conn = some c)
    {publishing : List RelayEvent} {item : Item} (hpub : publishing ⊆ s.publishing)
    (hperm : (s.publishing.map (·.eventId)).Perm
      (eventIds [item] ++ publishing.map (·.eventId)))
    (hown : ∀ i ∈ item.eventId?, i ∈ s.since → item.session = some cfg.session)
    (hplain : cfg.backend = .inProcess → ∀ n, item.frameId ≠ some (.durable n))
    (hlost : s.ahead = none → ∀ i ∈ s.overflow cfg (eventIds [item]), i ∉ s.since) :
    Kept cfg { s with
      publishing := publishing
      conn := some { c with queue := offer cfg.backend item c.queue } } := by
  have hop := hk.opened c hc
  -- the append, as seen from the events on their way
  have hsum : ∀ i, (eventIds (offer cfg.backend item c.queue) ++
      publishing.map (·.eventId)).count i + (s.overflow cfg (eventIds [item])).count i
      = s.waiting.count i := by
    intro i
    have hoffer : (eventIds (offer cfg.backend item c.queue) ++
        s.overflow cfg (eventIds [item])).Perm (eventIds c.queue ++ eventIds [item]) :=
      offer_perm hc item
    have hq := hoffer.count_eq i
    have hp := hperm.count_eq i
    rw [waiting_conn hc]
    simp only [List.count_append] at hq hp ⊢
    omega
  have hwait : ∀ i, (eventIds (offer cfg.backend item c.queue) ++
      publishing.map (·.eventId)).count i ≤ s.waiting.count i := fun i => by
    have := hsum i
    omega
  refine hk.move _ _ s.missed rfl hpub ?_ ?_ (fun h => ?_) (fun c' hc' => ?_)
    (fun c' hc' => hk.unmissed c hc) (fun i hi => ?_) hwait fun ha i hi => ?_
  · simp only [ahead, hc]
  · simp only [rows, hc]
    rfl
  · rw [(hk.unopened h).2.1] at hc
    cases hc
  · cases hc'
    refine ⟨hop.cursor, hop.unread, hop.got, hop.redis, fun hb x hx => ?_, fun x hx => ?_⟩
    · rcases mem_offer hx with hx | rfl
      · exact hop.plain hb x hx
      · exact hplain hb
    · rcases mem_offer hx with hx | rfl
      · exact hop.own x hx
      · exact hown
  · refine hk.used i (List.mem_append_right _ ?_)
    have hi : i ∈ s.receivedIds ++ s.rows.map (·.eventId) ++ (eventIds
        (offer cfg.backend item c.queue) ++ publishing.map (·.eventId)) ++ s.missed := by
      rw [rows_conn hc]
      exact hi
    rw [account]
    simp only [List.mem_append] at hi ⊢
    rcases hi with (hi | hi) | hi
    · exact Or.inl (Or.inl hi)
    · refine Or.inl (Or.inr ?_)
      have hi : i ∈ eventIds (offer cfg.backend item c.queue) ++ publishing.map (·.eventId) := by
        simpa using hi
      exact List.count_pos_iff.mp ((List.count_pos_iff.mpr hi).trans_le (hwait i))
    · exact Or.inr hi
  · have hzero : (s.overflow cfg (eventIds [item])).count i = 0 :=
      List.count_eq_zero.mpr fun h => hlost ha i h hi
    have heq := hsum i
    rw [hzero, Nat.add_zero] at heq
    show (s.receivedIds ++ c.rows.map (·.eventId) ++ (eventIds
        (offer cfg.backend item c.queue) ++ publishing.map (·.eventId)) ++ s.missed).count i
      = (s.receivedIds ++ s.rows.map (·.eventId) ++ s.waiting ++ s.missed).count i
    rw [rows_conn hc]
    simp only [List.count_append] at heq ⊢
    omega

/-- A dispatch leaves a connected client out. -/
lemma Kept.skip (hk : Kept cfg s) {e : RelayEvent} (he : e ∈ s.publishing)
    (hlost : s.ahead = none → e.eventId ∉ s.since) :
    Kept cfg { s with publishing := s.publishing.erase e } := by
  have hperm := publishing_perm he
  have hsum : ∀ i, (eventIds s.queue ++ (s.publishing.erase e).map (·.eventId)).count i
      + [e.eventId].count i = s.waiting.count i := by
    intro i
    have hp := hperm.count_eq i
    rw [List.count_cons] at hp
    rw [waiting, List.count_append, List.count_append, hp, List.count_singleton]
    omega
  have hwait : ∀ i, (eventIds s.queue ++ (s.publishing.erase e).map (·.eventId)).count i
      ≤ s.waiting.count i := fun i => by
    have := hsum i
    omega
  refine hk.move _ s.conn s.missed rfl List.erase_subset rfl rfl
    (fun h => (hk.unopened h).2.1) (fun c' hc' => ?_) hk.unmissed (fun i hi => ?_) hwait
    fun ha i hi => ?_
  · obtain ⟨hcur, hun, hgot, hr, hplain, hown⟩ := hk.opened c' hc'
    exact ⟨hcur, hun, hgot, hr, hplain, hown⟩
  · refine hk.used i (List.mem_append_right _ ?_)
    have hsub : (s.publishing.erase e).map (·.eventId) ⊆ s.publishing.map (·.eventId) :=
      List.map_subset _ List.erase_subset
    have hi : i ∈ s.receivedIds ++ s.rows.map (·.eventId) ++ (eventIds s.queue ++
        (s.publishing.erase e).map (·.eventId)) ++ s.missed := hi
    rw [account, waiting]
    simp only [List.mem_append] at hi ⊢
    rcases hi with (hi | hi | hi) | hi
    · exact Or.inl (Or.inl hi)
    · exact Or.inl (Or.inr (Or.inl hi))
    · exact Or.inl (Or.inr (Or.inr (hsub hi)))
    · exact Or.inr hi
  · have hzero : [e.eventId].count i = 0 :=
      List.count_eq_zero.mpr fun h => hlost ha (List.mem_singleton.mp h ▸ hi)
    have heq := hsum i
    rw [hzero, Nat.add_zero] at heq
    show (s.receivedIds ++ s.rows.map (·.eventId) ++ (eventIds s.queue ++
        (s.publishing.erase e).map (·.eventId)) ++ s.missed).count i = s.account.count i
    rw [account]
    simp only [List.count_append] at heq ⊢
    omega

/-- A dispatch finds nobody connected. -/
lemma Kept.miss (hk : Kept cfg s) {e : RelayEvent} (he : e ∈ s.publishing)
    (hc : s.conn = none) :
    Kept cfg ({ s with publishing := s.publishing.erase e }.miss e.eventId) := by
  have hperm := publishing_perm he
  have hacc : (s.receivedIds ++ s.rows.map (·.eventId) ++ (eventIds s.queue ++
      (s.publishing.erase e).map (·.eventId)) ++ (s.missed ++ [e.eventId])).Perm s.account := by
    refine List.perm_iff_count.mpr fun i => ?_
    have hp := hperm.count_eq i
    rw [List.count_cons] at hp
    rw [account, waiting]
    simp only [List.count_append, List.count_singleton, hp]
    omega
  refine hk.move _ s.conn (s.missed ++ [e.eventId]) rfl List.erase_subset rfl rfl
    (fun _ => hc) (fun c' hc' => ?_) (fun c' hc' => ?_) (fun i hi => ?_) (fun i => ?_)
    fun _ i _ => hacc.count_eq i
  · rw [hc] at hc'
    cases hc'
  · rw [hc] at hc'
    cases hc'
  · exact hk.used i (List.mem_append_right _ (hacc.mem_iff.mp hi))
  · show (eventIds s.queue ++ (s.publishing.erase e).map (·.eventId)).count i ≤ s.waiting.count i
    rw [waiting]
    exact ((List.Sublist.refl _).append (List.erase_sublist.map _)).count_le i

/-! ### The connections of the client -/

/-- The generator goes on to a phase without rows. -/
lemma Kept.turn (hk : Kept cfg s) {c : Connection} (hc : s.conn = some c) {phase : Phase}
    (hahead : s.ahead = none) (hrows : c.rows = [])
    (hrows' : Connection.rows { c with phase } = []) (hphase : phase ≠ .opening) :
    Kept cfg (s.turn c phase) := by
  have hop := hk.opened c hc
  have heq : (s.turn c phase).rows = s.rows := by
    rw [rows_conn hc, hrows]
    exact hrows'
  refine hk.move s.publishing (some { c with phase }) s.missed
    rfl (List.Subset.refl _) ?_ heq (fun h => ?_) (fun c' hc' => ?_) (fun _ _ => hk.unmissed c hc)
    (fun i hi => ?_) (fun i => ?_) fun _ i _ => ?_
  · rw [hahead]
    simp [ahead, Stream.turn, hphase]
  · rw [(hk.unopened h).2.1] at hc
    cases hc
  · cases hc'
    exact ⟨fun h => absurd h hphase, fun h => absurd h hphase, fun _ => hphase, hop.redis,
      hop.plain, hop.own⟩
  · refine hk.used i (List.mem_append_right _ ?_)
    rw [account, ← heq, waiting_conn hc]
    exact hi
  · rw [waiting_conn hc]
    exact le_rfl
  · rw [account, account, heq, waiting_conn hc]
    rfl

/-- The first connection: nothing has been published for it. -/
lemma Kept.connect_first (hk : Kept cfg s) (ho : s.opened = false) {header : Option FrameId}
    (hredis : cfg.backend = .redis → cursorOf header = none)
    (hfirst : ∀ n ∈ cursorOf header, n = 0 ∨ n ∈ s.store.seen) :
    Kept cfg { s with conn := some { header }, opened := true, missed := [] } := by
  obtain ⟨hsince, hconn, hlast⟩ := hk.unopened ho
  have hempty : ∀ i, i ∉ s.since := by simp [hsince]
  refine ⟨hk.assigned, hk.sound, hk.ids, fun i hi => ?_, hk.own_table, hk.own_publishing,
    (fun h => by cases h), fun c hc => ?_, fun _ _ => rfl, hk.gone, hk.present,
    fun _ i hi => absurd hi (hempty i), fun _ _ _ y _ hi => absurd hi (hempty _), fun _ => ?_⟩
  · refine hk.used i ?_
    have hrows : s.rows = [] := by
      rw [rows, hconn]
      rfl
    have hqueue : s.queue = [] := by
      rw [queue, hconn]
      rfl
    simp only [mentioned, account, waiting, hrows, hqueue, List.mem_append] at hi ⊢
    rcases hi with hi | hi
    · exact Or.inl hi
    · refine Or.inr (Or.inl ?_)
      simpa [rows, queue, Connection.rows, receivedIds] using hi
  · cases hc
    refine ⟨fun _ n hn => ?_, fun _ _ _ i hi => absurd hi (hempty i), (fun h => by cases h), hredis,
      (fun _ _ h => by cases h), (fun _ h => by cases h)⟩
    rw [hlast] at hn
    cases hn
  · refine ⟨fun n hn => ?_, fun _ y _ hi => absurd hi (hempty _), List.Pairwise.nil,
      (fun r hr => by cases hr), (fun r hr => by cases hr), fun h => absurd rfl h, fun n hn => ?_,
      hfirst⟩
    · rw [hlast] at hn
      cases hn
    · rw [hlast] at hn
      cases hn

/-- A further connection, with the id of the last frame. -/
lemma Kept.connect_again (hk : Kept cfg s) (ho : s.opened = true) (hc : s.conn = none)
    (hb : cfg.backend = .inProcess)
    (hgap : cursorOf s.lastId = none → ∀ i ∈ s.missed, i ∉ s.since) :
    Kept cfg { s with conn := some { header := s.lastId }, opened := true, missed := [] } := by
  have hahead : s.ahead = cursorOf s.lastId := by
    rw [ahead, hc]
  have hrows : s.rows = [] := by
    rw [rows, hc]
    rfl
  have hqueue : s.queue = [] := by
    rw [queue, hc]
    rfl
  have hstate : ({ s with conn := some { header := s.lastId }, opened := true, missed := [] } : Stream)
      = { s with
          publishing := s.publishing, conn := some { header := s.lastId }, missed := [] } := by
    rw [← ho]
  rw [hstate]
  refine hk.move _ _ _ rfl (List.Subset.refl _) ?_ ?_ (fun h => ?_) (fun c hc => ?_) (fun _ _ => rfl)
    (fun i hi => ?_) (fun i => ?_) fun ha i hi => ?_
  · rw [hahead]
    simp [ahead]
  · rw [hrows]
    rfl
  · rw [ho] at h
    cases h
  · cases hc
    refine ⟨fun _ n hn => hn, fun _ h h' => absurd h h', (fun h => by cases h), fun h => ?_,
      (fun _ _ h => by cases h), (fun _ h => by cases h)⟩
    rw [hb] at h
    cases h
  · refine hk.used i (List.mem_append_right _ ?_)
    rw [account, waiting, hrows, hqueue]
    simp only [account, waiting, rows, queue, List.mem_append, receivedIds] at hi ⊢
    simpa [Connection.rows] using hi.imp_right fun h => by cases h
  · rw [waiting, waiting, hqueue]
    exact le_rfl
  · have hzero : s.missed.count i = 0 :=
      List.count_eq_zero.mpr fun h => hgap (hahead ▸ ha) i h hi
    rw [account, account, waiting, waiting, hrows, hqueue]
    simp only [List.count_append, hzero]
    rfl

lemma ahead_none {c : Connection} (hc : s.conn = some c) (hphase : c.phase ≠ .opening) :
    s.ahead = none := by
  rw [ahead, hc]
  exact if_neg hphase

lemma rows_nil {c : Connection} (h : ∀ rows, c.phase ≠ .replaying rows) : c.rows = [] := by
  unfold Connection.rows
  split
  · rename_i rows hphase
    exact absurd hphase (h rows)
  · rfl

lemma Item.eventId?_of_frameId {item : Item} (h : item.frameId = none) : item.eventId? = none := by
  cases item with
  | replayed row => cases h
  | event e => cases h
  | lossy session decoded => cases h
  | frame session seq => rfl

/-- A frame that is not from the store: after it there is no replay. -/
lemma Kept.receive (hk : Kept cfg s) {c c' : Connection} {item : Item} (hc : s.conn = some c)
    (hphase : c.phase ≠ .opening) (hphase' : c'.phase ≠ .opening) (hrows : c.rows = [])
    (hrows' : c'.rows = []) (hheader : c'.header = c.header) (hqueue : c'.queue ⊆ c.queue)
    (hperm : (eventIds [item] ++ eventIds c'.queue).Perm (eventIds c.queue))
    (hplain : cfg.backend = .inProcess → ∀ n, item.frameId ≠ some (.durable n)) :
    Kept cfg (s.receive c' item) := by
  have hop := hk.opened c hc
  have hahead := ahead_none hc hphase
  have hids : (s.receive c' item).receivedIds = s.receivedIds ++ eventIds [item] :=
    eventIds_append _ _
  have hrows₀ : s.rows = [] := (rows_conn hc).trans hrows
  have hrows₁ : (s.receive c' item).rows = [] := hrows'
  have hahead₁ : (s.receive c' item).ahead = none := ahead_none rfl hphase'
  have hwaiting : (s.receive c' item).waiting ⊆ s.waiting := by
    rw [waiting_conn hc]
    exact List.append_subset.mpr
      ⟨List.Subset.trans (List.filterMap_subset _ hqueue) (List.subset_append_left _ _),
        List.subset_append_right _ _⟩
  have hacc : (s.receive c' item).account.Perm s.account := by
    refine List.perm_iff_count.mpr fun i => ?_
    have hp := hperm.count_eq i
    have hw : (s.receive c' item).waiting = eventIds c'.queue ++ s.publishing.map (·.eventId) := rfl
    have hm : (s.receive c' item).missed = s.missed := rfl
    rw [account, account, hids, hrows₀, hrows₁, waiting_conn hc, hw, hm]
    simp only [List.count_append, List.map_nil, List.count_nil] at hp ⊢
    omega
  -- a frame that is not from the store leaves no cursor
  have hcur : cfg.backend = .inProcess → ∀ n ∈ cursorOf (s.receive c' item).lastId,
      item.eventId? = none ∧ n ∈ cursorOf s.lastId := by
    intro hb n hn
    have hn : n ∈ cursorOf (item.frameId <|> s.lastId) := hn
    cases hid : item.frameId with
    | none =>
        rw [hid] at hn
        exact ⟨Item.eventId?_of_frameId hid, hn⟩
    | some x =>
        rw [hid] at hn
        cases x with
        | durable m => exact absurd hid (hplain hb m)
        | bare => cases hn
        | frame m => cases hn
  refine ⟨hk.assigned, hk.sound, hk.ids, fun i hi => ?_, hk.own_table, hk.own_publishing,
    fun ho => ?_, fun d hd => ?_, fun _ _ => hk.unmissed c hc, hk.gone, hk.present,
    fun _ i hi hn => (hacc.count_eq i).trans (hk.settled hahead i hi hn), fun _ n hn => ?_,
    fun hb => ?_⟩
  · refine hk.used i ?_
    rcases List.mem_append.mp hi with hi | hi
    · exact List.mem_append_left _ hi
    · exact List.mem_append_right _ (hacc.mem_iff.mp hi)
  · rw [(hk.unopened ho).2.1] at hc
    cases hc
  · cases hd
    refine ⟨fun h => absurd h hphase', fun h => absurd h hphase', fun _ => hphase', fun h => ?_,
      fun hb x hx => hop.plain hb x (hqueue hx), fun x hx => hop.own x (hqueue hx)⟩
    show cursorOf c'.header = none
    rw [hheader]
    exact hop.redis h
  · rw [hahead₁] at hn
    cases hn
  · have ho := hk.ordered hb
    refine ⟨fun n hn y hy hi hr => ?_, fun _ y hy hi hw => ⟨fun n hn => ?_, fun r hr => ?_⟩, ?_, ?_,
      ?_, fun h => absurd hrows₁ h, fun n hn => ho.seen n (hcur hb n hn).2, fun n hn => ?_⟩
    · obtain ⟨hid, hn⟩ := hcur hb n hn
      refine ho.read n hn y hy hi ?_
      rw [hids] at hr
      simpa [eventIds, hid] using hr
    · exact (ho.later hahead y hy hi (hwaiting hw)).1 n (hcur hb n hn).2
    · rw [hrows₁] at hr
      cases hr
    · rw [hrows₁]
      exact List.Pairwise.nil
    · simp [hrows₁]
    · simp [hrows₁]
    · rw [hahead₁] at hn
      cases hn

/-- A frame of the replay. -/
lemma Kept.receive_row (hk : Kept cfg s) {c : Connection} {row : EventRow} {rows : List EventRow}
    (hc : s.conn = some c) (hphase : c.phase = .replaying (row :: rows)) :
    Kept cfg (s.receive { c with phase := .replaying rows } (.replayed row)) := by
  have hop := hk.opened c hc
  have hahead : s.ahead = none := ahead_none hc (by rw [hphase]; exact Phase.noConfusion)
  have hrows : s.rows = row :: rows := by
    rw [rows_conn hc, Connection.rows, hphase]
  set s' := s.receive { c with phase := .replaying rows } (.replayed row) with hs'
  have hids : s'.receivedIds = s.receivedIds ++ [row.eventId] := eventIds_append _ _
  have hrows' : s'.rows = rows := rfl
  have hahead' : s'.ahead = none := rfl
  have hlast : s'.lastId = some (.durable row.seq) := rfl
  have hwaiting : s'.waiting = s.waiting := (waiting_conn hc).symm
  have hacc : s'.account.Perm s.account := by
    refine List.perm_iff_count.mpr fun i => ?_
    rw [account, account, hids, hrows, hrows', hwaiting]
    show (_ ++ s.missed).count i = _
    simp only [List.count_append, List.map_cons, List.count_cons, List.count_nil]
    omega
  refine ⟨hk.assigned, hk.sound, hk.ids, fun i hi => ?_, hk.own_table, hk.own_publishing,
    fun ho => ?_, fun d hd => ?_, fun _ _ => hk.unmissed c hc, hk.gone, hk.present,
    fun _ i hi hn => (hacc.count_eq i).trans (hk.settled hahead i hi hn), fun _ n hn => ?_,
    fun hb => ?_⟩
  · refine hk.used i ?_
    rcases List.mem_append.mp hi with hi | hi
    · exact List.mem_append_left _ hi
    · exact List.mem_append_right _ (hacc.mem_iff.mp hi)
  · rw [(hk.unopened ho).2.1] at hc
    cases hc
  · cases hd
    exact ⟨Phase.noConfusion, Phase.noConfusion, fun _ => Phase.noConfusion, hop.redis, hop.plain,
      hop.own⟩
  · rw [hahead'] at hn
    cases hn
  · have ho := hk.ordered hb
    have hrow : row ∈ s.rows := hrows ▸ List.mem_cons_self
    have hrest : ∀ r ∈ rows, r ∈ s.rows := fun r hr => hrows ▸ List.mem_cons_of_mem _ hr
    have hsorted := ho.sorted
    rw [hrows] at hsorted
    obtain ⟨hlt, hsorted⟩ := List.pairwise_cons.mp hsorted
    refine ⟨fun n hn y hy hi hr => ?_, fun _ y hy hi hw => ⟨fun n hn => ?_, fun r hr => ?_⟩, hsorted,
      fun r hr => ⟨fun n hn => ?_, (ho.next r (hrest r hr)).2⟩,
      fun r hr => ho.same r (hrest r hr), fun _ h => ?_, fun n hn => ?_, fun n hn => ?_⟩
    · -- what was received before is below the cursor from before, or nothing was
      cases hn
      rw [hids] at hr
      rcases List.mem_append.mp hr with hr | hr
      · cases hold : cursorOf s.lastId with
        | none => exact absurd hr (ho.unread (by simp [hrows]) hold _ hi)
        | some m =>
            exact (ho.read m hold y hy hi hr).trans ((ho.next row hrow).1 m hold).le
      · exact (ho.same row hrow y hy (List.mem_singleton.mp hr)).symm ▸ le_rfl
    · cases hn
      rw [hwaiting] at hw
      exact (ho.later hahead y hy hi hw).2 row hrow
    · rw [hwaiting] at hw
      exact (ho.later hahead y hy hi hw).2 r (hrest r hr)
    · cases hn
      exact hlt r hr
    · rw [hlast] at h
      cases h
    · cases hn
      exact (ho.next row hrow).2
    · rw [hahead'] at hn
      cases hn

/-- The rows of a replay, by their events. -/
lemma count_replayed (hk : Kept cfg s) {n : ℕ} {y : EventRow} (hy : y ∈ s.store.table)
    (hown : y.eventId ∈ s.since) :
    (((fetchAfter n replayLimit s.store.table).filter (replays cfg)).map (·.eventId)).count y.eventId
      = if y ∈ fetchAfter n replayLimit s.store.table then 1 else 0 := by
  have hinj := List.inj_on_of_nodup_map hk.ids
  have hpage : ∀ r ∈ fetchAfter n replayLimit s.store.table, r ∈ s.store.table :=
    fun r hr => (mem_of_mem_page hr).1
  have hnodup : (((fetchAfter n replayLimit s.store.table).filter (replays cfg)).map
      (·.eventId)).Nodup := by
    refine List.Nodup.map_on (fun x hx z hz => hinj ?_ ?_) ?_
    · exact hpage x (List.mem_filter.mp hx).1
    · exact hpage z (List.mem_filter.mp hz).1
    · exact List.Nodup.filter _ ((page_pairwise hk.sound.nodup).imp fun h heq =>
        absurd (congrArg EventRow.seq heq) (Nat.ne_of_lt h))
  split
  · rename_i hmem
    refine List.count_eq_one_of_mem hnodup (List.mem_map_of_mem (List.mem_filter.mpr ⟨hmem, ?_⟩))
    simp [replays, hk.own_table y hy hown]
  · rename_i hmem
    refine List.count_eq_zero.mpr fun h => hmem ?_
    obtain ⟨r, hr, heq⟩ := List.mem_map.mp h
    have hr := (List.mem_filter.mp hr).1
    exact hinj (hpage r hr) hy heq ▸ hr

/-- **The replay** takes over from the cursor what the bus will not bring. -/
lemma Kept.replay (hk : Kept cfg s) {c : Connection} {n : ℕ} (hb : cfg.backend = .inProcess)
    (hc : s.conn = some c) (hphase : c.phase = .opening) (hcursor : cursorOf c.header = some n)
    (hcomp : s.Complements n) : Kept cfg (s.replay cfg c) := by
  have hop := hk.opened c hc
  have ho := hk.ordered hb
  have hahead : s.ahead = some n := by
    rw [ahead, hc]
    exact (if_pos hphase).trans hcursor
  have hinj := List.inj_on_of_nodup_map hk.ids
  have hseq := List.inj_on_of_nodup_map hk.sound.nodup
  have hpage : ∀ r ∈ fetchAfter n replayLimit s.store.table, r ∈ s.store.table ∧ n < r.seq :=
    fun r hr => mem_of_mem_page hr
  have hlast : ∀ m ∈ cursorOf s.lastId, m = n := fun m hm =>
    Option.some.inj ((hop.cursor hphase m hm).symm.trans hcursor)
  set page := fetchAfter n replayLimit s.store.table with hpagedef
  have hstate : s.replay cfg c = { s.turn c (.replaying (page.filter (replays cfg))) with
      store := s.store.see page } := by
    rw [Stream.replay, hcursor, hb]
  rw [hstate]
  set s' : Stream := { s.turn c (.replaying (page.filter (replays cfg))) with
      store := s.store.see page } with hs'
  have hrows : s'.rows = page.filter (replays cfg) := rfl
  have hwaiting : s'.waiting = s.waiting := (waiting_conn hc).symm
  have hahead' : s'.ahead = none := rfl
  have hmissed : s.missed = [] := hk.unmissed c hc
  have haccount : s'.account
      = s.receivedIds ++ (page.filter (replays cfg)).map (·.eventId) ++ s.waiting ++ s.missed := by
    rw [account, hwaiting, hrows]
    rfl
  have hsub : page ⊆ s.store.table := fun r hr => (hpage r hr).1
  refine ⟨⟨hk.assigned.increasing, hk.assigned.positive, hk.assigned.postgres, hk.assigned.other⟩,
    hk.sound.see hsub, hk.ids, fun i hi => ?_, hk.own_table, hk.own_publishing,
    fun h => ?_, fun d hd => ?_, fun _ _ => hmissed, hk.gone, hk.present, fun _ i hi hn => ?_,
    fun _ m hm => ?_, fun _ => ?_⟩
  · refine hk.used i ?_
    rcases List.mem_append.mp hi with hi | hi
    · exact List.mem_append_left _ hi
    · rw [haccount] at hi
      simp only [mentioned, account, List.mem_append] at hi ⊢
      rcases hi with ((hi | hi) | hi) | hi
      · exact Or.inr (Or.inl (Or.inl (Or.inl hi)))
      · obtain ⟨r, hr, rfl⟩ := List.mem_map.mp hi
        exact Or.inl (Or.inl (Or.inr (List.mem_map_of_mem (hsub (List.mem_filter.mp hr).1))))
      · exact Or.inr (Or.inl (Or.inr hi))
      · exact Or.inr (Or.inr hi)
  · rw [(hk.unopened h).2.1] at hc
    cases hc
  · cases hd
    exact ⟨Phase.noConfusion, Phase.noConfusion, fun _ => Phase.noConfusion, hop.redis, hop.plain,
      hop.own⟩
  · obtain ⟨y, hy, rfl⟩ := List.mem_map.mp (hk.present hb i hi hn)
    have hcount := count_replayed hk (n := n) hy hi
    rw [← hpagedef] at hcount
    rw [haccount, hmissed]
    simp only [List.count_append, List.count_nil, hcount]
    rcases hk.behind hb n hahead y hy hi with ⟨hlt, hr, hw⟩ | ⟨hle, hr, hw⟩
    · rw [List.count_eq_zero.mpr hr]
      split
      · rename_i hmem
        rw [List.count_eq_zero.mpr ((hcomp y hy hi hlt).mp hmem)]
      · rename_i hmem
        have hin : y.eventId ∈ s.waiting := not_not.mp fun h => hmem ((hcomp y hy hi hlt).mpr h)
        have hpos := List.count_pos_iff.mpr hin
        omega
    · have hmem : y ∉ page := fun h => absurd (hpage y h).2 (Nat.not_lt_of_le hle)
      rw [hr, List.count_eq_zero.mpr hw, if_neg hmem]
  · rw [hahead'] at hm
    cases hm
  · refine ⟨ho.read, fun _ y hy hi hw => ?_,
      (page_pairwise hk.sound.nodup).sublist List.filter_sublist, fun r hr => ?_,
      fun r hr y hy heq => ?_, fun _ h => ?_, fun m hm => List.mem_append_left _ (ho.seen m hm),
      fun m hm => ?_⟩
    · rw [hwaiting] at hw
      rcases hk.behind hb n hahead y hy hi with ⟨hlt, -, -⟩ | ⟨-, -, hnot⟩
      · refine ⟨fun m hm => hlast m hm ▸ hlt, fun r hr => ?_⟩
        have hr := (List.mem_filter.mp hr).1
        have hnot : y ∉ page := fun h => (hcomp y hy hi hlt).mp h hw
        have hle := ((mem_page_or_full hy hlt).resolve_left hnot).2 r hr
        refine lt_of_le_of_ne hle fun heq => hnot ?_
        exact hseq (hsub hr) hy heq ▸ hr
      · exact absurd hw hnot
    · have hr := (List.mem_filter.mp hr).1
      exact ⟨fun m hm => hlast m hm ▸ (hpage r hr).2,
        List.mem_append_right _ (List.mem_map_of_mem hr)⟩
    · exact hinj hy (hsub (List.mem_filter.mp hr).1) heq
    · exact hop.unread hphase h (by simp [hcursor])
    · rw [hahead'] at hm
      cases hm

/-- **The client disconnects**: what it has not received is above the last id it has, or missed. -/
lemma Kept.drop (hk : Kept cfg s) {c : Connection} (hc : s.conn = some c)
    (hphase : c.phase ≠ .opening) : Kept cfg (s.drop c) := by
  have hahead := ahead_none hc hphase
  have hmissed : s.missed = [] := hk.unmissed c hc
  have hwaiting : (s.drop c).waiting = s.publishing.map (·.eventId) := rfl
  have hahead' : (s.drop c).ahead = cursorOf s.lastId := rfl
  have hrows : (s.drop c).rows = [] := rfl
  have hsub : (s.publishing.map (·.eventId)).Sublist s.waiting := List.sublist_append_right _ _
  have hacc : (s.drop c).account.Perm s.account := by
    refine List.perm_iff_count.mpr fun i => ?_
    have hm : (s.drop c).missed = s.missed ++ c.rows.map (·.eventId) ++ eventIds c.queue := rfl
    have hr : (s.drop c).receivedIds = s.receivedIds := rfl
    rw [account, account, hwaiting, hrows, hm, hr, waiting_conn hc, rows_conn hc]
    simp only [List.count_append, List.map_nil, List.count_nil]
    omega
  refine ⟨hk.assigned, hk.sound, hk.ids, fun i hi => ?_, hk.own_table, hk.own_publishing,
    fun h => ?_, fun d hd => (by cases hd), fun d hd => (by cases hd), hk.gone, hk.present,
    fun _ i hi hn => (hacc.count_eq i).trans (hk.settled hahead i hi hn),
    fun hb n hn y hy hi => ?_, fun hb => ?_⟩
  · refine hk.used i ?_
    rcases List.mem_append.mp hi with hi | hi
    · exact List.mem_append_left _ hi
    · exact List.mem_append_right _ (hacc.mem_iff.mp hi)
  · rw [(hk.unopened h).2.1] at hc
    cases hc
  · have ho := hk.ordered hb
    have hone := hk.settled hahead y.eventId hi (hk.gone y hy)
    rw [account, hmissed, List.append_nil, List.count_append, List.count_append] at hone
    have hle := hsub.count_le y.eventId
    rw [hahead'] at hn
    by_cases hr : y.eventId ∈ s.receivedIds
    · have hpos := List.count_pos_iff.mpr hr
      refine Or.inr ⟨ho.read n hn y hy hi hr, ?_, fun h => ?_⟩
      · show s.receivedIds.count y.eventId = 1
        omega
      · have hpos' := List.count_pos_iff.mpr (hsub.subset h)
        omega
    · refine Or.inl ⟨?_, hr, ?_⟩
      · by_cases hw : y.eventId ∈ s.waiting
        · exact (ho.later hahead y hy hi hw).1 n hn
        · have hin : y.eventId ∈ s.rows.map (·.eventId) := by
            refine List.count_pos_iff.mp ?_
            rw [List.count_eq_zero.mpr hr, List.count_eq_zero.mpr hw] at hone
            omega
          obtain ⟨r, hmem, heq⟩ := List.mem_map.mp hin
          rw [ho.same r hmem y hy heq.symm]
          exact (ho.next r hmem).1 n hn
      · rw [hwaiting]
        omega
  · have ho := hk.ordered hb
    refine ⟨ho.read, fun ha y hy hi hw => ⟨fun n hn => ?_, fun r hr => ?_⟩, List.Pairwise.nil,
      fun r hr => (by cases hr), fun r hr => (by cases hr), fun h => absurd rfl h, ho.seen,
      fun n hn => Or.inr (ho.seen n hn)⟩
    · rw [hahead'] at ha
      have hn : n ∈ cursorOf s.lastId := hn
      rw [ha] at hn
      cases hn
    · cases hr

/-! ### The store -/

/-- A statement that makes nothing visible. -/
lemma Kept.store_other (hk : Kept cfg s) {l : DurableEvents.Label} {store : EventStore}
    (hok : s.store.CursorGuard cfg.store l) (hstep : s.store.step cfg.store l = some store)
    (hl : s.store.commits l = none) :
    Kept cfg { s with
      store := store
      pruned := s.pruned ++ (s.store.table.filter fun row => row ∉ store.table).map (·.eventId) } := by
  obtain ⟨hassigned, hsound⟩ := hk.sound.step hk.assigned hok hstep
  obtain ⟨hsub, hseen⟩ := EventStore.commits_none hstep hl
  have hinj := List.inj_on_of_nodup_map hk.ids
  have hremoved : (s.store.table.filter fun row => row ∉ store.table).map (·.eventId)
      ⊆ s.store.table.map (·.eventId) := List.map_subset _ (List.filter_subset_self _)
  refine ⟨hassigned, hsound, hk.ids.sublist (hsub.map _), fun i hi => hk.used i ?_,
    fun y hy => hk.own_table y (hsub.subset hy), hk.own_publishing, hk.unopened, fun c hc => ?_,
    hk.unmissed, fun y hy hm => ?_, fun hb i hi hn => ?_,
    fun ha i hi hn => hk.settled ha i hi fun h => hn (List.mem_append_left _ h),
    fun hb n hn y hy => hk.behind hb n hn y (hsub.subset hy), fun hb => ?_⟩
  · simp only [mentioned, List.mem_append] at hi ⊢
    rcases hi with ((hi | hi) | hi | hi) | hi
    · exact Or.inl (Or.inl (Or.inl hi))
    · exact Or.inl (Or.inl (Or.inr (List.map_subset _ hsub.subset hi)))
    · exact Or.inl (Or.inr hi)
    · exact Or.inl (Or.inl (Or.inr (hremoved hi)))
    · exact Or.inr hi
  · obtain ⟨hcur, hun, hgot, hr, hplain, hown⟩ := hk.opened c hc
    exact ⟨hcur, hun, hgot, hr, hplain, hown⟩
  · rcases List.mem_append.mp hm with hm | hm
    · exact hk.gone y (hsub.subset hy) hm
    · obtain ⟨x, hx, heq⟩ := List.mem_map.mp hm
      obtain ⟨hx, hgone⟩ := List.mem_filter.mp hx
      have hgone : x ∉ store.table := by simpa using hgone
      exact hgone (hinj hx (hsub.subset hy) heq ▸ hy)
  · obtain ⟨hn, hn'⟩ := not_or.mp fun h => hn (List.mem_append.mpr h)
    obtain ⟨y, hy, rfl⟩ := List.mem_map.mp (hk.present hb i hi hn)
    by_contra hm
    refine hn' (List.mem_map_of_mem (List.mem_filter.mpr ⟨hy, ?_⟩))
    simpa using fun h => hm (List.mem_map_of_mem h)
  · obtain ⟨hread, hlater, hsorted, hnext, hsame, hunread, hs, haseen⟩ := hk.ordered hb
    exact ⟨fun n hn y hy => hread n hn y (hsub.subset hy),
      fun ha y hy => hlater ha y (hsub.subset hy), hsorted,
      fun r hr => ⟨(hnext r hr).1, hseen (hnext r hr).2⟩,
      fun r hr y hy => hsame r hr y (hsub.subset hy), hunread, fun n hn => hseen (hs n hn),
      fun n hn => (haseen n hn).imp id fun h => hseen h⟩

/-- **A publication** that is about to be dispatched, with its row where there is a store. -/
lemma Kept.publish (hk : Kept cfg s) {store : EventStore} {e : RelayEvent}
    (hassigned : store.Assigned cfg.store) (hsound : store.Sound)
    (hids : (store.table.map (·.eventId)).Nodup)
    (htable : ∀ y ∈ store.table, y ∈ s.store.table ∨ y.toRelayEvent = e ∧ s.store.Fresh y)
    (hsub : s.store.table ⊆ store.table)
    (hpresent : cfg.backend = .inProcess → e.eventId ∈ store.table.map (·.eventId))
    (hseen : store.seen = s.store.seen) (hnew : e.eventId ∉ s.used) :
    Kept cfg ({ s with store := store }.publish cfg e) := by
  set s' := { s with store := store }.publish cfg e with hs'
  have hfresh : ∀ l, l ⊆ s.mentioned → e.eventId ∉ l := fun l hl h => hnew (hk.used _ (hl h))
  have hsinceₘ : s.since ⊆ s.mentioned := fun i hi => by simp [mentioned, hi]
  have haccountₘ : s.account ⊆ s.mentioned := fun i hi => by simp [mentioned, hi]
  have hreceivedₘ : s.receivedIds ⊆ s.mentioned := fun i hi => by simp [mentioned, account, hi]
  have hwaitingₘ : s.waiting ⊆ s.mentioned := fun i hi => by simp [mentioned, account, hi]
  have hprunedₘ : s.pruned ⊆ s.mentioned := fun i hi => by simp [mentioned, hi]
  have hrowsₘ : s.rows.map (·.eventId) ⊆ s.mentioned := fun i hi =>
    haccountₘ (List.mem_append_left _ (List.mem_append_left _ (List.mem_append_right _ hi)))
  -- the publications since the client has connected
  have hsince : ∀ i ∈ s'.since, i ∈ s.since ∨
      i = e.eventId ∧ s.opened = true ∧ e.sessionId = some cfg.session := by
    intro i hi
    have hi : i ∈ if s.opened && e.sessionId = some cfg.session then s.since ++ [e.eventId]
        else s.since := hi
    split at hi
    · rename_i hcond
      obtain ⟨ho, hsess⟩ := Bool.and_eq_true_iff.mp hcond
      rcases List.mem_append.mp hi with hi | hi
      · exact Or.inl hi
      · exact Or.inr ⟨List.mem_singleton.mp hi, ho, of_decide_eq_true hsess⟩
    · exact Or.inl hi
  have hold : ∀ i, i ≠ e.eventId → i ∈ s'.since → i ∈ s.since := fun i hne hi =>
    (hsince i hi).resolve_right fun h => hne h.1
  have hwaiting : s'.waiting = s.waiting ++ [e.eventId] := by
    show eventIds s.queue ++ (s.publishing ++ [e]).map (·.eventId) = _
    rw [List.map_append, ← List.append_assoc]
    rfl
  have hcount : ∀ i, s'.account.count i = s.account.count i + [e.eventId].count i := by
    intro i
    show (s.receivedIds ++ s.rows.map (·.eventId) ++ s'.waiting ++ s.missed).count i = _
    rw [hwaiting, account]
    simp only [List.count_append]
    omega
  have hzero : ∀ i, i ≠ e.eventId → [e.eventId].count i = 0 := fun i hne =>
    List.count_eq_zero.mpr fun h => hne (List.mem_singleton.mp h)
  -- a row of the table is an old one, or the new one
  have hrow : ∀ y ∈ store.table, y ∈ s.store.table ∧ y.eventId ≠ e.eventId ∨
      y.eventId = e.eventId ∧ y.toRelayEvent = e ∧ s.store.Fresh y := by
    intro y hy
    rcases htable y hy with h | ⟨rfl, hf⟩
    · refine Or.inl ⟨h, fun heq => hnew (heq ▸ hk.used _ ?_)⟩
      simp only [mentioned, List.mem_append]
      exact Or.inl (Or.inl (Or.inr (List.mem_map_of_mem h)))
    · exact Or.inr ⟨rfl, rfl, hf⟩
  refine ⟨hassigned, hsound, hids, fun i hi => ?_, fun y hy hi => ?_, fun x hx hi => ?_,
    fun ho => ?_, fun c hc => ?_, hk.unmissed, fun y hy hm => ?_, fun hb i hi hn => ?_,
    fun ha i hi hn => ?_, fun hb n hn y hy hi => ?_, fun hb => ?_⟩
  · show i ∈ s.used ++ [e.eventId]
    by_cases hie : i = e.eventId
    · simp [hie]
    · refine List.mem_append_left _ (hk.used i ?_)
      simp only [mentioned, List.mem_append] at hi ⊢
      rcases hi with ((hi | hi) | hi) | hi
      · exact Or.inl (Or.inl (Or.inl (hold i hie hi)))
      · obtain ⟨y, hy, rfl⟩ := List.mem_map.mp hi
        rcases hrow y hy with ⟨h, -⟩ | ⟨h, -⟩
        · exact Or.inl (Or.inl (Or.inr (List.mem_map_of_mem h)))
        · exact absurd h hie
      · exact Or.inl (Or.inr hi)
      · have hpos := List.count_pos_iff.mpr hi
        rw [hcount, hzero i hie, Nat.add_zero] at hpos
        exact Or.inr (List.count_pos_iff.mp hpos)
  · rcases hrow y hy with ⟨h, hne⟩ | ⟨h, rfl, -⟩
    · exact hk.own_table y h (hold _ hne hi)
    · rcases hsince _ hi with hi | ⟨-, -, hsess⟩
      · exact absurd hi (hfresh _ hsinceₘ)
      · exact hsess
  · rcases List.mem_append.mp hx with hx | hx
    · have hne : x.eventId ≠ e.eventId := fun h => hfresh _ hwaitingₘ
        (h ▸ List.mem_append_right _ (List.mem_map_of_mem hx))
      exact hk.own_publishing x hx (hold _ hne hi)
    · cases List.mem_singleton.mp hx
      rcases hsince _ hi with hi | ⟨-, -, hsess⟩
      · exact absurd hi (hfresh _ hsinceₘ)
      · exact hsess
  · obtain ⟨hempty, hconn, hlast⟩ := hk.unopened ho
    have ho : s.opened = false := ho
    refine ⟨?_, hconn, hlast⟩
    show (if s.opened && e.sessionId = some cfg.session then s.since ++ [e.eventId]
      else s.since) = []
    simp [ho, hempty]
  · obtain ⟨hcur, hun, hgot, hr, hplain, hown⟩ := hk.opened c hc
    refine ⟨hcur, fun hph hl hh i hi h => ?_, hgot, hr, hplain, fun x hx i hxi hi => ?_⟩
    · rcases hsince i hi with hi | ⟨rfl, -⟩
      · exact hun hph hl hh i hi h
      · exact hfresh _ hreceivedₘ h
    · refine hown x hx i hxi (hold i (fun h => ?_) hi)
      refine hfresh _ hwaitingₘ (h ▸ ?_)
      have hc : s.conn = some c := hc
      rw [waiting_conn hc]
      exact List.mem_append_left _ (List.mem_filterMap.mpr ⟨x, hx, hxi⟩)
  · rcases hrow y hy with ⟨h, -⟩ | ⟨h, -⟩
    · exact hk.gone y h hm
    · exact hfresh _ hprunedₘ (h ▸ hm)
  · rcases hsince i hi with hi | ⟨rfl, -⟩
    · exact List.map_subset _ hsub (hk.present hb i hi hn)
    · exact hpresent hb
  · rw [hcount]
    by_cases hie : i = e.eventId
    · subst hie
      rw [List.count_eq_zero.mpr (hfresh _ haccountₘ), List.count_singleton_self]
    · rw [hk.settled ha i (hold i hie hi) hn, hzero i hie]
  · have hn : n ∈ s.ahead := hn
    rcases hrow y hy with ⟨h, hne⟩ | ⟨h, -, hf⟩
    · rcases hk.behind hb n hn y h (hold _ hne hi) with ⟨hlt, hr, hw⟩ | ⟨hle, hr, hw⟩
      · refine Or.inl ⟨hlt, hr, ?_⟩
        rw [hwaiting, List.count_append, hzero _ hne]
        exact hw
      · refine Or.inr ⟨hle, hr, fun hm => ?_⟩
        rw [hwaiting] at hm
        rcases List.mem_append.mp hm with hm | hm
        · exact hw hm
        · exact hne (List.mem_singleton.mp hm)
    · refine Or.inl ⟨?_, h ▸ hfresh _ hreceivedₘ, ?_⟩
      · rcases (hk.ordered hb).ahead_seen n hn with rfl | hn
        · exact hf.positive
        · exact hf.above n hn
      · rw [hwaiting, h, List.count_append, List.count_eq_zero.mpr (hfresh _ hwaitingₘ),
          List.count_singleton_self]
  · obtain ⟨hread, hlater, hsorted, hnext, hsame, hunread, hs, haseen⟩ := hk.ordered hb
    have hseen : ∀ q, q ∈ s.store.seen → q ∈ store.seen := fun q hq => hseen ▸ hq
    refine ⟨fun n hn y hy hi hr => ?_, fun ha y hy hi hw => ?_, hsorted,
      fun r hr => ⟨(hnext r hr).1, hseen _ (hnext r hr).2⟩, fun r hr y hy heq => ?_,
      fun hr hl i hi h => ?_, fun n hn => hseen _ (hs n hn),
      fun n hn => (haseen n hn).imp id (hseen n)⟩
    · rcases hrow y hy with ⟨h, hne⟩ | ⟨h, -⟩
      · exact hread n hn y h (hold _ hne hi) hr
      · exact absurd (h ▸ hr) (hfresh _ hreceivedₘ)
    · rcases hrow y hy with ⟨h, hne⟩ | ⟨h, -, hf⟩
      · rw [hwaiting] at hw
        refine hlater ha y h (hold _ hne hi) ((List.mem_append.mp hw).resolve_right fun hm => ?_)
        exact hne (List.mem_singleton.mp hm)
      · exact ⟨fun n hn => hf.above n (hs n hn), fun r hr => hf.above _ (hnext r hr).2⟩
    · rcases hrow y hy with ⟨h, -⟩ | ⟨h, -⟩
      · exact hsame r hr y h heq
      · exact absurd (List.mem_map_of_mem (f := (·.eventId)) hr)
          (heq ▸ h ▸ hfresh _ hrowsₘ)
    · rcases hsince i hi with hi | ⟨rfl, -⟩
      · exact hunread hr hl i hi h
      · exact hfresh _ hreceivedₘ h

/-! ### Every step -/

lemma eventIds_liveItem (e : RelayEvent) : eventIds [liveItem cfg e] = [e.eventId] := by
  unfold liveItem
  cases cfg.backend with
  | inProcess => rfl
  | redis => rfl

/-- An item comes from nowhere. -/
lemma Kept.arrive_new (hk : Kept cfg s) {item : Item} (hid : item.eventId? = none)
    (hplain : cfg.backend = .inProcess → ∀ n, item.frameId ≠ some (.durable n))
    (hlost : s.ahead = none → ∀ i ∈ s.overflow cfg [], i ∉ s.since) :
    Kept cfg (s.arrive cfg item) := by
  have hnil : eventIds [item] = [] := by simp [eventIds, hid]
  cases hc : s.conn with
  | none =>
      have hstate : s.arrive cfg item = s := by
        unfold Stream.arrive
        simp only [hc]
      rwa [hstate]
  | some c =>
      have hstate : s.arrive cfg item = { s with
          publishing := s.publishing
          conn := some { c with queue := offer cfg.backend item c.queue } } := by
        unfold Stream.arrive
        simp only [hc]
      rw [hstate]
      refine hk.arrive hc (List.Subset.refl _) ?_ (fun i hi => ?_) hplain ?_
      · rw [hnil]
        exact List.Perm.refl _
      · rw [hid] at hi
        cases hi
      · rwa [hnil]

/-- A dispatch comes to the client. -/
lemma Kept.reach (hk : Kept cfg s) {e : RelayEvent} (he : e ∈ s.publishing) {c : Connection}
    (hc : s.conn = some c)
    (hlost : s.ahead = none → ∀ i ∈ s.overflow cfg [e.eventId], i ∉ s.since) :
    Kept cfg ({ s with publishing := s.publishing.erase e }.arrive cfg (liveItem cfg e)) := by
  have hstate : { s with publishing := s.publishing.erase e }.arrive cfg (liveItem cfg e) = { s with
      publishing := s.publishing.erase e
      conn := some { c with queue := offer cfg.backend (liveItem cfg e) c.queue } } := by
    unfold Stream.arrive
    simp only [hc]
  rw [hstate]
  refine hk.arrive hc List.erase_subset ?_ (fun i hi hs => ?_) (fun hb n => ?_) ?_
  · rw [eventIds_liveItem]
    exact publishing_perm he
  · have hid : (liveItem cfg e).eventId? = some e.eventId := by
      unfold liveItem
      cases cfg.backend with
      | inProcess => rfl
      | redis => rfl
    have hsess : (liveItem cfg e).session = e.sessionId := by
      unfold liveItem
      cases cfg.backend with
      | inProcess => rfl
      | redis => rfl
    rw [hid] at hi
    cases hi
    exact hsess.trans (hk.own_publishing e he hs)
  · simp [liveItem, hb, Item.frameId]
  · rwa [eventIds_liveItem]

/-- An item that is not for the client is taken out of the queue. -/
lemma Kept.drain (hk : Kept cfg s) {c : Connection} (hc : s.conn = some c)
    (hphase : c.phase ≠ .opening) {queue : List Item} {lost : List ℕ} (hrest : queue ⊆ c.queue)
    (hcons : eventIds c.queue = lost ++ eventIds queue) (hzero : ∀ i ∈ s.since, lost.count i = 0) :
    Kept cfg { s with conn := some { c with queue } } := by
  have hop := hk.opened c hc
  have hwait : (eventIds queue ++ s.publishing.map (·.eventId)).Sublist s.waiting := by
    rw [waiting_conn hc, hcons, List.append_assoc]
    exact List.sublist_append_right _ _
  have hrows : s.rows = c.rows := rows_conn hc
  refine hk.move s.publishing (some { c with queue }) s.missed
    rfl (List.Subset.refl _) ?_ hrows.symm (fun h => ?_) (fun d hd => ?_)
    (fun _ _ => hk.unmissed c hc) (fun i hi => ?_) hwait.count_le fun _ i hi => ?_
  · simp only [ahead, hc]
  · rw [(hk.unopened h).2.1] at hc
    cases hc
  · cases hd
    exact ⟨fun h => absurd h hphase, fun h => absurd h hphase, fun _ => hphase, hop.redis,
      fun hb x hx => hop.plain hb x (hrest hx), fun x hx => hop.own x (hrest hx)⟩
  · refine hk.used i (List.mem_append_right _ ?_)
    have hi : i ∈ s.receivedIds ++ c.rows.map (·.eventId) ++ (eventIds queue ++
        s.publishing.map (·.eventId)) ++ s.missed := hi
    rw [account, hrows]
    simp only [List.mem_append] at hi ⊢
    rcases hi with (hi | hi) | hi
    · exact Or.inl (Or.inl hi)
    · exact Or.inl (Or.inr (hwait.subset (List.mem_append.mpr hi)))
    · exact Or.inr hi
  · show (s.receivedIds ++ c.rows.map (·.eventId) ++ (eventIds queue ++
        s.publishing.map (·.eventId)) ++ s.missed).count i = s.account.count i
    rw [account, hrows, waiting_conn hc, hcons]
    simp only [List.count_append, hzero i hi]
    omega

/-- The generator goes on. -/
lemma Kept.send (hk : Kept cfg s) {c : Connection} (hc : s.conn = some c)
    (h : s.send cfg c = some s') : Kept cfg s' := by
  rw [Stream.send] at h
  split at h
  · cases h
  · cases h
  · rename_i hphase
    cases h
    have hne : c.phase ≠ .opening := by simp [hphase]
    exact hk.turn hc (ahead_none hc hne) (by simp [Connection.rows, hphase]) rfl Phase.noConfusion
  · rename_i row rows hphase
    cases h
    exact hk.receive_row hc hphase
  · rename_i hphase
    cases h
    have hne : c.phase ≠ .opening := by simp [hphase]
    exact hk.turn hc (ahead_none hc hne) (by simp [Connection.rows, hphase]) rfl Phase.noConfusion
  · rename_i seq seqs hphase
    cases h
    exact hk.receive hc (by simp [hphase]) Phase.noConfusion (by simp [Connection.rows, hphase]) rfl
      rfl (List.Subset.refl _) (List.Perm.refl _) (by simp [Item.frameId])
  · rename_i hphase
    have hne : c.phase ≠ .opening := by simp [hphase]
    have hrows : c.rows = [] := by simp [Connection.rows, hphase]
    split at h
    · cases h
    · rename_i item queue hqueue
      have hop := hk.opened c hc
      have hitem : item ∈ c.queue := hqueue ▸ List.mem_cons_self
      have hrest : queue ⊆ c.queue := hqueue ▸ List.subset_cons_self _ _
      have hcons : eventIds c.queue = eventIds [item] ++ eventIds queue := by
        rw [hqueue, ← eventIds_append]
        rfl
      split at h
      · cases h
        exact hk.receive hc hne hne hrows (by simp [Connection.rows, hphase]) rfl hrest
          (List.Perm.of_eq hcons.symm) fun hb => hop.plain hb item hitem
      · rename_i hsess
        cases h
        -- an item of another session is dropped
        have hzero : ∀ i ∈ s.since, (eventIds [item]).count i = 0 := by
          intro i hi
          refine List.count_eq_zero.mpr fun hm => hsess ?_
          obtain ⟨x, hx, hxi⟩ := List.mem_filterMap.mp hm
          cases List.mem_singleton.mp hx
          exact hop.own item hitem i hxi hi
        exact hk.drain hc hne hrest hcons hzero

/-- **Every step that meets the condition keeps the invariant.** -/
theorem Kept.step (hk : Kept cfg s) (hok : s.StreamGuard cfg l) (h : s.step cfg l = some s') :
    Kept cfg s' := by
  cases l with
  | store l =>
      simp only [Stream.step, Option.ite_none_right_eq_some] at h
      obtain ⟨hb, h⟩ := h
      obtain ⟨store, hstep, h⟩ := Option.bind_eq_some_iff.mp h
      have hcur := hok.cursor l rfl
      split at h
      · rename_i hl
        cases h
        exact hk.store_other hcur hstep hl
      · rename_i row hl
        split at h
        · cases h
        · rename_i hnew
          cases h
          obtain ⟨hassigned, hsound⟩ := hk.sound.step hk.assigned hcur hstep
          obtain ⟨hfresh, htable, hid, hseen⟩ :=
            EventStore.commits_spec hk.assigned hk.sound hcur hstep hl
          have hnone : (s.store.table.filter fun row => row ∉ store.table) = [] :=
            List.filter_eq_nil_iff.mpr fun x hx => by simp [htable, hx]
          rw [hnone, List.map_nil, List.append_nil]
          refine hk.publish hassigned hsound ?_ (fun y hy => ?_) ?_ (fun _ => ?_) hseen hnew
          · rw [htable, List.map_append]
            refine List.nodup_append.mpr
              ⟨hk.ids, List.nodup_singleton _, fun x hx y hy heq => hid ?_⟩
            have heq : x = row.eventId := heq.trans (List.mem_singleton.mp hy)
            exact heq ▸ hx
          · rw [htable] at hy
            rcases List.mem_append.mp hy with hy | hy
            · exact Or.inl hy
            · cases List.mem_singleton.mp hy
              exact Or.inr ⟨rfl, hfresh⟩
          · rw [htable]
            exact List.subset_append_left _ _
          · rw [htable]
            simp
  | xadd e =>
      simp only [Stream.step, Option.ite_none_right_eq_some, Option.some.injEq] at h
      obtain ⟨⟨hb, hnew⟩, rfl⟩ := h
      show Kept cfg ({ s with store := s.store }.publish cfg e)
      refine hk.publish hk.assigned hk.sound hk.ids (fun _ hy => Or.inl hy)
        (List.Subset.refl _) (fun h => ?_) rfl hnew
      rw [hb] at h
      cases h
  | reach i =>
      rw [Stream.step] at h
      split at h
      · cases h
      · rename_i e he
        have hmem := List.mem_of_find?_eq_some he
        have hi : e.eventId = i := by simpa using List.find?_some he
        subst hi
        cases hc : s.conn with
        | none =>
            simp only [hc, Option.isSome_none, Bool.false_eq_true, if_false,
              Option.some.injEq] at h
            subst h
            have hmiss := hk.miss hmem hc
            rwa [hc] at hmiss
        | some c =>
            simp only [hc, Option.isSome_some, if_true, Option.some.injEq] at h
            subst h
            have hreach := hk.reach hmem hc hok.kept
            rwa [hc] at hreach
  | skip i =>
      rw [Stream.step] at h
      split at h
      · cases h
      · rename_i e he
        have hmem := List.mem_of_find?_eq_some he
        have hi : e.eventId = i := by simpa using List.find?_some he
        subst hi
        cases hc : s.conn with
        | none =>
            simp only [hc, Option.isSome_none, Bool.false_eq_true, if_false,
              Option.some.injEq] at h
            subst h
            have hmiss := hk.miss hmem hc
            rwa [hc] at hmiss
        | some c =>
            simp only [hc, Option.isSome_some, if_true, Option.some.injEq] at h
            subst h
            have hskip := hk.skip hmem fun ha => hok.kept ha e.eventId (by simp [loses, hc])
            rwa [hc] at hskip
  | lossy session =>
      cases h
      refine hk.arrive_new rfl (fun hb n => ?_) hok.kept
      simp [Item.frameId, hb]
  | frame session seq =>
      rw [Stream.step] at h
      split at h
      · cases h
        exact hk
      · cases h
        refine hk.arrive_new rfl (fun _ n => ?_) hok.kept
        cases seq with
        | none => simp [Item.frameId]
        | some seq => simp [Item.frameId]
  | connect header =>
      simp only [Stream.step, Option.ite_none_right_eq_some, Option.some.injEq,
        Option.isNone_iff_eq_none] at h
      obtain ⟨⟨hc, hlast⟩, rfl⟩ := h
      cases ho : s.opened with
      | false =>
          exact hk.connect_first ho (fun hb => (hok.backend header rfl hb).2)
            (hok.first header rfl ho)
      | true =>
          obtain rfl := hlast ho
          have hb : cfg.backend = .inProcess := by
            cases hb : cfg.backend with
            | inProcess => rfl
            | redis =>
                have hnot := (hok.backend _ rfl hb).1
                rw [ho] at hnot
                cases hnot
          exact hk.connect_again ho hc hb (hok.gap _ rfl ho)
  | replay =>
      rw [Stream.step] at h
      split at h
      · rename_i c hc
        simp only [Option.ite_none_right_eq_some, Option.some.injEq] at h
        obtain ⟨hphase, rfl⟩ := h
        have hahead : s.ahead = cursorOf c.header := by
          rw [ahead, hc]
          exact if_pos hphase
        cases hcur : cursorOf c.header with
        | none =>
            have hstate : s.replay cfg c = s.turn c .listing := by
              rw [Stream.replay, hcur]
            rw [hstate]
            exact hk.turn hc (hahead.trans hcur) (rows_nil fun rows => by simp [hphase]) rfl
              Phase.noConfusion
        | some n =>
            have hb : cfg.backend = .inProcess := by
              cases hb : cfg.backend with
              | inProcess => rfl
              | redis =>
                  have hnone := (hk.opened c hc).redis hb
                  rw [hcur] at hnone
                  cases hnone
            exact hk.replay hb hc hphase hcur (hok.replay n (hahead.trans hcur))
      · cases h
  | listFrames seqs =>
      rw [Stream.step] at h
      split at h
      · rename_i c hc
        simp only [Option.ite_none_right_eq_some] at h
        obtain ⟨hphase, h⟩ := h
        have hne : c.phase ≠ .opening := by simp [hphase]
        have hrows : c.rows = [] := rows_nil fun rows => by simp [hphase]
        split at h
        · cases h
          exact hk.turn hc (ahead_none hc hne) hrows rfl Phase.noConfusion
        · cases h
          exact hk.turn hc (ahead_none hc hne) hrows rfl Phase.noConfusion
      · cases h
  | send =>
      obtain ⟨c, hc, h⟩ := Option.bind_eq_some_iff.mp h
      exact hk.send hc h
  | disconnect =>
      rw [Stream.step] at h
      split at h
      · rename_i c hc
        simp only [Option.ite_none_right_eq_some, Option.some.injEq] at h
        obtain ⟨hgot, rfl⟩ := h
        exact hk.drop hc ((hk.opened c hc).got hgot)
      · cases h

/-- The client is connected and has received all that is on its way to it. -/
def Quiet (s : Stream) : Prop :=
  ∃ c ∈ s.conn, c.phase = .live ∧ c.queue = [] ∧ ∀ e ∈ s.publishing, e.eventId ∉ s.since

instance (s : Stream) : Decidable s.Quiet :=
  inferInstanceAs (Decidable (∃ c ∈ s.conn, c.phase = .live ∧ c.queue = [] ∧
    ∀ e ∈ s.publishing, e.eventId ∉ s.since))

end Stream

/-! ### The result -/

variable {cfg : StreamConfig} {s : Stream}

lemma kept_of_via (h : (streamSystem cfg).ReachableVia (fun s l => s.StreamGuard cfg l) s) :
    s.Kept cfg := by
  refine h.invariant (fun s hs => ?_) fun s l s' hk hok hstep => hk.step hok hstep
  cases hs
  exact Stream.kept_fresh

/-- **A reconnect loses nothing**, as long as every connection with a cursor replays exactly what
the bus does not bring, every connection without one follows a client that has missed nothing, and
the queue of a connection loses nothing: over all its connections the client receives every durable
event of the session once. -/
theorem reconnect_loses_nothing
    (h : (streamSystem cfg).ReachableVia (fun s l => s.StreamGuard cfg l) s) (hq : s.Quiet) :
    ∀ i ∈ s.since, i ∉ s.pruned → s.receivedIds.count i = 1 := by
  intro i hi hn
  have hk := kept_of_via h
  obtain ⟨c, hc, hphase, hqueue, hpub⟩ := hq
  have hc : s.conn = some c := hc
  have hsettled := hk.settled (Stream.ahead_none hc (by simp [hphase])) i hi hn
  have hrows : s.rows = [] := by
    rw [Stream.rows_conn hc]
    exact Stream.rows_nil fun rows => by simp [hphase]
  have hzero : (s.publishing.map (·.eventId)).count i = 0 := by
    refine List.count_eq_zero.mpr fun hm => ?_
    obtain ⟨e, he, rfl⟩ := List.mem_map.mp hm
    exact hpub e he hi
  rw [Stream.account, hrows, Stream.waiting_conn hc, hqueue, hk.unmissed c hc] at hsettled
  simpa [hzero] using hsettled

/-! ### An event is lost -/

/-- An event of the session 7 is persisted and comes to the client, or to nobody. -/
def publishEvent (i : ℕ) : List Label :=
  [.store (.persist 0 ⟨i, 0, some 7⟩), .store (.commit 0), .reach i]

/-- The client has had an event replayed when it disconnects; one event is in its queue then, and
another one is published before it is back. -/
def replayedRun : List Label :=
  publishEvent 0 ++ [.connect (some (.durable 0)), .replay, .send] ++ publishEvent 1 ++
    [.disconnect] ++ publishEvent 2 ++
    [.connect (some (.durable 1)), .replay, .send, .send, .send, .listFrames []]

/-- The client has received a live event when it disconnects, and an event is published before it is
back. -/
def liveRun : List Label :=
  [.connect none, .replay, .listFrames []] ++ publishEvent 0 ++ [.send, .disconnect] ++
    publishEvent 1 ++ [.connect (some .bare), .replay, .listFrames []]

/-- The stream of the session 7, over the in-process bus. -/
def sessionSeven : StreamConfig := ⟨.inProcess, ⟨.other, fun _ => 0⟩, 7⟩

theorem reconnect_loses_nothing_replayedRun :
    ∃ s, (streamSystem sessionSeven).checkedRun (fun s l => s.StreamGuard sessionSeven l)
        Stream.fresh replayedRun = some s ∧
      s.since = [1, 2] ∧ ∀ i ∈ s.since, i ∉ s.pruned → s.receivedIds.count i = 1 := by
  have hrun : ((streamSystem sessionSeven).checkedRun (fun s l => s.StreamGuard sessionSeven l)
      Stream.fresh replayedRun).any (fun s => s.since = [1, 2] ∧ s.Quiet) = true := by decide
  obtain ⟨s, hs, he⟩ := (Option.any_eq_true _ _).mp hrun
  obtain ⟨hsince, hq⟩ := of_decide_eq_true he
  exact ⟨s, hs, hsince, reconnect_loses_nothing (.of_checkedRun (.init rfl) hs) hq⟩

/-- The id of a live frame has no seq, and nothing is replayed. -/
theorem live_id_loses_event :
    ∃ s, (streamSystem sessionSeven).run Stream.fresh liveRun = some s ∧ s.Quiet ∧
      1 ∈ s.since ∧ 1 ∉ s.pruned ∧ s.receivedIds.count 1 = 0 := by
  refine ⟨_, rfl, ?_⟩
  decide

end GgRelay.Sse
