import GgRelay.Cluster.Pump

/-!
The Redis bus loses nothing, under the condition of the pump.

* `Served` is what a subscriber can rely on, `served_of_kept` reads it off the invariant;
* `pump_catches_up` says that the pump can always come to the end of the stream;
* `pump_loses_nothing` is the result, `entry_is_lost` are runs in which an entry is lost.
-/

namespace GgRelay.Cluster

open Wire

variable {n : ℕ} {d : LocalDeque}

open RedisBus

lemma kept_of_via {cfg : RedisConfig} {b : RedisBus}
    (h : (redisSystem cfg).ReachableVia (fun b l => b.PumpGuard cfg l) b) : b.Kept := by
  refine h.invariant (fun b hb => ?_) fun _ _ _ hk hok hs => hk.step hok hs
  obtain ⟨stream, trimmed, ht, rfl⟩ := hb
  refine ⟨⟨ht, le_rfl, fun x hx => (by cases hx), fun l p h => (by cases h), fun _ => Or.inl rfl,
    fun _ => rfl, fun h => (by cases h), fun h => (by cases h)⟩, fun d hd => (by cases hd)⟩

/-- The subscriber was put what it is owed: each entry once, in the order of the stream, but for
those that the pump has ahead of it. -/
structure Served (b : RedisBus) (d : LocalDeque) : Prop where
  order : (d.put.map Prod.fst).Pairwise (· < ·)
  /-- only what it wants -/
  sound : ∀ x ∈ d.put, ∃ raw, b.stream[x.1]? = some raw ∧ d.topic.wantsEntry raw = true ∧
    ∃ uuid now, raw.read uuid now = .ok x.2
  /-- the queue is taken from in the order it was put to -/
  queued : d.put.map Prod.snd = d.got ++ d.queue
  once : d.closed = false → ∀ n, b.Owed d n →
    (d.put.map Prod.fst).count n = if b.Pending n then 0 else 1

lemma handled_le_of_pending {b : RedisBus} (hp : b.Pending n) : b.handled ≤ n := by
  rw [Pending] at hp
  rw [handled]
  cases hpc : b.pump with
  | absent =>
      rw [hpc] at hp
      exact hp.elim
  | done =>
      rw [hpc] at hp
      exact hp.elim
  | between lastId =>
      rw [hpc] at hp
      cases lastId with
      | none => exact hp
      | some pos => exact (le_max_left _ _).trans hp
  | blocked lastId pos =>
      rw [hpc] at hp
      exact (le_max_left _ _).trans hp
  | served first count =>
      rw [hpc] at hp
      exact hp.1

lemma served_of_kept {b : RedisBus} (hk : b.DequeKept d) : Served b d := by
  refine ⟨hk.sorted, hk.sound, hk.queued, fun hd n ho => ?_⟩
  have hnodup : (d.put.map Prod.fst).Nodup := hk.sorted.imp fun h => ne_of_lt h
  split
  · rename_i hp
    refine List.count_eq_zero.mpr fun hn => ?_
    obtain ⟨x, hx, rfl⟩ := List.mem_map.mp hn
    exact absurd (hk.below x hx) (not_lt.mpr (handled_le_of_pending hp))
  · rename_i hp
    exact List.count_eq_one_of_mem hnodup (hk.kept hd n ho hp)

/-! ### The pump catches up -/

/-- A step of the pump, or of Redis on its behalf. -/
def Label.ofPump : Label → Bool
  | .call | .serve | .handle _ => true
  | _ => false

/-- The queues have room for all that is ahead of the pump, and nothing in it crashes the pump. -/
structure Room (b : RedisBus) : Prop where
  room : ∀ d ∈ b.subs, d.closed = false → d.maxsize = 0 ∨
    d.queue.length + (b.stream.drop b.handled).countP d.topic.wantsEntry ≤ d.maxsize
  readable : ∀ raw ∈ b.stream.drop b.handled, raw.crashes = false

variable {cfg : RedisConfig} {b b' : RedisBus}

lemma Room.move (hr : Room b) (hstream : b'.stream = b.stream) (hsubs : b'.subs = b.subs)
    (hh : b.handled ≤ b'.handled) : Room b' := by
  have hsub : (b'.stream.drop b'.handled).Sublist (b.stream.drop b.handled) := by
    rw [hstream]
    exact List.drop_sublist_drop_left _ hh
  refine ⟨fun d hd hopen => ?_, fun raw hraw => hr.readable raw (hsub.subset hraw)⟩
  refine (hr.room d (hsubs ▸ hd) hopen).imp id fun h => ?_
  exact (Nat.add_le_add_left (hsub.countP_le) _).trans h

lemma drop_handled {first count : ℕ} (hpc : b.pump = .served first count) :
    b.stream.drop b.handled = b.batch first count ++ b.stream.drop (first + count) := by
  rw [handled, hpc, batch, ← List.drop_drop, List.take_append_drop]

lemma Room.readable_batch (hr : Room b) {first count : ℕ} (hpc : b.pump = .served first count) :
    ∀ raw ∈ b.batch first count, raw.crashes = false := by
  intro raw hraw
  refine hr.readable raw ?_
  rw [drop_handled hpc]
  exact List.mem_append_left _ hraw

/-- A response leaves room for the rest. -/
lemma Room.handle (hr : Room b) {first count : ℕ} (hpc : b.pump = .served first count)
    (env : ℕ → ℕ × ℕ) : Room (b.handle env first count) := by
  rw [RedisBus.handle, fanBatch_eq (hr.readable_batch hpc)]
  refine ⟨fun d hd hopen => ?_, fun raw hraw => hr.readable raw ?_⟩
  · obtain ⟨d', hd', rfl⟩ := List.mem_map.mp hd
    rw [receive_closed_iff] at hopen
    have hroom := hr.room d' hd' hopen
    rw [drop_handled hpc, List.countP_append] at hroom
    have hlen : (wanted env d'.topic (b.batch first count) first).length
        ≤ (b.batch first count).countP d'.topic.wantsEntry := length_wanted
    rw [receive_of_room hopen (hroom.imp id fun h => by omega)]
    refine hroom.imp id fun h => ?_
    show (d'.queue ++ (wanted env d'.topic (b.batch first count) first).map Prod.snd).length
      + (b.stream.drop (first + count)).countP d'.topic.wantsEntry ≤ d'.maxsize
    rw [List.length_append, List.length_map]
    omega
  · rw [drop_handled hpc]
    exact List.mem_append_right _ hraw

/-- The condition holds of a response that there is room for. -/
lemma Room.guard (hr : Room b) {first count : ℕ} (hpc : b.pump = .served first count)
    (env : ℕ → ℕ × ℕ) : b.PumpGuard cfg (.handle env) := by
  have hresp : ∀ x ∈ b.response, x = (first, count) := by
    intro x hx
    rw [response, hpc] at hx
    exact (Option.some.inj hx).symm
  refine ⟨fun x hx => (by cases hx), fun x hx => (by cases hx), fun _ x hx d hd hopen => ?_,
    fun _ x hx => ?_, fun h => (by cases h)⟩
  · rw [hresp x hx]
    refine (hr.room d hd hopen).imp id fun h => ?_
    rw [drop_handled hpc, List.countP_append] at h
    exact (Nat.add_le_add_left (Nat.le_add_right _ _) _).trans h
  · rw [hresp x hx]
    exact hr.readable_batch hpc

/-- The steps of the pump that meet the condition. -/
abbrev PumpSteps (cfg : RedisConfig) : RedisBus → RedisBus → Prop :=
  (redisSystem cfg).Leads fun b l => b.PumpGuard cfg l ∧ l.ofPump = true

lemma guard_of_quiet {l : Label} (ha : l.added = none) (hh : l.handles = false)
    (hs : l.subscribes = false) : b.PumpGuard cfg l := by
  refine ⟨fun x hx => ?_, fun x hx => ?_, fun h => ?_, fun h => ?_, fun h => ?_⟩
  · rw [ha] at hx
    cases hx
  · rw [ha] at hx
    cases hx
  · rw [hh] at h
    cases h
  · rw [hh] at h
    cases h
  · rw [hs] at h
    cases h

/-- Whenever something is ahead of the pump, Redis can give it the next entries. -/
lemma served_of_pending (hc : b.closed = false) (hn : n < b.stream.length)
    (hp : b.Pending n) : ∃ b' first count, PumpSteps cfg b b' ∧ b'.pump = .served first count ∧
      b'.stream = b.stream ∧ b'.subs = b.subs ∧ b'.closed = false ∧ b.handled ≤ b'.handled := by
  have hserve : ∀ (l : Label) (pos : ℕ) (b₁ : RedisBus), l.added = none → l.handles = false →
      l.subscribes = false → l.ofPump = true → b.handled ≤ pos →
      b.step cfg l = some (b₁.serveFrom pos) → b₁.stream = b.stream → b₁.subs = b.subs →
      b₁.closed = false → ∃ b' first count, PumpSteps cfg b b' ∧ b'.pump = .served first count ∧
        b'.stream = b.stream ∧ b'.subs = b.subs ∧ b'.closed = false ∧ b.handled ≤ b'.handled := by
    intro l pos b₁ ha hh hs hl hpos hstep hstream hsubs hclosed
    exact ⟨b₁.serveFrom pos, _, _, .single ⟨l, ⟨guard_of_quiet ha hh hs, hl⟩, hstep⟩, rfl, hstream,
      hsubs, hclosed, hpos.trans (le_max_left _ _)⟩
  cases hpc : b.pump with
  | absent =>
      rw [Pending, hpc] at hp
      exact hp.elim
  | done =>
      rw [Pending, hpc] at hp
      exact hp.elim
  | served first count => exact ⟨b, first, count, .refl, hpc, rfl, rfl, hc, le_rfl⟩
  | between lastId =>
      cases lastId with
      | none =>
          rw [Pending, hpc] at hp
          exact absurd hn (not_lt.mpr hp)
      | some pos =>
          have hafter : b.after pos ≤ n := by rwa [Pending, hpc] at hp
          refine hserve .call pos
            { b with firstRead := some (b.firstRead.getD b.stream.length) } rfl rfl rfl rfl
            (by rw [handled, hpc]) ?_ rfl rfl hc
          rw [step, hpc]
          simp only [RedisBus.call, hc, Option.getD_some, if_pos (hafter.trans_lt hn)]
          rfl
  | blocked lastId pos =>
      have hafter : b.after pos ≤ n := by rwa [Pending, hpc] at hp
      refine hserve .serve pos b rfl rfl rfl rfl (by rw [handled, hpc]) ?_ rfl rfl hc
      rw [step, hpc]
      exact if_pos (hafter.trans_lt hn)

lemma kept_of_steps (hk : b.Kept) (h : PumpSteps cfg b b') : b'.Kept := by
  induction h with
  | refl => exact hk
  | tail _ hs ih =>
      obtain ⟨l, ⟨hok, -⟩, hs⟩ := hs
      exact ih.step hok hs

/-- **The pump catches up.**  On its own it comes to the end of the stream. -/
theorem pump_catches_up (hk : b.Kept) (hc : b.closed = false) (hr : Room b) :
    ∃ b', PumpSteps cfg b b' ∧ b'.stream = b.stream ∧ ∀ n < b.stream.length, ¬b'.Pending n := by
  induction hm : b.stream.length - b.handled using Nat.strong_induction_on generalizing b with
  | _ m ih =>
      by_cases hp : ∃ n < b.stream.length, b.Pending n
      · obtain ⟨n, hn, hp⟩ := hp
        obtain ⟨b₁, first, count, hs₁, hpc, hstream, hsubs, hc₁, hh⟩ :=
          served_of_pending hc hn hp
        have hk₁ : b₁.Kept := kept_of_steps hk hs₁
        have hr₁ : Room b₁ := hr.move hstream hsubs hh
        -- it goes through the response, and so beyond its first entry
        have hstep : b₁.step cfg (.handle fun _ => (0, 0))
            = some (b₁.handle (fun _ => (0, 0)) first count) := by
          rw [step, hpc]
        have hs₂ : PumpSteps cfg b (b₁.handle (fun _ => (0, 0)) first count) :=
          hs₁.tail ⟨_, ⟨hr₁.guard hpc _, rfl⟩, hstep⟩
        obtain ⟨hpump₂, hstream₂, hclosed₂⟩ : (b₁.handle (fun _ => (0, 0)) first count).pump
            = .between (some (first + count)) ∧
            (b₁.handle (fun _ => (0, 0)) first count).stream = b₁.stream ∧
            (b₁.handle (fun _ => (0, 0)) first count).closed = b₁.closed := by
          rw [RedisBus.handle, fanBatch_eq (hr₁.readable_batch hpc)]
          exact ⟨rfl, rfl, rfl⟩
        have hhandled₁ : b₁.handled = first := by rw [handled, hpc]
        have hhandled₂ : (b₁.handle (fun _ => (0, 0)) first count).handled = first + count := by
          rw [handled, hpump₂]
        have hcount := hk₁.pump.served (first, count) (by rw [response, hpc]; rfl)
        have hlt : (b₁.handle (fun _ => (0, 0)) first count).stream.length
            - (b₁.handle (fun _ => (0, 0)) first count).handled < m := by
          rw [hstream₂, hhandled₂, ← hm, ← hstream]
          omega
        obtain ⟨b', hs', hstream', hdone⟩ := ih _ hlt (kept_of_steps hk hs₂) (hclosed₂.trans hc₁)
          (hr₁.handle hpc _) rfl
        refine ⟨b', hs₂.trans hs', (hstream'.trans hstream₂).trans hstream, ?_⟩
        rwa [hstream₂, hstream] at hdone
      · exact ⟨b, .refl, rfl, fun n hn hp' => hp ⟨n, hn, hp'⟩⟩

/-- **The pump loses nothing**, as long as no entry comes between two reads from `$` or is trimmed
unread, every response finds room in the queues and can be read, and nobody subscribes to a closed
bus: what one is owed was put once, in order, or is ahead of the pump, which can always go on to it. -/
theorem pump_loses_nothing
    (h : (redisSystem cfg).ReachableVia (fun b l => b.PumpGuard cfg l) b) :
    (∀ d ∈ b.subs, Served b d) ∧ (b.closed = false → Room b → ∃ b', PumpSteps cfg b b' ∧
      b'.stream = b.stream ∧ ∀ n < b.stream.length, ¬b'.Pending n) :=
  ⟨fun d hd => served_of_kept ((kept_of_via h).deques d hd),
    fun hc hr => pump_catches_up (kept_of_via h) hc hr⟩

/-- A session was created. -/
def created : RelayEvent :=
  { eventId := 7, occurredAt := 3, tier := .durable
    body := .typed .sessionCreated (by decide) [("session_id", .str "s1")] }

/-- An event while the first read is blocked, and another one before the second. -/
def twoEvents : List Label :=
  [.subscribe (.cls .sessionCreated) 1000, .call, .publish created 0, .serve, .handle fun _ => (0, 0),
    .publish created 0, .call, .handle fun _ => (0, 0)]

theorem pump_loses_nothing_of_twoEvents : ∃ b,
    (redisSystem {}).checkedRun (fun b l => b.PumpGuard {} l) (fresh [] 0) twoEvents = some b ∧
      (b.subs.map fun d => d.put.map Prod.fst) = [[0, 1]] ∧ ∀ d ∈ b.subs, Served b d := by
  have hrun : ((redisSystem {}).checkedRun (fun b l => b.PumpGuard {} l) (fresh [] 0) twoEvents).any
      (fun b => (b.subs.map fun d => d.put.map Prod.fst) = [[0, 1]]) = true := by decide
  obtain ⟨b, hs, he⟩ := (Option.any_eq_true _ _).mp hrun
  exact ⟨b, hs, of_decide_eq_true he,
    (pump_loses_nothing (.of_checkedRun (.init ⟨[], 0, le_rfl, rfl⟩) hs)).1⟩

/-! ### An entry is lost -/

/-- The first read finds nothing; an event comes before the next one. -/
def betweenReads : List Label :=
  [.subscribe (.cls .sessionCreated) 1000, .call, .timeout, .publish created 0, .call]

/-- Two events for a queue with room for one. -/
def fullQueue : List Label :=
  [.subscribe (.cls .sessionCreated) 1, .call, .publish created 0, .publish created 0, .serve,
    .handle fun _ => (0, 0)]

/-- An entry is neither in the queue nor ahead of the pump, be it that it came between two reads or
that the queue was full. -/
theorem entry_is_lost :
    (∃ b, (redisSystem {}).run (fresh [] 0) betweenReads = some b ∧ ∃ d ∈ b.subs,
      d.closed = false ∧ b.Owed d 0 ∧ ¬b.Pending 0 ∧ 0 ∉ d.put.map Prod.fst) ∧
    ∃ b, (redisSystem {}).run (fresh [] 0) fullQueue = some b ∧ ∃ d ∈ b.subs,
      d.closed = false ∧ b.Owed d 1 ∧ ¬b.Pending 1 ∧ 1 ∉ d.put.map Prod.fst := by
  refine ⟨⟨_, rfl, _, List.mem_cons_self, rfl, ?_, ?_, ?_⟩,
    ⟨_, rfl, _, List.mem_cons_self, rfl, ?_, ?_, ?_⟩⟩
  · decide
  · decide
  · decide
  · decide
  · decide
  · decide

end GgRelay.Cluster
