import GgRelay.Cluster.Response

/-!
What the pump of the Redis bus has brought to the local subscribers.

* `Owed` says which entries a subscriber is to get, `Pending` which of them the pump has ahead of it;
* `PumpGuard` is the condition on runs, `PumpKept` and `DequeKept` are the invariants of these;
* `Kept.step` is their preservation, with one lemma for each kind of step.
-/

namespace GgRelay.Cluster

open Wire

variable {env : ℕ → ℕ × ℕ} {topic : Topic} {l : List RawEntry} {n : ℕ} {d : LocalDeque}

/-! ### The condition -/

/-- The pump comes out of its `await`. -/
def Label.handles : Label → Bool
  | .handle _ => true
  | _ => false

def Label.subscribes : Label → Bool
  | .subscribe _ _ => true
  | _ => false

namespace RedisBus

variable (cfg : RedisConfig) (b : RedisBus)

/-- The entry `n` was added after the subscriber was registered and the first read of the pump
began, and the subscriber wants it. -/
def Owed (d : LocalDeque) (n : ℕ) : Prop :=
  d.registered ≤ n ∧ b.firstRead.any (fun f => f ≤ n) = true ∧
    b.stream[n]?.any d.topic.wantsEntry = true

/-- The pump has the entry `n` ahead of it. -/
def Pending (n : ℕ) : Prop :=
  match b.pump with
  | .absent | .done => False
  -- `$` will be the end of the stream at the next read
  | .between none => b.stream.length ≤ n
  | .between (some pos) | .blocked _ pos => b.after pos ≤ n
  | .served first count => first ≤ n ∧ (n < first + count ∨ b.trimmed ≤ n)

/-- The response on its way to the pump. -/
def response : Option (ℕ × ℕ) :=
  match b.pump with
  | .served first count => some (first, count)
  | _ => none

/-- The entry `n` is in it. -/
def InFlight (n : ℕ) : Prop := ∃ x ∈ b.response, n < x.1 + x.2

instance (d : LocalDeque) (n : ℕ) : Decidable (b.Owed d n) :=
  inferInstanceAs (Decidable (_ ∧ _ ∧ _))

instance (n : ℕ) : Decidable (b.Pending n) := by
  unfold Pending
  split <;> infer_instance

instance (n : ℕ) : Decidable (b.InFlight n) :=
  inferInstanceAs (Decidable (∃ x ∈ b.response, n < x.1 + x.2))

/-- The condition on the steps of a run. -/
structure PumpGuard (l : Label) : Prop where
  /-- no entry that somebody is to get is added between two reads from `$` -/
  landing : ∀ x ∈ l.added, b.pump = .between none → b.firstRead.isSome = true →
    ∀ d ∈ b.subs, d.closed = false → d.topic.wantsEntry x.1 = false
  /-- none is trimmed before the pump has read it -/
  trimming : ∀ x ∈ l.added, ∀ n < b.trimTo cfg x.2, b.Pending n → ¬b.InFlight n →
    ∀ d ∈ b.subs, d.closed = false → ¬(b.xadd cfg x.1 x.2).Owed d n
  /-- a response meets room in the queues of those who want its entries -/
  room : l.handles = true → ∀ x ∈ b.response, ∀ d ∈ b.subs, d.closed = false →
    d.maxsize = 0 ∨ d.queue.length + (b.batch x.1 x.2).countP d.topic.wantsEntry ≤ d.maxsize
  /-- and has no entry that crashes the pump -/
  readable : l.handles = true → ∀ x ∈ b.response, ∀ raw ∈ b.batch x.1 x.2, raw.crashes = false
  /-- nobody subscribes to a closed bus -/
  running : l.subscribes = true → b.closed = false

set_option synthInstance.maxSize 1000 in
instance (l : Label) : Decidable (b.PumpGuard cfg l) :=
  decidable_of_iff
    ((∀ x ∈ l.added, b.pump = .between none → b.firstRead.isSome = true →
        ∀ d ∈ b.subs, d.closed = false → d.topic.wantsEntry x.1 = false) ∧
      (∀ x ∈ l.added, ∀ n < b.trimTo cfg x.2, b.Pending n → ¬b.InFlight n →
        ∀ d ∈ b.subs, d.closed = false → ¬(b.xadd cfg x.1 x.2).Owed d n) ∧
      (l.handles = true → ∀ x ∈ b.response, ∀ d ∈ b.subs, d.closed = false →
        d.maxsize = 0 ∨
          d.queue.length + (b.batch x.1 x.2).countP d.topic.wantsEntry ≤ d.maxsize) ∧
      (l.handles = true → ∀ x ∈ b.response, ∀ raw ∈ b.batch x.1 x.2, raw.crashes = false) ∧
      (l.subscribes = true → b.closed = false))
    ⟨fun h => ⟨h.1, h.2.1, h.2.2.1, h.2.2.2.1, h.2.2.2.2⟩,
      fun h => ⟨h.landing, h.trimming, h.room, h.readable, h.running⟩⟩

/-! ### The invariants -/

/-- The pump is past the entries before this one. -/
def handled : ℕ :=
  match b.pump with
  | .absent | .done | .between none => b.stream.length
  | .between (some pos) | .blocked _ pos => pos
  | .served first _ => first

/-- What holds of the pump. -/
structure PumpKept : Prop where
  trimmed : b.trimmed ≤ b.stream.length
  handled : b.handled ≤ b.stream.length
  served : ∀ x ∈ b.response, 0 < x.2 ∧ x.1 + x.2 ≤ b.stream.length
  blocked : ∀ lastId pos, b.pump = .blocked lastId pos → lastId = none ∨ lastId = some pos
  unread : b.firstRead = none → b.pump = .absent ∨ b.pump = .between none ∨ b.pump = .done
  absent : b.pump = .absent → b.subs = []
  done : b.pump = .done → b.closed = true
  closed : b.closed = true → ∀ d ∈ b.subs, d.closed = true

/-- What holds of a subscriber: it was given what it is owed, but for what is pending. -/
structure DequeKept (d : LocalDeque) : Prop where
  registered : d.registered ≤ b.stream.length
  sorted : (d.put.map Prod.fst).Pairwise (· < ·)
  below : ∀ x ∈ d.put, x.1 < b.handled
  sound : ∀ x ∈ d.put, ∃ raw, b.stream[x.1]? = some raw ∧ d.topic.wantsEntry raw = true ∧
    ∃ uuid now, raw.read uuid now = .ok x.2
  queued : d.put.map Prod.snd = d.got ++ d.queue
  kept : d.closed = false → ∀ n, b.Owed d n → ¬b.Pending n → n ∈ d.put.map Prod.fst

variable {cfg b} {b' : RedisBus} {raw : RawEntry} {trim : ℕ}

/-- What one is owed is in the stream. -/
lemma Owed.entry (h : b.Owed d n) : ∃ raw, b.stream[n]? = some raw ∧ d.topic.wantsEntry raw = true :=
  (Option.any_eq_true _ _).mp h.2.2

lemma Owed.lt (h : b.Owed d n) : n < b.stream.length := by
  obtain ⟨raw, hget, -⟩ := h.entry
  exact (List.getElem?_eq_some_iff.mp hget).1

lemma Owed.read (h : b.Owed d n) : b.firstRead.isSome = true := by
  obtain ⟨f, hf, -⟩ := (Option.any_eq_true _ _).mp h.2.1
  rw [hf]
  rfl

/-- A step that gives nothing to the subscriber, and takes nothing from it that it is owed. -/
lemma DequeKept.later (hk : b.DequeKept d)
    (hstream : ∀ (n : ℕ) (raw : RawEntry), b.stream[n]? = some raw → b'.stream[n]? = some raw)
    (hlen : b.stream.length ≤ b'.stream.length) (hhandled : b.handled ≤ b'.handled)
    (hkept : d.closed = false → ∀ n, b'.Owed d n → ¬b'.Pending n → b.Owed d n ∧ ¬b.Pending n) :
    b'.DequeKept d where
  registered := hk.registered.trans hlen
  sorted := hk.sorted
  below x hx := (hk.below x hx).trans_le hhandled
  sound x hx := by
    obtain ⟨raw, hget, hrest⟩ := hk.sound x hx
    exact ⟨raw, hstream _ _ hget, hrest⟩
  queued := hk.queued
  kept hd n ho hp := by
    obtain ⟨ho', hp'⟩ := hkept hd n ho hp
    exact hk.kept hd n ho' hp'

/-- The consumer of the subscriber does something. -/
lemma DequeKept.consumer {d' : LocalDeque} (hk : b.DequeKept d) (ht : d'.topic = d.topic)
    (hr : d'.registered = d.registered) (hp : d'.put = d.put)
    (hq : d'.got ++ d'.queue = d.got ++ d.queue) (hc : d'.closed = false → d.closed = false) :
    b.DequeKept d' where
  registered := hr ▸ hk.registered
  sorted := hp ▸ hk.sorted
  below := hp ▸ hk.below
  sound x hx := by
    rw [ht]
    exact hk.sound x (hp ▸ hx)
  queued := by rw [hp, hq, hk.queued]
  kept hd n ho hn := by
    rw [hp]
    refine hk.kept (hc hd) n ?_ hn
    rwa [Owed, hr, ht] at ho

/-! ### The stream grows -/

@[simp] lemma xadd_stream : (b.xadd cfg raw trim).stream = b.stream ++ [raw] := rfl

@[simp] lemma xadd_pump : (b.xadd cfg raw trim).pump = b.pump := rfl

@[simp] lemma xadd_trimmed : (b.xadd cfg raw trim).trimmed = b.trimTo cfg trim := rfl

/-- What an `XADD` takes away from the pump was trimmed. -/
lemma trimmed_of_lost (hpump : b.pump ≠ .between none) (hp : b.Pending n)
    (hn : ¬(b.xadd cfg raw trim).Pending n) : n < b.trimTo cfg trim ∧ ¬b.InFlight n := by
  have hle : b.trimmed ≤ b.trimTo cfg trim := le_max_left _ _
  have hresp : (∀ first count, b.pump ≠ .served first count) → ¬b.InFlight n := by
    rintro hno ⟨x, hx, -⟩
    rw [response] at hx
    split at hx
    · rename_i first count h
      exact hno first count h
    · cases hx
  rw [Pending, xadd_pump] at hn
  rw [Pending] at hp
  cases hpc : b.pump with
  | absent =>
      rw [hpc] at hp
      exact hp.elim
  | done =>
      rw [hpc] at hp
      exact hp.elim
  | between lastId =>
      cases lastId with
      | none => exact absurd hpc hpump
      | some pos =>
          simp only [hpc, after, xadd_trimmed, max_le_iff] at hp hn
          exact ⟨by omega, hresp (by simp [hpc])⟩
  | blocked lastId pos =>
      simp only [hpc, after, xadd_trimmed, max_le_iff] at hp hn
      exact ⟨by omega, hresp (by simp [hpc])⟩
  | served first count =>
      simp only [hpc, xadd_trimmed] at hp hn
      refine ⟨by omega, ?_⟩
      rintro ⟨x, hx, hlt⟩
      rw [response, hpc] at hx
      cases hx
      exact hn ⟨hp.1, Or.inl hlt⟩

/-- The next entry is ahead of the pump. -/
lemma pending_next (hk : b.PumpKept) (ha : b.pump ≠ .absent) (hd : b.pump ≠ .done) :
    b.Pending b.stream.length := by
  have ht := hk.trimmed
  have hh := hk.handled
  have hs := hk.served
  rw [Pending]
  rw [handled] at hh
  rw [response] at hs
  cases hpc : b.pump with
  | absent => exact absurd hpc ha
  | done => exact absurd hpc hd
  | between lastId =>
      cases lastId with
      | none => exact le_rfl
      | some pos =>
          rw [hpc] at hh
          exact max_le hh ht
  | blocked lastId pos =>
      rw [hpc] at hh
      exact max_le hh ht
  | served first count =>
      rw [hpc] at hh
      exact ⟨hh, Or.inr ht⟩

/-- The first read of the pump began before the pump came anywhere. -/
lemma PumpKept.begun (hk : b.PumpKept) (ha : b.pump ≠ .absent) (hb : b.pump ≠ .between none)
    (hd : b.pump ≠ .done) : b.firstRead ≠ none := by
  intro hr
  rcases hk.unread hr with h | h | h
  · exact ha h
  · exact hb h
  · exact hd h

/-- **The invariant.** -/
structure Kept (b : RedisBus) : Prop where
  pump : b.PumpKept
  deques : ∀ d ∈ b.subs, b.DequeKept d

lemma stream_xadd_of_lt (hn : n < b.stream.length) :
    (b.xadd cfg raw trim).stream[n]? = b.stream[n]? :=
  List.getElem?_append_left hn

lemma length_xadd : (b.xadd cfg raw trim).stream.length = b.stream.length + 1 := by
  rw [xadd_stream, List.length_append, List.length_singleton]

lemma handled_xadd : b.handled ≤ (b.xadd cfg raw trim).handled ∧
    (b.xadd cfg raw trim).handled ≤ b.handled + 1 := by
  rw [handled, handled, xadd_pump, length_xadd]
  split
  · omega
  · omega
  · omega
  · omega
  · omega
  · omega

/-- An entry is added, within reach of the pump as far as somebody is owed it. -/
lemma Kept.xadd (hk : b.Kept)
    (hland : b.pump = .between none → b.firstRead.isSome = true → ∀ d ∈ b.subs, d.closed = false →
      d.topic.wantsEntry raw = false)
    (htrim : ∀ n < b.trimTo cfg trim, b.Pending n → ¬b.InFlight n → ∀ d ∈ b.subs,
      d.closed = false → ¬(b.xadd cfg raw trim).Owed d n) :
    (b.xadd cfg raw trim).Kept := by
  have hlen : (b.xadd cfg raw trim).stream.length = b.stream.length + 1 := length_xadd
  have hhandled : b.handled ≤ (b.xadd cfg raw trim).handled ∧
      (b.xadd cfg raw trim).handled ≤ b.handled + 1 := handled_xadd
  refine ⟨⟨?_, ?_, fun x hx => ?_, hk.pump.blocked, hk.pump.unread, hk.pump.absent, hk.pump.done,
    hk.pump.closed⟩, fun d hd => ?_⟩
  · have ht := hk.pump.trimmed
    rw [hlen, xadd_trimmed, trimTo]
    omega
  · rw [hlen]
    exact hhandled.2.trans (Nat.succ_le_succ hk.pump.handled)
  · obtain ⟨hpos, hle⟩ := hk.pump.served x hx
    rw [hlen]
    exact ⟨hpos, Nat.le_succ_of_le hle⟩
  · have hd : d ∈ b.subs := hd
    refine (hk.deques d hd).later (fun m r hm => ?_) (hlen ▸ Nat.le_succ _) hhandled.1
      fun hopen m ho hp => ?_
    · have hlt : m < b.stream.length := (List.getElem?_eq_some_iff.mp hm).1
      rw [stream_xadd_of_lt hlt, hm]
    · -- nobody who is open is owed an entry that has become out of reach
      have hlost : ¬b.Pending m := by
        intro hpend
        by_cases hpump : b.pump = .between none
        · have hge : b.stream.length ≤ m := by simpa [Pending, hpump] using hpend
          have hlt := ho.lt
          rw [hlen] at hlt
          have hm : m = b.stream.length := by omega
          obtain ⟨r, hget, hw⟩ := ho.entry
          have hr : r = raw := by
            rw [xadd_stream, hm, List.getElem?_concat_length] at hget
            exact (Option.some.inj hget).symm
          rw [hr, hland hpump ho.read d hd hopen] at hw
          cases hw
        · obtain ⟨hlt, hfly⟩ := trimmed_of_lost hpump hpend hp
          exact htrim m hlt hpend hfly d hd hopen ho
      refine ⟨?_, hlost⟩
      by_cases hlt : m < b.stream.length
      · have hget : (b.xadd cfg raw trim).stream[m]? = b.stream[m]? := stream_xadd_of_lt hlt
        rw [Owed, ← hget]
        exact ho
      · have hm : m = b.stream.length := by
          have := ho.lt
          rw [hlen] at this
          omega
        have ha : b.pump ≠ .absent := fun h => by
          rw [hk.pump.absent h] at hd
          cases hd
        have hdone : b.pump ≠ .done := fun h => by
          rw [hk.pump.closed (hk.pump.done h) d hd] at hopen
          cases hopen
        exact absurd (hm ▸ pending_next hk.pump ha hdone) hlost

/-! ### The pump reads -/

/-- The pump moves, and keeps ahead what it had ahead. -/
lemma Kept.move (hk : b.Kept) (hstream : b'.stream = b.stream) (hsubs : b'.subs = b.subs)
    (hp : b'.PumpKept) (hh : b.handled ≤ b'.handled)
    (hkeep : ∀ d ∈ b.subs, d.closed = false → ∀ n, b'.Owed d n →
      b.Owed d n ∧ (b.Pending n → b'.Pending n)) : b'.Kept := by
  refine ⟨hp, fun d hd => ?_⟩
  rw [hsubs] at hd
  refine (hk.deques d hd).later (fun n raw hn => hstream ▸ hn) (hstream ▸ le_rfl) hh
    fun hopen n ho hn => ?_
  obtain ⟨ho', himp⟩ := hkeep d hd hopen n ho
  exact ⟨ho', fun hpend => hn (himp hpend)⟩

/-- Redis has something to answer with. -/
lemma Kept.serveFrom (hk : b.Kept) {pos : ℕ} (hpos : b.after pos < b.stream.length)
    (hh : b.handled ≤ pos) (hread : b.firstRead.isSome = true)
    (hpend : ∀ m, b.Pending m → b.after pos ≤ m ∨ b.stream.length ≤ m) : (b.serveFrom pos).Kept := by
  have hle : pos ≤ b.after pos := le_max_left _ _
  refine hk.move rfl rfl ⟨hk.pump.trimmed, hpos.le, fun x hx => ?_, ?_, ?_, ?_, ?_, hk.pump.closed⟩
    (hh.trans hle) fun d hd hopen m ho => ⟨ho, fun hp => ?_⟩
  · cases hx
    have hcount : readCount = 100 := rfl
    show 0 < min readCount (b.stream.length - b.after pos) ∧
      b.after pos + min readCount (b.stream.length - b.after pos) ≤ b.stream.length
    omega
  · intro lastId p h
    cases h
  · intro h
    have h : b.firstRead = none := h
    rw [h] at hread
    cases hread
  · intro h
    cases h
  · intro h
    cases h
  · have htrim : b.trimmed ≤ b.after pos := le_max_right _ _
    rcases hpend m hp with hm | hm
    · exact ⟨hm, Or.inr (htrim.trans hm)⟩
    · exact absurd ho.lt (not_lt.mpr hm)

lemma Kept.call (hk : b.Kept) {lastId : Option ℕ} (hpc : b.pump = .between lastId) :
    (b.call lastId).Kept := by
  have hh : ∀ pos, lastId = some pos → b.handled = pos := fun pos h => by
    rw [handled, hpc, h]
  rw [RedisBus.call]
  split
  · rename_i hc
    refine hk.move rfl rfl ⟨hk.pump.trimmed, le_rfl, fun x hx => (by cases hx),
      fun _ _ h => (by cases h), fun _ => Or.inr (Or.inr rfl), fun h => (by cases h), fun _ => hc,
      hk.pump.closed⟩ hk.pump.handled fun d hd hopen => ?_
    rw [hk.pump.closed hc d hd] at hopen
    cases hopen
  · rename_i hc
    have hc : b.closed = false := by simpa using hc
    -- the read begins
    have hread : RedisBus.Kept { b with firstRead := some (b.firstRead.getD b.stream.length) } := by
      refine hk.move rfl rfl ⟨hk.pump.trimmed, hk.pump.handled, hk.pump.served, hk.pump.blocked,
        fun h => (by cases h), hk.pump.absent, hk.pump.done, hk.pump.closed⟩ le_rfl
        fun d hd hopen m ho => ⟨⟨ho.1, ?_, ho.2.2⟩, id⟩
      have hf : (some (b.firstRead.getD b.stream.length)).any (fun f => f ≤ m) = true := ho.2.1
      cases hr : b.firstRead with
      | none =>
          rw [hr] at hf
          have hlt := ho.lt
          have hle : b.stream.length ≤ m := by simpa using hf
          exact absurd hlt (not_lt.mpr hle)
      | some f =>
          rw [hr] at hf
          exact hf
    have hpend : ∀ m, b.Pending m → b.after (lastId.getD b.stream.length) ≤ m ∨
        b.stream.length ≤ m := by
      intro m hm
      rw [Pending, hpc] at hm
      cases lastId with
      | none => exact Or.inr hm
      | some pos => exact Or.inl hm
    have hpos : b.handled ≤ lastId.getD b.stream.length := by
      rw [handled, hpc]
      cases lastId with
      | none => exact le_rfl
      | some pos => exact le_rfl
    dsimp only
    split
    · rename_i hlt
      exact hread.serveFrom hlt hpos rfl hpend
    · rename_i hge
      have hle : lastId.getD b.stream.length ≤ b.stream.length := by
        cases lastId with
        | none => exact le_rfl
        | some pos => exact (hh pos rfl) ▸ hk.pump.handled
      refine hread.move rfl rfl ⟨hk.pump.trimmed, hle, fun x hx => (by cases hx), fun l p h => ?_,
        fun h => (by cases h), fun h => (by cases h), fun h => (by cases h), hk.pump.closed⟩ hpos
        fun d hd hopen m ho => ⟨ho, fun hm => ?_⟩
      · cases h
        cases lastId with
        | none => exact Or.inl rfl
        | some pos => exact Or.inr rfl
      · rcases hpend m hm with hm | hm
        · exact hm
        · exact absurd ho.lt (not_lt.mpr hm)

/-- Redis answers a read that was blocked. -/
lemma Kept.serve (hk : b.Kept) {lastId : Option ℕ} {pos : ℕ} (hpc : b.pump = .blocked lastId pos)
    (hlt : b.after pos < b.stream.length) : (b.serveFrom pos).Kept := by
  have hread : b.firstRead.isSome = true :=
    Option.isSome_iff_ne_none.mpr
      (hk.pump.begun (by simp [hpc]) (by simp [hpc]) (by simp [hpc]))
  refine hk.serveFrom hlt ?_ hread fun m hm => Or.inl ?_
  · rw [handled, hpc]
  · rwa [Pending, hpc] at hm

lemma Kept.timeout (hk : b.Kept) {lastId : Option ℕ} {pos : ℕ} (hpc : b.pump = .blocked lastId pos)
    (hge : ¬b.after pos < b.stream.length) : RedisBus.Kept { b with pump := .between lastId } := by
  have hpos : pos ≤ b.stream.length := by
    have hh := hk.pump.handled
    rwa [handled, hpc] at hh
  have hread : b.firstRead ≠ none :=
    hk.pump.begun (by simp [hpc]) (by simp [hpc]) (by simp [hpc])
  have hlast := hk.pump.blocked lastId pos hpc
  have hhandled : b.handled ≤ RedisBus.handled { b with pump := .between lastId } ∧
      RedisBus.handled { b with pump := .between lastId } ≤ b.stream.length := by
    rw [handled, hpc]
    rcases hlast with rfl | rfl
    · exact ⟨hpos, le_rfl⟩
    · exact ⟨le_rfl, hpos⟩
  refine hk.move rfl rfl ⟨hk.pump.trimmed, hhandled.2, fun x hx => (by cases hx),
    fun l p h => (by cases h), fun h => absurd h hread, fun h => (by cases h), fun h => (by cases h),
    hk.pump.closed⟩ hhandled.1 fun d hd hopen m ho => ⟨ho, fun hm => ?_⟩
  have hm : b.after pos ≤ m := by rwa [Pending, hpc] at hm
  rcases hlast with rfl | rfl
  · exact (not_lt.mp hge).trans hm
  · exact hm

/-! ### The pump goes through a response -/

lemma batch_get {first count m : ℕ} : (b.batch first count)[m - first]? = some raw ∧ first ≤ m ↔
    b.stream[m]? = some raw ∧ first ≤ m ∧ m < first + count := by
  rw [batch, List.getElem?_take, List.getElem?_drop]
  constructor
  · rintro ⟨h, hle⟩
    split at h
    · rw [Nat.add_sub_cancel' hle] at h
      exact ⟨h, hle, by omega⟩
    · cases h
  · rintro ⟨h, hle, hlt⟩
    rw [if_pos (by omega), Nat.add_sub_cancel' hle]
    exact ⟨h, hle⟩

/-- An entry that somebody wants can be read. -/
lemma read_of_wantsEntry (h : topic.wantsEntry raw = true) (uuid now : ℕ) :
    ∃ e, raw.read uuid now = .ok e := by
  cases hr : raw.read uuid now with
  | error err =>
      rw [not_wantsEntry_of_error hr] at h
      cases h
  | ok e => exact ⟨e, rfl⟩

/-- A subscriber after a response that it has room for. -/
lemma DequeKept.receive (hk : b.DequeKept d) {first count : ℕ} (hpc : b.pump = .served first count)
    (hroom : d.closed = false → d.maxsize = 0 ∨
      d.queue.length + (b.batch first count).countP d.topic.wantsEntry ≤ d.maxsize)
    (hb : b'.stream = b.stream) (ht : b'.trimmed = b.trimmed) (hf : b'.firstRead = b.firstRead)
    (hp : b'.pump = .between (some (first + count))) :
    b'.DequeKept (d.receive env (b.batch first count) first) := by
  have hhandled : b.handled = first := by rw [handled, hpc]
  have hhandled' : b'.handled = first + count := by rw [handled, hp]
  have howed : ∀ m, b'.Owed d m ↔ b.Owed d m := fun m => by rw [Owed, Owed, hb, hf]
  by_cases hd : d.closed = true
  · rw [receive_of_closed hd]
    refine hk.later (fun n raw hn => hb ▸ hn) (hb ▸ le_rfl) (by omega) fun hopen => ?_
    rw [hd] at hopen
    cases hopen
  · have hopen : d.closed = false := by simpa using hd
    have hlen : (wanted env d.topic (b.batch first count) first).length
        ≤ (b.batch first count).countP d.topic.wantsEntry := length_wanted
    have hroom' := (hroom hopen).imp id fun h => (Nat.add_le_add_left hlen _).trans h
    rw [receive_of_room hopen hroom']
    -- what is put is in the response
    have hmem : ∀ x, x ∈ wanted env d.topic (b.batch first count) first ↔ ∃ raw,
        b.stream[x.1]? = some raw ∧ (first ≤ x.1 ∧ x.1 < first + count) ∧
          raw.read (env x.1).1 (env x.1).2 = .ok x.2 ∧ d.topic.wantsEntry raw = true := by
      intro x
      rw [mem_wanted]
      constructor
      · rintro ⟨hle, raw, hget, hrest⟩
        obtain ⟨hget, hrange⟩ := batch_get.mp ⟨hget, hle⟩
        exact ⟨raw, hget, hrange, hrest⟩
      · rintro ⟨raw, hget, hrange, hrest⟩
        obtain ⟨hget, hle⟩ := batch_get.mpr ⟨hget, hrange⟩
        exact ⟨hle, raw, hget, hrest⟩
    refine ⟨hb ▸ hk.registered, ?_, fun x hx => ?_, fun x hx => ?_, ?_, fun _ m ho hm => ?_⟩
    · rw [List.map_append, List.pairwise_append]
      refine ⟨hk.sorted, wanted_sorted, fun i hi j hj => ?_⟩
      obtain ⟨x, hx, rfl⟩ := List.mem_map.mp hi
      obtain ⟨y, hy, rfl⟩ := List.mem_map.mp hj
      obtain ⟨-, -, hrange, -⟩ := (hmem y).mp hy
      have hlt := hk.below x hx
      omega
    · rcases List.mem_append.mp hx with hx | hx
      · have hlt := hk.below x hx
        omega
      · obtain ⟨-, -, hrange, -⟩ := (hmem x).mp hx
        omega
    · rcases List.mem_append.mp hx with hx | hx
      · exact hb ▸ hk.sound x hx
      · obtain ⟨raw, hget, -, hread, hw⟩ := (hmem x).mp hx
        exact ⟨raw, hb ▸ hget, hw, _, _, hread⟩
    · show (d.put ++ _).map Prod.snd = d.got ++ (d.queue ++ _)
      rw [List.map_append, hk.queued, List.append_assoc]
    · have ho : b.Owed d m := (howed m).mp ho
      show m ∈ (d.put ++ wanted env d.topic (b.batch first count) first).map Prod.fst
      rw [List.map_append]
      by_cases hpend : b.Pending m
      · refine List.mem_append_right _ ?_
        have hm : ¬b'.after (first + count) ≤ m := by rwa [Pending, hp] at hm
        rw [Pending, hpc] at hpend
        rw [after, ht, max_le_iff] at hm
        obtain ⟨raw, hget, hw⟩ := ho.entry
        obtain ⟨e, he⟩ := read_of_wantsEntry hw (env m).1 (env m).2
        have hx : (m, e) ∈ wanted env d.topic (b.batch first count) first :=
          (hmem (m, e)).mpr ⟨raw, hget, ⟨hpend.1, by omega⟩, he, hw⟩
        exact List.mem_map_of_mem hx
      · exact List.mem_append_left _ (hk.kept hopen m ho hpend)

lemma receive_closed_iff : ∀ {l : List RawEntry} {n : ℕ} {d : LocalDeque},
    (d.receive env l n).closed = d.closed
  | [], _, _ => rfl
  | raw :: rest, n, d => by
      have hoffer : ∀ e, (d.offer n e).closed = d.closed := fun e => by
        rw [LocalDeque.offer]
        split
        · rfl
        · rfl
      rw [LocalDeque.receive]
      split
      · rw [receive_closed_iff]
        split
        · exact hoffer _
        · rfl
      · exact receive_closed_iff

lemma Kept.handle (hk : b.Kept) {first count : ℕ} (hpc : b.pump = .served first count)
    (hroom : ∀ d ∈ b.subs, d.closed = false → d.maxsize = 0 ∨
      d.queue.length + (b.batch first count).countP d.topic.wantsEntry ≤ d.maxsize)
    (hread : ∀ raw ∈ b.batch first count, raw.crashes = false) (env : ℕ → ℕ × ℕ) :
    (b.handle env first count).Kept := by
  have hresp : (first, count) ∈ b.response := by
    rw [response, hpc]
    rfl
  rw [RedisBus.handle, fanBatch_eq hread]
  refine ⟨⟨hk.pump.trimmed, (hk.pump.served _ hresp).2, fun x hx => (by cases hx),
    fun l p h => (by cases h), fun h => ?_, fun h => (by cases h), fun h => (by cases h),
    fun hc d hd => ?_⟩, fun d hd => ?_⟩
  · exact absurd h (hk.pump.begun (by simp [hpc]) (by simp [hpc]) (by simp [hpc]))
  · obtain ⟨d', hd', rfl⟩ := List.mem_map.mp hd
    rw [receive_closed_iff]
    exact hk.pump.closed hc d' hd'
  · obtain ⟨d', hd', rfl⟩ := List.mem_map.mp hd
    exact (hk.deques d' hd').receive hpc (hroom d' hd') rfl rfl rfl rfl

/-! ### The subscribers -/

lemma Kept.subscribe (hk : b.Kept) (hc : b.closed = false) (topic : Topic) (maxsize : ℕ) :
    (b.subscribe topic maxsize).Kept := by
  have hdone : b.pump ≠ .done := fun h => by
    rw [hk.pump.done h] at hc
    cases hc
  -- the pump is started, or is running already
  have hpump : b.pump = .absent ∧ (b.subscribe topic maxsize).pump = .between none ∨
      b.pump ≠ .absent ∧ (b.subscribe topic maxsize).pump = b.pump := by
    rw [RedisBus.subscribe]
    cases hpc : b.pump with
    | absent => exact Or.inl ⟨rfl, rfl⟩
    | done => exact absurd hpc hdone
    | between lastId => exact Or.inr ⟨by simp, rfl⟩
    | blocked lastId pos => exact Or.inr ⟨by simp, rfl⟩
    | served first count => exact Or.inr ⟨by simp, rfl⟩
  have hhandled : (b.subscribe topic maxsize).handled = b.handled := by
    rw [handled, handled]
    rcases hpump with ⟨h, h'⟩ | ⟨-, h'⟩
    · rw [h, h']
      rfl
    · rw [h']
      rfl
  refine ⟨⟨hk.pump.trimmed, hhandled ▸ hk.pump.handled, fun x hx => ?_, fun l p h => ?_,
    fun h => ?_, fun h => ?_, fun h => ?_, fun h => ?_⟩, fun d hd => ?_⟩
  · refine hk.pump.served x ?_
    rw [response] at hx ⊢
    rcases hpump with ⟨-, h'⟩ | ⟨-, h'⟩
    · rw [h'] at hx
      cases hx
    · rwa [h'] at hx
  · rcases hpump with ⟨-, h'⟩ | ⟨-, h'⟩
    · rw [h'] at h
      cases h
    · exact hk.pump.blocked l p (h' ▸ h)
  · rcases hpump with ⟨-, h'⟩ | ⟨-, h'⟩
    · exact Or.inr (Or.inl h')
    · rw [h']
      exact hk.pump.unread h
  · rcases hpump with ⟨-, h'⟩ | ⟨hne, h'⟩
    · rw [h'] at h
      cases h
    · exact absurd (h' ▸ h) hne
  · rcases hpump with ⟨-, h'⟩ | ⟨-, h'⟩
    · rw [h'] at h
      cases h
    · exact absurd (h' ▸ h) hdone
  · have h : b.closed = true := h
    rw [h] at hc
    cases hc
  · rcases List.mem_append.mp hd with hd | hd
    · refine (hk.deques d hd).later (fun _ _ h => h) le_rfl hhandled.ge
        fun hopen m ho hm => ⟨ho, fun hpend => ?_⟩
      rcases hpump with ⟨h, -⟩ | ⟨-, h'⟩
      · rw [Pending, h] at hpend
        exact hpend
      · rw [Pending, h'] at hm
        exact hm hpend
    · rw [List.mem_singleton] at hd
      subst hd
      refine ⟨le_rfl, List.Pairwise.nil, fun x hx => (by cases hx), fun x hx => (by cases hx), rfl,
        fun _ m ho => ?_⟩
      exact absurd ho.lt (not_lt.mpr ho.1)

lemma mem_updateAt {i : ℕ} {f : LocalDeque → LocalDeque} {subs : List LocalDeque} {d : LocalDeque}
    (h : d ∈ updateAt i f subs) : ∃ d' ∈ subs, d = d' ∨ d = f d' := by
  obtain ⟨j, hj, rfl⟩ := List.mem_mapIdx.mp h
  refine ⟨subs[j], List.getElem_mem hj, ?_⟩
  split
  · exact Or.inr rfl
  · exact Or.inl rfl

lemma DequeKept.of_subs (hk : b.DequeKept d) (subs : List LocalDeque) :
    DequeKept { b with subs := subs } d :=
  hk.later (fun _ _ h => h) le_rfl le_rfl fun _ _ ho hp => ⟨ho, hp⟩

/-- The consumer of a subscriber takes an event or closes it. -/
lemma Kept.updateAt (hk : b.Kept) (i : ℕ) {f : LocalDeque → LocalDeque}
    (ht : ∀ d, (f d).topic = d.topic) (hr : ∀ d, (f d).registered = d.registered)
    (hp : ∀ d, (f d).put = d.put) (hq : ∀ d, (f d).got ++ (f d).queue = d.got ++ d.queue)
    (hc : ∀ d, d.closed = true → (f d).closed = true) :
    RedisBus.Kept { b with subs := updateAt i f b.subs } := by
  refine ⟨⟨hk.pump.trimmed, hk.pump.handled, hk.pump.served, hk.pump.blocked, hk.pump.unread,
    fun h => ?_, hk.pump.done, fun h d hd => ?_⟩, fun d hd => ?_⟩
  · have hnil : b.subs = [] := hk.pump.absent h
    show Cluster.updateAt i f b.subs = []
    rw [hnil]
    rfl
  · obtain ⟨d', hd', rfl | rfl⟩ := mem_updateAt hd
    · exact hk.pump.closed h _ hd'
    · exact hc _ (hk.pump.closed h _ hd')
  · obtain ⟨d', hd', rfl | rfl⟩ := mem_updateAt hd
    · exact (hk.deques _ hd').of_subs _
    · refine ((hk.deques _ hd').consumer (ht _) (hr _) (hp _) (hq _) fun h => ?_).of_subs _
      cases hcl : d'.closed with
      | false => rfl
      | true =>
          rw [hc _ hcl] at h
          cases h

lemma get_append (d : LocalDeque) : d.get.got ++ d.get.queue = d.got ++ d.queue := by
  rw [LocalDeque.get]
  split
  · rfl
  · rename_i h
    simp [h]

lemma Kept.close (hk : b.Kept) : b.close.Kept := by
  have hhandled : b.close.handled = b.stream.length := by
    rw [handled, RedisBus.close]
    by_cases h : b.pump = .absent
    · rw [if_pos h]
    · rw [if_neg h]
  refine ⟨⟨hk.pump.trimmed, hhandled.le, fun x hx => ?_, fun l p h => ?_, fun _ => ?_, fun h => ?_,
    fun _ => rfl, fun _ d hd => ?_⟩, fun d hd => ?_⟩
  · rw [response, RedisBus.close] at hx
    by_cases h : b.pump = .absent
    · rw [if_pos h] at hx
      cases hx
    · rw [if_neg h] at hx
      cases hx
  · have h : (if b.pump = .absent then PumpPc.absent else .done) = .blocked l p := h
    split at h
    · cases h
    · cases h
  · show (if b.pump = .absent then PumpPc.absent else .done) = .absent ∨ _ ∨
      (if b.pump = .absent then PumpPc.absent else .done) = .done
    split
    · exact Or.inl rfl
    · exact Or.inr (Or.inr rfl)
  · have h : (if b.pump = .absent then PumpPc.absent else .done) = .absent := h
    split at h
    · rename_i ha
      show b.subs.map LocalDeque.aclose = []
      rw [hk.pump.absent ha]
      rfl
    · cases h
  · obtain ⟨d', -, rfl⟩ := List.mem_map.mp hd
    rfl
  · obtain ⟨d', hd', rfl⟩ := List.mem_map.mp hd
    have hclosed : b.DequeKept d'.aclose :=
      (hk.deques d' hd').consumer rfl rfl rfl rfl fun h => (by cases h)
    refine hclosed.later (fun _ _ h => h) le_rfl (hhandled ▸ hk.pump.handled) fun hopen => ?_
    cases hopen

/-- **Every admitted step keeps the invariant.** -/
theorem Kept.step {l : Label} (hk : b.Kept) (hok : b.PumpGuard cfg l) (h : b.step cfg l = some b') :
    b'.Kept := by
  cases l with
  | publish e trim =>
      cases h
      exact hk.xadd (hok.landing _ rfl) (hok.trimming _ rfl)
  | xadd raw trim =>
      cases h
      exact hk.xadd (hok.landing _ rfl) (hok.trimming _ rfl)
  | subscribe topic maxsize =>
      cases h
      exact hk.subscribe (hok.running rfl) topic maxsize
  | call =>
      rw [RedisBus.step] at h
      split at h
      · rename_i lastId hpc
        cases h
        exact hk.call hpc
      · cases h
  | serve =>
      rw [RedisBus.step] at h
      split at h
      · rename_i lastId pos hpc
        simp only [Option.ite_none_right_eq_some, Option.some.injEq] at h
        obtain ⟨hlt, rfl⟩ := h
        exact hk.serve hpc hlt
      · cases h
  | timeout =>
      rw [RedisBus.step] at h
      split at h
      · rename_i lastId pos hpc
        simp only [Option.ite_none_left_eq_some, Option.some.injEq] at h
        obtain ⟨hge, rfl⟩ := h
        exact hk.timeout hpc hge
      · cases h
  | handle env =>
      rw [RedisBus.step] at h
      split at h
      · rename_i first count hpc
        cases h
        have hresp : (first, count) ∈ b.response := by
          rw [response, hpc]
          rfl
        exact hk.handle hpc (hok.room rfl _ hresp) (hok.readable rfl _ hresp) env
      · cases h
  | get i =>
      simp only [RedisBus.step, Option.ite_none_right_eq_some, Option.some.injEq] at h
      obtain ⟨-, rfl⟩ := h
      refine hk.updateAt i (fun d => ?_) (fun d => ?_) (fun d => ?_) get_append fun d hd => ?_
      all_goals
        rw [LocalDeque.get]
        split
      · rfl
      · rfl
      · rfl
      · rfl
      · rfl
      · rfl
      · exact hd
      · exact hd
  | aclose i =>
      simp only [RedisBus.step, Option.ite_none_right_eq_some, Option.some.injEq] at h
      obtain ⟨-, rfl⟩ := h
      exact hk.updateAt i (fun _ => rfl) (fun _ => rfl) (fun _ => rfl) (fun _ => rfl) fun _ _ => rfl
  | close =>
      cases h
      exact hk.close

end RedisBus

end GgRelay.Cluster
