import GgRelay.Cluster.Delivery
import GgRelay.Cluster.InProcess

/-!
What a subscriber receives from the Redis bus, next to what it receives from the in-process bus.

* `decoded` is what an event comes back as, with one more level of payloads than it had;
* `OverRedis` is one subscriber of the Redis bus of one process, `fed` what every run of it keeps;
* `backends_agree_iff` is the result, `backends_differ` a run in which the buses differ.
-/

namespace GgRelay.Wire

/-- What a published event comes back as. -/
def decoded (e : RelayEvent) : RelayEvent :=
  { e with body := .replayed e.cls.name e.sessionId (rereadDict e.payload) 0 }

lemma read_published (e : RelayEvent) (uuid now : ℕ) :
    (RawEntry.fields (encodeEvent e)).read uuid now = .ok (decoded e) :=
  decode_encode e

/-! ### Levels of payloads -/

mutual

/-- How deep a value is nested. -/
def nesting : Json → ℕ
  | .scalar _ | .str _ => 0
  | .list vs | .tuple vs => nestingList vs + 1
  | .mapping d => nestingDict d + 1

def nestingList : List Json → ℕ
  | [] => 0
  | v :: vs => max (nesting v) (nestingList vs)

def nestingDict : List (String × Json) → ℕ
  | [] => 0
  | (_, v) :: d => max (nesting v) (nestingDict d)

end

mutual

lemma nesting_reread : ∀ v : Json, nesting (reread v) = nesting v
  | .scalar (.other r) => by
      rw [reread]
      split
      · rfl
      · rfl
  | .scalar .null => rfl
  | .scalar (.bool _) => rfl
  | .scalar (.int _) => rfl
  | .str _ => rfl
  | .list vs => by rw [reread, nesting, nesting, nestingList_reread]
  | .tuple vs => by rw [reread, nesting, nesting, nestingList_reread]
  | .mapping d => by rw [reread, nesting, nesting, nestingDict_reread]

lemma nestingList_reread : ∀ vs : List Json, nestingList (rereadList vs) = nestingList vs
  | [] => rfl
  | v :: vs => by rw [rereadList, nestingList, nestingList, nesting_reread, nestingList_reread]

lemma nestingDict_reread : ∀ d : List (String × Json), nestingDict (rereadDict d) = nestingDict d
  | [] => rfl
  | (k, v) :: d => by rw [rereadDict, nestingDict, nestingDict, nesting_reread, nestingDict_reread]

end

/-- The levels of payloads of an event. -/
def RelayEvent.levels (e : RelayEvent) : ℕ :=
  match e.body with
  | .typed _ _ _ => 0
  | .replayed _ _ payload _ => nestingDict payload + 1

/-- Over Redis an event gains a level. -/
lemma levels_lt_decoded (e : RelayEvent) : e.levels < (decoded e).levels := by
  have hlevels : (decoded e).levels = nestingDict e.payload + 1 := by
    show nestingDict (rereadDict e.payload) + 1 = _
    rw [nestingDict_reread]
  rw [hlevels, Nat.lt_succ_iff]
  obtain ⟨eventId, occurredAt, tier, body⟩ := e
  cases body with
  | typed cls h fields => exact Nat.zero_le _
  | replayed typeName sessionId payload seq =>
      show nestingDict payload + 1 ≤ _
      simp [RelayEvent.payload, nestingDict, nesting]

/-- So no list of events, unless it is empty, has with each event what it comes back as. -/
lemma eq_nil_of_decoded_mem {l : List RelayEvent} (h : ∀ e ∈ l, decoded e ∈ l) : l = [] := by
  have hdeep : ∀ e ∈ l, ∀ k, ∃ e' ∈ l, k ≤ e'.levels := by
    intro e he k
    induction k with
    | zero => exact ⟨e, he, Nat.zero_le _⟩
    | succ k ih =>
        obtain ⟨e', he', hk⟩ := ih
        exact ⟨decoded e', h e' he', hk.trans_lt (levels_lt_decoded e')⟩
  have hbound : ∀ e ∈ l, e.levels ≤ (l.map RelayEvent.levels).sum := fun e he =>
    List.single_le_sum (fun _ _ => Nat.zero_le _) _ (List.mem_map_of_mem he)
  refine List.eq_nil_iff_forall_not_mem.mpr fun e he => ?_
  obtain ⟨e', he', hk⟩ := hdeep e he ((l.map RelayEvent.levels).sum + 1)
  exact absurd (hbound e' he') (not_le.mpr hk)

end GgRelay.Wire

namespace GgRelay.Cluster

open Wire

/-- The event is one that a subscriber of this class gets from one of the buses: over Redis
everything is a `RelayEvent` and a `ReplayedEvent`. -/
def Concerns (cls : EventClass) (e : RelayEvent) : Prop :=
  e.cls = cls ∨ cls = .relayEvent ∨ cls = .replayedEvent

/-- Its subscribers get everything over Redis. -/
def Broad (cls : EventClass) : Prop := cls = .relayEvent ∨ cls = .replayedEvent

instance (cls : EventClass) (e : RelayEvent) : Decidable (Concerns cls e) :=
  inferInstanceAs (Decidable (_ ∨ _ ∨ _))

instance (cls : EventClass) : Decidable (Broad cls) := inferInstanceAs (Decidable (_ ∨ _))

variable {cls : EventClass}

lemma wants_iff {e : RelayEvent} : (Topic.cls cls).wants e.cls.name = true ↔ Concerns cls e := by
  rw [Topic.wants, Concerns]
  simp only [Bool.or_eq_true, decide_eq_true_eq]
  constructor
  · rintro ((h | h) | h)
    · exact Or.inr (Or.inr h.symm)
    · exact Or.inr (Or.inl h)
    · exact Or.inl (EventClass.name_injective h)
  · rintro (h | h | h)
    · exact Or.inr (h ▸ rfl)
    · exact Or.inl (Or.inr h)
    · exact Or.inl (Or.inl h.symm)

lemma wantsEntry_iff {e : RelayEvent} :
    (Topic.cls cls).wantsEntry (.fields (encodeEvent e)) = true ↔ Concerns cls e := by
  rw [Topic.wantsEntry, typeName_encode, Option.any_some, wants_iff]

/-- The Redis bus of one process, with one subscriber, and what was published on it. -/
structure OverRedis where
  bus : RedisBus
  published : List RelayEvent

namespace OverRedis

/-- `bus.subscribe(cls)`, on a new bus whose stream has been in use. -/
def fresh (old : List RawEntry) (trimmed : ℕ) (cls : EventClass) (maxsize : ℕ) : OverRedis :=
  { bus := (RedisBus.fresh old trimmed).subscribe (.cls cls) maxsize, published := [] }

variable (cfg : RedisConfig) (s : OverRedis)

/-- One step of the publisher, of Redis, of the pump or of the subscriber. -/
def step (l : Label) : Option OverRedis :=
  match l with
  | .publish e _ =>
      (s.bus.step cfg l).map fun b => { bus := b, published := s.published ++ [e] }
  | .call | .serve | .timeout | .handle _ | .get _ =>
      (s.bus.step cfg l).map fun b => { s with bus := b }
  | .xadd _ _ | .subscribe _ _ | .aclose _ | .close => none

/-- The subscription is live when something is published, and nothing is lost. -/
structure KeepsUp (l : Label) : Prop where
  live : l.added.isSome = true → s.bus.firstRead.isSome = true
  lossless : s.bus.PumpGuard cfg l

instance (l : Label) : Decidable (s.KeepsUp cfg l) :=
  decidable_of_iff ((l.added.isSome = true → s.bus.firstRead.isSome = true) ∧ s.bus.PumpGuard cfg l)
    ⟨fun h => ⟨h.1, h.2⟩, fun h => ⟨h.live, h.lossless⟩⟩

/-- What the subscriber has received. -/
def received : List RelayEvent := s.bus.subs.flatMap LocalDeque.got

/-- The pump is at the end of the stream, and the queue is empty. -/
def CaughtUp : Prop :=
  (∀ n < s.bus.stream.length, ¬s.bus.Pending n) ∧ ∀ d ∈ s.bus.subs, d.queue = []

end OverRedis

/-- The Redis bus with one subscriber. -/
def overRedisSystem (cfg : RedisConfig) (old : List RawEntry) (cls : EventClass) (maxsize : ℕ) :
    System OverRedis Label where
  init s := ∃ trimmed ≤ old.length, s = OverRedis.fresh old trimmed cls maxsize
  step s l := s.step cfg l

namespace OverRedis

variable {cfg : RedisConfig} {s t : OverRedis} {l : Label}

/-- The effects of the steps. -/
inductive Move (cfg : RedisConfig) (s : OverRedis) : Label → OverRedis → Prop
  | published (e : RelayEvent) (trim : ℕ) : Move cfg s (.publish e trim)
      { bus := s.bus.xadd cfg (.fields (encodeEvent e)) trim, published := s.published ++ [e] }
  | called {lastId : Option ℕ} (hpc : s.bus.pump = .between lastId) :
      Move cfg s .call { s with bus := s.bus.call lastId }
  | answered {lastId : Option ℕ} {pos : ℕ} (hpc : s.bus.pump = .blocked lastId pos)
      (hlt : s.bus.after pos < s.bus.stream.length) :
      Move cfg s .serve { s with bus := s.bus.serveFrom pos }
  | timedOut {lastId : Option ℕ} {pos : ℕ} (hpc : s.bus.pump = .blocked lastId pos)
      (hge : ¬s.bus.after pos < s.bus.stream.length) :
      Move cfg s .timeout { s with bus := { s.bus with pump := .between lastId } }
  | handled (env : ℕ → ℕ × ℕ) {first count : ℕ} (hpc : s.bus.pump = .served first count) :
      Move cfg s (.handle env) { s with bus := s.bus.handle env first count }
  | taken (i : ℕ) : Move cfg s (.get i)
      { s with bus := { s.bus with subs := updateAt i LocalDeque.get s.bus.subs } }

/-- A step is a step of the bus. -/
lemma bus_step (h : s.step cfg l = some t) : s.bus.step cfg l = some t.bus := by
  cases l with
  | publish _ _ | call | serve | timeout | handle _ | get _ =>
      simp only [step, Option.map_eq_some_iff] at h
      obtain ⟨b, hb, rfl⟩ := h
      exact hb
  | xadd _ _ | subscribe _ _ | aclose _ | close => cases h

lemma step_move (h : s.step cfg l = some t) : Move cfg s l t := by
  cases l with
  | publish e trim =>
      cases h
      exact .published e trim
  | call =>
      simp only [step, Option.map_eq_some_iff, RedisBus.step] at h
      obtain ⟨b, hb, rfl⟩ := h
      split at hb
      · rename_i hpc
        cases hb
        exact .called hpc
      · cases hb
  | serve =>
      simp only [step, Option.map_eq_some_iff, RedisBus.step] at h
      obtain ⟨b, hb, rfl⟩ := h
      split at hb
      · rename_i hpc
        obtain ⟨hlt, hb⟩ := Option.ite_none_right_eq_some.mp hb
        cases hb
        exact .answered hpc hlt
      · cases hb
  | timeout =>
      simp only [step, Option.map_eq_some_iff, RedisBus.step] at h
      obtain ⟨b, hb, rfl⟩ := h
      split at hb
      · rename_i hpc
        obtain ⟨hge, hb⟩ := Option.ite_none_left_eq_some.mp hb
        cases hb
        exact .timedOut hpc hge
      · cases hb
  | handle env =>
      simp only [step, Option.map_eq_some_iff, RedisBus.step] at h
      obtain ⟨b, hb, rfl⟩ := h
      split at hb
      · rename_i hpc
        cases hb
        exact .handled env hpc
      · cases hb
  | get i =>
      simp only [step, Option.map_eq_some_iff, RedisBus.step] at h
      obtain ⟨b, hb, rfl⟩ := h
      obtain ⟨-, hb⟩ := Option.ite_none_right_eq_some.mp hb
      cases hb
      exact .taken i
  | xadd _ _ | subscribe _ _ | aclose _ | close => cases h

end OverRedis

/-! ### The subscriber gets nothing but what was published -/

variable {env : ℕ → ℕ × ℕ} {published : List RelayEvent} {old : List RawEntry} {d : LocalDeque}

/-- What every `offer` of an entry keeps, a response keeps. -/
lemma receive_induction {P : LocalDeque → Prop} : ∀ {l : List RawEntry} {n : ℕ} {d : LocalDeque},
    (∀ raw ∈ l, ∀ n uuid now e d, raw.read uuid now = .ok e → d.topic.matches e = true → P d →
      P (d.offer n e)) → P d → P (d.receive env l n)
  | [], _, _, _, hd => hd
  | raw :: rest, n, d, h, hd => by
      have hrest : ∀ raw ∈ rest, ∀ n uuid now e d, raw.read uuid now = .ok e →
          d.topic.matches e = true → P d → P (d.offer n e) :=
        fun r hr => h r (List.mem_cons_of_mem _ hr)
      rw [LocalDeque.receive]
      split
      · rename_i e he
        refine receive_induction hrest ?_
        split
        · rename_i hm
          exact h raw List.mem_cons_self n _ _ e d he hm hd
        · exact hd
      · exact receive_induction hrest hd

/-- What holds of the subscriber in every run. -/
structure FedDeque (cls : EventClass) (old : List RawEntry) (published : List RelayEvent)
    (d : LocalDeque) : Prop where
  topic : d.topic = .cls cls
  opened : d.closed = false
  registered : d.registered = old.length
  source : ∀ e ∈ d.got ++ d.queue, ∃ p ∈ published, Concerns cls p ∧ e = decoded p

lemma FedDeque.offer (hf : FedDeque cls old published d) {p : RelayEvent} (hp : p ∈ published)
    (hc : Concerns cls p) (n : ℕ) : FedDeque cls old published (d.offer n (decoded p)) := by
  rw [LocalDeque.offer]
  split
  · exact hf
  · refine ⟨hf.topic, hf.opened, hf.registered, fun e he => ?_⟩
    have he : e ∈ d.got ++ (d.queue ++ [decoded p]) := he
    rw [← List.append_assoc] at he
    rcases List.mem_append.mp he with he | he
    · exact hf.source e he
    · exact ⟨p, hp, hc, List.mem_singleton.mp he⟩

/-- A response of published entries. -/
lemma FedDeque.receive (hf : FedDeque cls old published d) {l : List RawEntry}
    (hl : ∀ raw ∈ l, ∃ p ∈ published, raw = .fields (encodeEvent p)) (n : ℕ) :
    FedDeque cls old published (d.receive env l n) := by
  refine receive_induction (fun raw hraw n uuid now e d he hm hd => ?_) hf
  obtain ⟨p, hp, rfl⟩ := hl raw hraw
  have hread := read_published p uuid now
  rw [hread] at he
  cases he
  refine hd.offer hp ?_ n
  rwa [matches_read hread, hd.topic, wantsEntry_iff] at hm

/-- What holds in every run. -/
structure Fed (cls : EventClass) (old : List RawEntry) (s : OverRedis) : Prop where
  stream : s.bus.stream = old ++ s.published.map fun e => .fields (encodeEvent e)
  /-- the pump is past what was there before -/
  ahead : old.length ≤ s.bus.handled
  cursor : ∀ lastId pos, s.bus.pump = .blocked lastId pos → ∀ p ∈ lastId, old.length ≤ p
  opened : s.bus.closed = false
  sub : ∃ d, s.bus.subs = [d] ∧ FedDeque cls old s.published d

variable {cfg : RedisConfig} {s t : OverRedis} {b b' : RedisBus}

lemma Fed.move (hf : Fed cls old s) (hstream : b'.stream = s.bus.stream)
    (hh : old.length ≤ b'.handled)
    (hcur : ∀ lastId pos, b'.pump = .blocked lastId pos → ∀ p ∈ lastId, old.length ≤ p)
    (hc : b'.closed = s.bus.closed) (hs : b'.subs = s.bus.subs) : Fed cls old { s with bus := b' } :=
  ⟨hstream.trans hf.stream, hh, hcur, hc.trans hf.opened, hs ▸ hf.sub⟩

lemma Fed.le_length (hf : Fed cls old s) : old.length ≤ s.bus.stream.length := by
  rw [hf.stream, List.length_append]
  exact Nat.le_add_right _ _

/-- A response has published entries only. -/
lemma Fed.batch (hf : Fed cls old s) {first count : ℕ} (hpc : s.bus.pump = .served first count) :
    ∀ raw ∈ s.bus.batch first count, ∃ p ∈ s.published, raw = .fields (encodeEvent p) := by
  intro raw hraw
  have hfirst : old.length ≤ first := by
    have hahead := hf.ahead
    rwa [RedisBus.handled, hpc] at hahead
  have hdrop : raw ∈ s.bus.stream.drop first := List.mem_of_mem_take hraw
  rw [hf.stream, List.drop_append, List.drop_eq_nil_of_le hfirst, List.nil_append] at hdrop
  obtain ⟨p, hp, rfl⟩ := List.mem_map.mp (List.mem_of_mem_drop hdrop)
  exact ⟨p, hp, rfl⟩

lemma fed_fresh (old : List RawEntry) (trimmed : ℕ) (cls : EventClass) (maxsize : ℕ) :
    Fed cls old (OverRedis.fresh old trimmed cls maxsize) := by
  refine ⟨(List.append_nil old).symm, le_rfl, fun _ _ h => ?_, rfl, _, rfl, rfl, rfl, rfl,
    fun e he => ?_⟩
  · cases h
  · cases he

lemma Fed.publish (hf : Fed cls old s) (e : RelayEvent) (trim : ℕ) :
    Fed cls old { bus := s.bus.xadd cfg (.fields (encodeEvent e)) trim
                  published := s.published ++ [e] } := by
  obtain ⟨d, hd, hfd⟩ := hf.sub
  refine ⟨?_, hf.ahead.trans RedisBus.handled_xadd.1, hf.cursor, hf.opened, d, hd, hfd.topic,
    hfd.opened, hfd.registered, fun x hx => ?_⟩
  · show s.bus.stream ++ [.fields (encodeEvent e)] = _
    rw [hf.stream, List.map_append, List.append_assoc]
    rfl
  · obtain ⟨p, hp, hrest⟩ := hfd.source x hx
    exact ⟨p, List.mem_append_left _ hp, hrest⟩

/-- The next `XREAD` does not go back. -/
lemma Fed.call (hf : Fed cls old s) {lastId : Option ℕ} (hpc : s.bus.pump = .between lastId) :
    Fed cls old { s with bus := s.bus.call lastId } := by
  have hpos : old.length ≤ lastId.getD s.bus.stream.length := by
    have hahead := hf.ahead
    rw [RedisBus.handled, hpc] at hahead
    cases lastId with
    | none => exact hf.le_length
    | some pos => exact hahead
  rw [RedisBus.call, if_neg (by simp [hf.opened])]
  dsimp only
  split
  · exact hf.move rfl (hpos.trans (le_max_left _ _)) (fun _ _ h => by cases h) rfl rfl
  · refine hf.move rfl hpos (fun _ _ h p hp => ?_) rfl rfl
    cases h
    obtain rfl : lastId = some p := hp
    exact hpos

/-- A response brings what was published. -/
lemma Fed.handle (hf : Fed cls old s) {first count : ℕ} (hpc : s.bus.pump = .served first count)
    (env : ℕ → ℕ × ℕ) : Fed cls old { s with bus := s.bus.handle env first count } := by
  have hread : ∀ raw ∈ s.bus.batch first count, raw.crashes = false := fun raw hraw => by
    obtain ⟨p, -, rfl⟩ := hf.batch hpc raw hraw
    exact (read_ok (read_published p 0 0)).1
  have hahead := hf.ahead
  rw [RedisBus.handled, hpc] at hahead
  obtain ⟨d, hd, hfd⟩ := hf.sub
  rw [RedisBus.handle, fanBatch_eq hread, hd]
  refine ⟨hf.stream, hahead.trans (Nat.le_add_right _ _), fun _ _ h => ?_, hf.opened, _, rfl,
    hfd.receive (hf.batch hpc) first⟩
  cases h

lemma Fed.get (hf : Fed cls old s) (i : ℕ) :
    Fed cls old { s with bus := { s.bus with subs := updateAt i LocalDeque.get s.bus.subs } } := by
  obtain ⟨d, hd, hfd⟩ := hf.sub
  have hget : FedDeque cls old s.published d.get := by
    refine ⟨?_, ?_, ?_, fun e he => hfd.source e (RedisBus.get_append d ▸ he)⟩
    · rw [LocalDeque.get]
      split
      · exact hfd.topic
      · exact hfd.topic
    · rw [LocalDeque.get]
      split
      · exact hfd.opened
      · exact hfd.opened
    · rw [LocalDeque.get]
      split
      · exact hfd.registered
      · exact hfd.registered
  refine ⟨hf.stream, hf.ahead, hf.cursor, hf.opened, if 0 = i then d.get else d, ?_, ?_⟩
  · show updateAt i LocalDeque.get s.bus.subs = _
    rw [hd]
    rfl
  · split
    · exact hget
    · exact hfd

/-- **Every step keeps it.** -/
lemma Fed.step {l : Label} (hf : Fed cls old s) (h : s.step cfg l = some t) : Fed cls old t := by
  have hpos : ∀ {lastId pos}, s.bus.pump = .blocked lastId pos → old.length ≤ pos := fun hpc => by
    have hahead := hf.ahead
    rwa [RedisBus.handled, hpc] at hahead
  cases OverRedis.step_move h with
  | published e trim => exact hf.publish e trim
  | called hpc => exact hf.call hpc
  | answered hpc hlt =>
      exact hf.move rfl ((hpos hpc).trans (le_max_left _ _)) (fun _ _ h => by cases h) rfl rfl
  | @timedOut lastId pos hpc hge =>
      refine hf.move rfl ?_ (fun _ _ h => by cases h) rfl rfl
      rw [RedisBus.handled]
      cases lastId with
      | none => exact hf.le_length
      | some p => exact hf.cursor (some p) pos hpc p rfl
  | handled env hpc => exact hf.handle hpc env
  | taken i => exact hf.get i

variable {maxsize : ℕ} {ok : OverRedis → Label → Prop}

lemma fed_of_via (h : (overRedisSystem cfg old cls maxsize).ReachableVia ok s) : Fed cls old s := by
  refine h.invariant (fun s hs => ?_) fun _ _ _ hf _ hs => hf.step hs
  obtain ⟨trimmed, -, rfl⟩ := hs
  exact fed_fresh old trimmed cls maxsize

/-! ### Who keeps up gets all that concerns it -/

/-- The subscription was live when the first event was published. -/
structure Live (old : List RawEntry) (s : OverRedis) : Prop where
  kept : s.bus.Kept
  unread : s.bus.firstRead = none → s.published = []
  read : ∀ f ∈ s.bus.firstRead, f ≤ old.length

/-- Every step in which the subscriber keeps up keeps it. -/
lemma Live.step {l : Label} (hl : Live old s) (hf : Fed cls old s) (hok : s.KeepsUp cfg l)
    (h : s.step cfg l = some t) : Live old t := by
  have hkept : t.bus.Kept := hl.kept.step hok.lossless (OverRedis.bus_step h)
  have hmove : t.bus.firstRead = s.bus.firstRead → t.published = s.published → Live old t :=
    fun hr hp => ⟨hkept, fun h => hp.trans (hl.unread (hr ▸ h)), fun f hf => hl.read f (hr ▸ hf)⟩
  cases OverRedis.step_move h with
  | published e trim =>
      refine ⟨hkept, fun h => ?_, hl.read⟩
      have hlive := hok.live rfl
      have h : s.bus.firstRead = none := h
      rw [h] at hlive
      cases hlive
  | @called lastId hpc =>
      have hread : (s.bus.call lastId).firstRead
          = some (s.bus.firstRead.getD s.bus.stream.length) := by
        rw [RedisBus.call, if_neg (by simp [hf.opened])]
        dsimp only
        split
        · rfl
        · rfl
      refine ⟨hkept, fun h => ?_, fun f hf' => ?_⟩
      · rw [hread] at h
        cases h
      · rw [hread] at hf'
        cases hf'
        cases hfirst : s.bus.firstRead with
        | some f => exact hl.read f hfirst
        | none =>
            show s.bus.stream.length ≤ old.length
            rw [hf.stream, hl.unread hfirst, List.map_nil, List.append_nil]
  | answered hpc hlt => exact hmove rfl rfl
  | timedOut hpc hge => exact hmove rfl rfl
  | @handled env first count hpc =>
      refine hmove ?_ rfl
      show (s.bus.handle env first count).firstRead = _
      rw [RedisBus.handle]
      split
      · rfl
      · rfl
  | taken i => exact hmove rfl rfl

/-- The runs in which the subscriber keeps up. -/
abbrev OverRedis.Runs (cfg : RedisConfig) (old : List RawEntry) (cls : EventClass) (maxsize : ℕ)
    (s : OverRedis) : Prop :=
  (overRedisSystem cfg old cls maxsize).ReachableVia (fun s l => s.KeepsUp cfg l) s

lemma live_of_runs (h : OverRedis.Runs cfg old cls maxsize s) : Live old s := by
  refine h.invariant_of (fun _ => fed_of_via) (fun s hs => ?_) fun _ _ _ hf hl hok hs =>
    hl.step hf hok hs
  obtain ⟨trimmed, ht, rfl⟩ := hs
  have hvia : (redisSystem cfg).ReachableVia (fun b l => b.PumpGuard cfg l)
      (RedisBus.fresh old trimmed) := .init ⟨old, trimmed, ht, rfl⟩
  exact ⟨(kept_of_via hvia).subscribe rfl _ _, fun _ => rfl, fun f hf => by cases hf⟩

/-- **What concerns the subscriber reaches it**, as what it comes back as. -/
theorem decoded_mem_received (h : OverRedis.Runs cfg old cls maxsize s) (hc : s.CaughtUp)
    {e : RelayEvent} (he : e ∈ s.published) (hcon : Concerns cls e) : decoded e ∈ s.received := by
  have hf := fed_of_via h
  have hl := live_of_runs h
  obtain ⟨d, hd, hfd⟩ := hf.sub
  have hmem : d ∈ s.bus.subs := hd ▸ List.mem_singleton_self d
  obtain ⟨i, hi⟩ := List.mem_iff_getElem?.mp he
  have hentry : s.bus.stream[old.length + i]? = some (.fields (encodeEvent e)) := by
    rw [hf.stream, List.getElem?_append_right (Nat.le_add_right _ _), Nat.add_sub_cancel_left,
      List.getElem?_map, hi]
    rfl
  have howed : s.bus.Owed d (old.length + i) := by
    refine ⟨hfd.registered.trans_le (Nat.le_add_right _ _), ?_, ?_⟩
    · cases hfirst : s.bus.firstRead with
      | none =>
          rw [hl.unread hfirst] at he
          cases he
      | some f => exact decide_eq_true ((hl.read f hfirst).trans (Nat.le_add_right _ _))
    · rw [hentry, Option.any_some, hfd.topic, wantsEntry_iff]
      exact hcon
  have hserved := served_of_kept (hl.kept.deques d hmem)
  have hcount := hserved.once hfd.opened _ howed
  rw [if_neg (hc.1 _ howed.lt)] at hcount
  obtain ⟨x, hx, hplace⟩ := List.mem_map.mp (List.count_pos_iff.mp (hcount ▸ Nat.one_pos))
  obtain ⟨raw, hget, -, uuid, now, hread⟩ := hserved.sound x hx
  rw [hplace, hentry] at hget
  cases hget
  rw [read_published] at hread
  have hput : decoded e ∈ d.put.map Prod.snd :=
    List.mem_map.mpr ⟨x, hx, (Except.ok.inj hread).symm⟩
  rw [hserved.queued, hc.2 d hmem, List.append_nil] at hput
  exact List.mem_flatMap.mpr ⟨d, hmem, hput⟩

/-- It gets nothing else. -/
lemma source_of_received (hf : Fed cls old s) {e : RelayEvent} (he : e ∈ s.received) :
    ∃ p ∈ s.published, Concerns cls p ∧ e = decoded p := by
  obtain ⟨d, hd, hfd⟩ := hf.sub
  rw [OverRedis.received, hd, List.flatMap_singleton] at he
  exact hfd.source e (List.mem_append_left _ he)

/-! ### The two buses -/

/-- **When the buses agree.**  Of the same publications, a subscriber that keeps up receives the same
events from both buses if and only if none of them concerns it; it then receives nothing. -/
theorem backends_agree_iff {blocks hasStore : Bool} {size : ℕ} {m : InProcess} {r : OverRedis}
    (hm : InProcess.Runs blocks hasStore cls size m) (hmc : m.CaughtUp)
    (hr : (overRedisSystem cfg old cls maxsize).ReachableVia
      (fun r l => Broad cls → r.KeepsUp cfg l) r) (hrc : Broad cls → r.CaughtUp)
    (hpub : r.published = m.published) :
    r.received = m.received ↔ ∀ e ∈ m.published, ¬Concerns cls e := by
  have hfed : Fed cls old r := fed_of_via hr
  have hreceived : m.received = m.published.filter fun e => e.cls = cls :=
    InProcess.received_eq hm hmc
  have hall : Broad cls → ∀ e ∈ m.published, decoded e ∈ r.received := fun hb e he =>
    decoded_mem_received (hr.mono fun _ _ hok => hok hb) (hrc hb) (hpub ▸ he) (Or.inr hb)
  constructor
  · intro heq e he hcon
    have hsource : ∀ x ∈ m.received, ∃ p, x = decoded p := fun x hx => by
      obtain ⟨p, -, -, hx⟩ := source_of_received hfed (heq ▸ hx)
      exact ⟨p, hx⟩
    by_cases hrep : cls = .replayedEvent
    · -- what came back was published itself, and so on
      have hnil : m.published = [] := eq_nil_of_decoded_mem fun e he => by
        have hmem := hall (Or.inr hrep) e he
        rw [heq, hreceived] at hmem
        exact List.mem_of_mem_filter hmem
      rw [hnil] at he
      cases he
    · have hnone : m.received = [] := List.eq_nil_iff_forall_not_mem.mpr fun x hx => by
        obtain ⟨p, rfl⟩ := hsource x hx
        rw [hreceived] at hx
        exact hrep (of_decide_eq_true (List.mem_filter.mp hx).2).symm
      rcases hcon with hcls | hrel | h
      · have hmem : e ∈ m.received := by
          rw [hreceived]
          exact List.mem_filter.mpr ⟨he, decide_eq_true hcls⟩
        rw [hnone] at hmem
        cases hmem
      · have hmem := hall (Or.inl hrel) e he
        rw [heq, hnone] at hmem
        cases hmem
      · exact hrep h
  · intro hno
    have hr : r.received = [] := List.eq_nil_iff_forall_not_mem.mpr fun x hx => by
      obtain ⟨p, hp, hcon, -⟩ := source_of_received hfed hx
      exact hno p (hpub ▸ hp) hcon
    have hm : m.received = [] := by
      rw [hreceived, List.filter_eq_nil_iff]
      exact fun e he hcls => hno e he (Or.inl (of_decide_eq_true hcls))
    rw [hr, hm]

/-- A session has failed. -/
def failed : RelayEvent :=
  { eventId := 8, occurredAt := 4, tier := .durable
    body := .typed .sessionStateChanged (by decide)
      [("session_id", .str "s1"), ("from_state", .str "running"), ("to_state", .str "failed"),
        ("reason", .str "")] }

/-- The subscriber asks for an event, and one is published. -/
def inProcessRun (e : RelayEvent) : List InProcessLabel := [.next, .publish e]

/-- The same over Redis. -/
def overRedisRun (e : RelayEvent) : List Label :=
  [.call, .publish e 0, .serve, .handle fun _ => (0, 0)]

/-- A creation does not concern a subscriber to changes of the state. -/
theorem backends_agree_of_created : ∃ m r,
    (inProcessSystem true false .sessionStateChanged 1000).checkedRun (fun s l => s.KeepsUp l)
      (.fresh .sessionStateChanged 1000) (inProcessRun created) = some m ∧
    (overRedisSystem {} [] .sessionStateChanged 1000).checkedRun
      (fun s l => Broad .sessionStateChanged → s.KeepsUp {} l)
      (.fresh [] 0 .sessionStateChanged 1000) (overRedisRun created) = some r ∧
    m.published = [created] ∧ r.received = m.received := by
  obtain ⟨m, hm, hmc, hmp⟩ : ∃ m,
      (inProcessSystem true false .sessionStateChanged 1000).checkedRun (fun s l => s.KeepsUp l)
        (.fresh .sessionStateChanged 1000) (inProcessRun created) = some m ∧
      m.CaughtUp ∧ m.published = [created] := ⟨_, rfl, ⟨rfl, rfl⟩, rfl⟩
  obtain ⟨r, hr, hrp⟩ : ∃ r,
      (overRedisSystem {} [] .sessionStateChanged 1000).checkedRun
        (fun s l => Broad .sessionStateChanged → s.KeepsUp {} l)
        (.fresh [] 0 .sessionStateChanged 1000) (overRedisRun created) = some r ∧
      r.published = [created] := ⟨_, rfl, rfl⟩
  have hfar : ∀ e ∈ m.published, ¬Concerns .sessionStateChanged e := by
    rw [hmp]
    decide
  exact ⟨m, r, hm, hr, hmp, (backends_agree_iff (.of_checkedRun (.init rfl) hm) hmc
    (.of_checkedRun (.init ⟨0, le_rfl, rfl⟩) hr) (fun h => absurd h (by decide))
    (hrp.trans hmp.symm)).mpr hfar⟩

/-- What the `FailureSubscriber` does not skip. -/
def failureHandles (l : List RelayEvent) : List RelayEvent :=
  l.filter fun e => e.isinstance .sessionStateChanged

/-- A session fails: in process the `FailureSubscriber` handles it, over Redis it skips it. -/
theorem backends_differ : ∃ m r,
    InProcess.Runs true false .sessionStateChanged 1000 m ∧ m.CaughtUp ∧
    OverRedis.Runs {} [] .sessionStateChanged 1000 r ∧ r.CaughtUp ∧
    m.published = [failed] ∧ r.published = [failed] ∧ m.received = [failed] ∧
    r.received = [decoded failed] ∧ (decoded failed).cls = .replayedEvent ∧
    failureHandles m.received = [failed] ∧ failureHandles r.received = [] := by
  obtain ⟨m, hm, hmc, hmp, hmr⟩ : ∃ m,
      (inProcessSystem true false .sessionStateChanged 1000).checkedRun (fun s l => s.KeepsUp l)
        (.fresh .sessionStateChanged 1000) (inProcessRun failed ++ [.wake]) = some m ∧
      m.CaughtUp ∧ m.published = [failed] ∧ m.received = [failed] :=
    ⟨_, rfl, ⟨rfl, rfl⟩, rfl, rfl⟩
  obtain ⟨r, hr, hrc, hrp, hrr⟩ : ∃ r,
      (overRedisSystem {} [] .sessionStateChanged 1000).checkedRun (fun s l => s.KeepsUp {} l)
        (.fresh [] 0 .sessionStateChanged 1000) (overRedisRun failed ++ [.get 0]) = some r ∧
      r.CaughtUp ∧ r.published = [failed] ∧ r.received = [decoded failed] := by
    refine ⟨_, rfl, ⟨?_, ?_⟩, rfl, rfl⟩
    · decide
    · decide
  refine ⟨m, r, .of_checkedRun (.init rfl) hm, hmc, .of_checkedRun (.init ⟨0, le_rfl, rfl⟩) hr, hrc,
    hmp, hrp, hmr, hrr, rfl, ?_, ?_⟩
  · rw [hmr]
    rfl
  · rw [hrr]
    rfl

end GgRelay.Cluster
