import GgRelay.Cluster.RedisBus

/-!
What one response of Redis brings to the local subscribers.

* `Topic.wants` says which entries a subscriber is to get, `wanted` what it gets out of a response;
* `fanBatch_eq` takes the loop of the pump apart into its subscribers, `receive_of_room` says that
  one with room gets all it wants.
-/

namespace GgRelay.Cluster

open Wire

/-- The subscriber is to get the event of an entry with this class name. -/
def Topic.wants (topic : Topic) (typeName : String) : Bool :=
  match topic with
  | .name s =>
      s = EventBus.wildcard || EventClass.replayedEvent.name = s || typeName = s
  | .cls c => EventClass.replayedEvent = c || c = .relayEvent || typeName = c.name

/-- The subscriber is to get this entry. -/
def Topic.wantsEntry (topic : Topic) (raw : RawEntry) : Bool := raw.typeName?.any topic.wants

/-- What reading an entry yields is a match for those that want the entry. -/
lemma matches_read {topic : Topic} {raw : RawEntry} {uuid now : ℕ} {e : RelayEvent}
    (h : raw.read uuid now = .ok e) : topic.matches e = topic.wantsEntry raw := by
  obtain ⟨-, name, sessionId, payload, hname, hbody⟩ := read_ok h
  obtain ⟨eventId, occurredAt, tier, body⟩ := e
  have hbody : body = .replayed name sessionId payload 0 := hbody
  subst hbody
  rw [Topic.wantsEntry, hname, Option.any_some]
  cases topic with
  | cls c => rfl
  | name s => rfl

lemma not_wantsEntry_of_error {topic : Topic} {raw : RawEntry} {uuid now : ℕ} {err : ReadError}
    (h : raw.read uuid now = .error err) : topic.wantsEntry raw = false := by
  rw [Topic.wantsEntry, (read_error h).1, Option.any_none]

/-- What a subscriber to `topic` gets out of the entry at this place. -/
def pick (env : ℕ → ℕ × ℕ) (topic : Topic) (x : RawEntry × ℕ) : Option (ℕ × RelayEvent) :=
  match x.1.read (env x.2).1 (env x.2).2 with
  | .ok e => if topic.matches e then some (x.2, e) else none
  | .error _ => none

/-- What it gets out of these entries, from the entry `n` on. -/
def wanted (env : ℕ → ℕ × ℕ) (topic : Topic) (l : List RawEntry) (n : ℕ) : List (ℕ × RelayEvent) :=
  (l.zipIdx n).filterMap (pick env topic)

/-- What a response does to one subscriber. -/
def LocalDeque.receive (env : ℕ → ℕ × ℕ) : List RawEntry → ℕ → LocalDeque → LocalDeque
  | [], _, d => d
  | raw :: rest, n, d =>
      match raw.read (env n).1 (env n).2 with
      | .ok e => receive env rest (n + 1) (if d.topic.matches e then d.offer n e else d)
      | .error _ => receive env rest (n + 1) d

variable {env : ℕ → ℕ × ℕ} {topic : Topic} {l : List RawEntry} {n : ℕ} {d : LocalDeque}

/-- The pump serves its subscribers independently of each other. -/
lemma fanBatch_eq : ∀ {l : List RawEntry} {n : ℕ} {subs : List LocalDeque},
    (∀ raw ∈ l, raw.crashes = false) →
    fanBatch env l n subs = (subs.map (LocalDeque.receive env l n), false)
  | [], n, subs, _ => by
      simp only [fanBatch, LocalDeque.receive, List.map_id']
  | raw :: rest, n, subs, h => by
      have hrest : ∀ raw ∈ rest, raw.crashes = false := fun r hr => h r (List.mem_cons_of_mem _ hr)
      rw [fanBatch]
      cases hr : raw.read (env n).1 (env n).2 with
      | ok e =>
          simp only [fanBatch_eq hrest, fanout, List.map_map, LocalDeque.receive, hr]
          rfl
      | error err =>
          have hc : err.crashes = false := by
            rw [← (read_error hr).2]
            exact h raw List.mem_cons_self
          simp only [hc, fanBatch_eq hrest, LocalDeque.receive, hr]
          rfl

lemma receive_of_closed : ∀ {l : List RawEntry} {n : ℕ}, d.closed = true →
    d.receive env l n = d
  | [], _, _ => rfl
  | raw :: rest, n, h => by
      have hoffer : ∀ e, d.offer n e = d := fun e => by simp [LocalDeque.offer, h]
      rw [LocalDeque.receive]
      split
      · rw [hoffer, ite_self]
        exact receive_of_closed h
      · exact receive_of_closed h

lemma wanted_cons_some {raw : RawEntry} {y : ℕ × RelayEvent} (h : pick env topic (raw, n) = some y) :
    wanted env topic (raw :: l) n = y :: wanted env topic l (n + 1) := by
  rw [wanted, List.zipIdx_cons, List.filterMap_cons_some h]
  rfl

lemma wanted_cons_none {raw : RawEntry} (h : pick env topic (raw, n) = none) :
    wanted env topic (raw :: l) n = wanted env topic l (n + 1) := by
  rw [wanted, List.zipIdx_cons, List.filterMap_cons_none h]
  rfl

/-- A subscriber with room for it gets all it wants. -/
lemma receive_of_room : ∀ {l : List RawEntry} {n : ℕ} {d : LocalDeque}, d.closed = false →
    (d.maxsize = 0 ∨ d.queue.length + (wanted env d.topic l n).length ≤ d.maxsize) →
    d.receive env l n = { d with
      queue := d.queue ++ (wanted env d.topic l n).map Prod.snd
      put := d.put ++ wanted env d.topic l n }
  | [], _, d, _, _ => by
      simp [LocalDeque.receive, wanted]
  | raw :: rest, n, d, hd, hroom => by
      rw [LocalDeque.receive]
      cases hr : raw.read (env n).1 (env n).2 with
      | error err =>
          have hcons : wanted env d.topic (raw :: rest) n = wanted env d.topic rest (n + 1) :=
            wanted_cons_none (by simp [pick, hr])
          rw [hcons] at hroom ⊢
          exact receive_of_room hd hroom
      | ok e =>
          by_cases hm : d.topic.matches e = true
          · have hcons : wanted env d.topic (raw :: rest) n
                = (n, e) :: wanted env d.topic rest (n + 1) :=
              wanted_cons_some (by simp [pick, hr, hm])
            rw [hcons, List.length_cons] at hroom
            have hfull : d.full = false := by
              rw [LocalDeque.full]
              rcases hroom with h0 | hle
              · simp [h0]
              · have hlt : ¬d.maxsize ≤ d.queue.length := by omega
                simp [hlt]
            have hoffer : d.offer n e
                = { d with queue := d.queue ++ [e], put := d.put ++ [(n, e)] } := by
              rw [LocalDeque.offer, hd, hfull]
              rfl
            simp only [hm, if_true, hoffer, hcons]
            have hih := receive_of_room (l := rest) (n := n + 1)
              (d := { d with queue := d.queue ++ [e], put := d.put ++ [(n, e)] }) hd
              (hroom.imp id fun h => by
                show (d.queue ++ [e]).length + (wanted env d.topic rest (n + 1)).length ≤ d.maxsize
                rw [List.length_append, List.length_singleton]
                omega)
            rw [hih]
            simp
          · have hcons : wanted env d.topic (raw :: rest) n = wanted env d.topic rest (n + 1) :=
              wanted_cons_none (by simp [pick, hr, hm])
            rw [hcons] at hroom ⊢
            simp only [hm]
            exact receive_of_room hd hroom

lemma pick_eq_some {x : RawEntry × ℕ} {y : ℕ × RelayEvent} :
    pick env topic x = some y ↔ y.1 = x.2 ∧ x.1.read (env x.2).1 (env x.2).2 = .ok y.2 ∧
      topic.wantsEntry x.1 = true := by
  obtain ⟨m, e'⟩ := y
  rw [pick]
  cases hr : x.1.read (env x.2).1 (env x.2).2 with
  | error err => simp
  | ok e =>
      rw [← matches_read hr]
      simp only [Option.ite_none_right_eq_some, Option.some.injEq, Prod.mk.injEq, Except.ok.injEq]
      constructor
      · rintro ⟨hm, rfl, rfl⟩
        exact ⟨rfl, rfl, hm⟩
      · rintro ⟨rfl, rfl, hm⟩
        exact ⟨hm, rfl, rfl⟩

/-- What is in there: the events of the entries that match. -/
lemma mem_wanted {y : ℕ × RelayEvent} : y ∈ wanted env topic l n ↔ n ≤ y.1 ∧ ∃ raw,
    l[y.1 - n]? = some raw ∧ raw.read (env y.1).1 (env y.1).2 = .ok y.2 ∧
      topic.wantsEntry raw = true := by
  rw [wanted, List.mem_filterMap]
  constructor
  · rintro ⟨⟨raw, m⟩, hx, hp⟩
    obtain ⟨hm, hread, hw⟩ := pick_eq_some.mp hp
    obtain ⟨hle, hget⟩ := List.mem_zipIdx_iff_le_and_getElem?_sub.mp hx
    have hm : y.1 = m := hm
    subst hm
    exact ⟨hle, raw, hget, hread, hw⟩
  · rintro ⟨hle, raw, hget, hread, hw⟩
    exact ⟨(raw, y.1), List.mem_zipIdx_iff_le_and_getElem?_sub.mpr ⟨hle, hget⟩,
      pick_eq_some.mpr ⟨rfl, hread, hw⟩⟩

/-- It comes in the order of the stream. -/
lemma wanted_sorted : ((wanted env topic l n).map Prod.fst).Pairwise (· < ·) := by
  have hplaces : (l.zipIdx n).Pairwise fun x y => x.2 < y.2 := by
    rw [← List.pairwise_map, List.zipIdx_map_snd]
    exact List.pairwise_lt_range'
  rw [List.pairwise_map, wanted, List.pairwise_filterMap]
  refine hplaces.imp fun hlt y hy z hz => ?_
  rw [(pick_eq_some.mp hy).1, (pick_eq_some.mp hz).1]
  exact hlt

lemma length_wanted : (wanted env topic l n).length ≤ l.countP topic.wantsEntry := by
  have hpick : ∀ x, (pick env topic x).isSome = true → topic.wantsEntry x.1 = true := by
    intro x hx
    obtain ⟨y, hy⟩ := Option.isSome_iff_exists.mp hx
    exact (pick_eq_some.mp hy).2.2
  calc (wanted env topic l n).length
      = (l.zipIdx n).countP (fun x => (pick env topic x).isSome) :=
        List.length_filterMap_eq_countP
    _ ≤ (l.zipIdx n).countP (fun x => topic.wantsEntry x.1) :=
        List.countP_mono_left fun x _ hx => hpick x hx
    _ = l.countP topic.wantsEntry := by
        conv_rhs => rw [← List.zipIdx_map_fst n l, List.countP_map]
        rfl

end GgRelay.Cluster
