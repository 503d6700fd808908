import GgRelay.Core.Line

/-!
What a subscriber loses, and what its counters say about it (`EventBus._dispatch`).

* `Sub.Accounted` balances the log of a subscriber against its queue and its two counters;
* `DropGuard` is the condition on runs: an overflow without a wait does not evict a durable event,
  and a wait that times out ends on a full queue with a durable event at its head;
* `losses_accounted` is the result, `lossy_overflow_evicts_durable` a run in which a durable event
  is lost without being counted.
-/

namespace GgRelay.EventBus

/-! ### One subscriber -/

/-- An append to this queue evicts a durable event. -/
def Sub.evictsDurable (t : Sub) : Bool := t.full && t.items.head?.any Event.durable

/-- Two events of one publisher are in the order they were published. -/
def InOrder (e e' : Event) : Prop := e.publisher = e'.publisher → e.number < e'.number

/-- The log of a subscriber is balanced by its queue and its counters. -/
structure Sub.Accounted (t : Sub) : Prop where
  fits : t.items.length ≤ t.maxsize
  total : t.appended.length = t.delivered.length + t.items.length + t.dropped
  order : (t.delivered ++ t.items).Sublist t.appended
  durable : t.appended.countP Event.durable
    = t.delivered.countP Event.durable + t.items.countP Event.durable + t.durableDropped

namespace Sub

variable {e : Event} {t t' : Sub}

lemma accounted_new (t : Sub) (hi : t.items = []) (ha : t.appended = []) (hd : t.delivered = [])
    (h : t.dropped = 0) (h' : t.durableDropped = 0) : t.Accounted where
  fits := by simp [hi]
  total := by simp [hi, ha, hd, h]
  order := by simp [hi, ha, hd]
  durable := by simp [hi, ha, hd, h']

/-- An append, with or without an eviction. -/
lemma push_cases (h : t.push e = some t') :
    t.items.length < t.maxsize ∧
        t' = { t with items := t.items ++ [e], waker := true, appended := t.appended ++ [e] } ∨
      ∃ x rest, t.full = true ∧ t.items = x :: rest ∧ t' = { t with
        items := rest ++ [e], dropped := t.dropped + 1, waker := true
        appended := t.appended ++ [e] } := by
  rw [push] at h
  split at h
  · rename_i hfull
    split at h
    · rename_i x rest hitems
      cases h
      exact Or.inr ⟨x, rest, hfull, hitems, rfl⟩
    · cases h
  · rename_i hfull
    cases h
    exact Or.inl ⟨by simpa [full] using hfull, rfl⟩

/-- A queue with a durable event at its head accepts an append. -/
lemma push_of_evictsDurable (h : t.evictsDurable = true) : t.push e ≠ none := by
  intro hnone
  rw [push] at hnone
  split at hnone
  · split at hnone
    · cases hnone
    · rename_i hitems
      simp [evictsDurable, hitems] at h
  · cases hnone

namespace Accounted

/-- The iterator hands out the head of the queue. -/
lemma pop (ha : t.Accounted) {x : Event} {items : List Event} (hx : t.items = x :: items)
    (hi : t'.items = items) (hd : t'.delivered = t.delivered ++ [x])
    (happ : t'.appended = t.appended) (hm : t'.maxsize = t.maxsize) (h : t'.dropped = t.dropped)
    (h' : t'.durableDropped = t.durableDropped) : t'.Accounted := by
  obtain ⟨hfits, htotal, horder, hdurable⟩ := ha
  rw [hx] at hfits htotal horder hdurable
  refine ⟨?_, ?_, ?_, ?_⟩
  · rw [hi, hm]
    exact Nat.le_of_succ_le hfits
  · rw [happ, hd, hi, h, htotal, List.length_append, List.length_cons, List.length_singleton]
    omega
  · rw [hd, hi, happ, List.append_assoc]
    exact horder
  · rw [happ, hd, hi, h', hdurable, List.countP_append, List.countP_singleton, List.countP_cons]
    omega

/-- An append balances the log, if `durableDropped` has been raised by one exactly when the append
evicts a durable event. -/
lemma push (ha : t.Accounted) {n : ℕ} (hn : n = if t.evictsDurable then 1 else 0)
    (h : { t with durableDropped := t.durableDropped + n }.push e = some t') : t'.Accounted := by
  obtain ⟨hfits, htotal, horder, hdurable⟩ := ha
  rcases push_cases h with ⟨hroom, rfl⟩ | ⟨x, rest, hfull, hitems, rfl⟩
  · have hnot : t.evictsDurable = false := by
      simp [evictsDurable, full, hroom]
    refine ⟨?_, ?_, ?_, ?_⟩
    · simpa using hroom
    · simp only [List.length_append, List.length_singleton, htotal]
      omega
    · rw [← List.append_assoc]
      exact horder.append (List.Sublist.refl _)
    · rw [hnot] at hn
      simp only [List.countP_append, hdurable, hn]
      simp only [Bool.false_eq_true, if_false]
      omega
  · have hfull : t.full = true := hfull
    have hitems : t.items = x :: rest := hitems
    have hevicts : t.evictsDurable = x.durable := by
      simp [evictsDurable, hfull, hitems]
    rw [hitems] at hfits htotal horder hdurable
    refine ⟨?_, ?_, ?_, ?_⟩
    · simpa using hfits
    · simp only [List.length_append, htotal, List.length_cons]
      omega
    · have hdrop : (t.delivered ++ rest).Sublist (t.delivered ++ x :: rest) :=
        (List.Sublist.refl _).append (List.sublist_cons_self x rest)
      show (t.delivered ++ (rest ++ [e])).Sublist (t.appended ++ [e])
      rw [← List.append_assoc]
      exact (hdrop.trans horder).append (List.Sublist.refl _)
    · rw [hevicts] at hn
      simp only [List.countP_append, List.countP_cons, hdurable, hn]
      omega

end Accounted

end Sub

/-! ### The condition -/

lemma Event.durable_topic {e : Event} (h : e.durable = true) : e.form.topic ≠ wildcard := by
  obtain ⟨number, publisher, form⟩ := e
  cases form with
  | typed cls tier => exact cls.2
  | legacy topic => simp [Event.durable, Form.tier] at h

namespace Bus

/-- The subscribers that this step appends to without having waited for `durable_block_timeout_s`:
those of an event that does not wait, and the one whose queue has been drained. -/
def unwaited (cfg : BusConfig) (b : Bus) : Label → List SubId
  | .publish _ form =>
      if b.closed = true ∨
        form.tier = .durable ∧ (cfg.hasStore = true ∨ cfg.strictDurable = true ∨ cfg.blocks = true)
      then [] else b.audience form.topic
  | .persisted p true =>
      if cfg.blocks = true then [] else
        match b.pubs p with
        | .persisting pub => b.audience pub.event.form.topic
        | _ => []
  | .resume p =>
      match b.pubs p with
      | .blocked _ _ _ s _ => [s]
      | _ => []
  | _ => []

/-- The subscriber that a publisher has waited for in vain. -/
def timesOut (b : Bus) : Label → Option SubId
  | .timeout p =>
      match b.pubs p with
      | .blocked _ _ _ s _ => some s
      | _ => none
  | _ => none

/-- The topic of a publication. -/
def topicOf : Label → Option String
  | .publish _ form => some form.topic
  | _ => none

/-- The condition on the steps of a run. -/
structure DropGuard (cfg : BusConfig) (b : Bus) (l : Label) : Prop where
  /-- nobody publishes to the wildcard itself while somebody is subscribed to it -/
  once : ∀ topic ∈ topicOf l, topic = wildcard → b.closed = true ∨ b.buckets wildcard = []
  unwaited : ∀ s ∈ b.unwaited cfg l, (b.subs s).evictsDurable = false
  timesOut : ∀ s ∈ b.timesOut l, (b.subs s).evictsDurable = true

instance (cfg : BusConfig) (b : Bus) (l : Label) : Decidable (b.DropGuard cfg l) :=
  decidable_of_iff
    ((∀ topic ∈ topicOf l, topic = wildcard → b.closed = true ∨ b.buckets wildcard = []) ∧
      (∀ s ∈ b.unwaited cfg l, (b.subs s).evictsDurable = false) ∧
      ∀ s ∈ b.timesOut l, (b.subs s).evictsDurable = true)
    ⟨fun h => ⟨h.1, h.2.1, h.2.2⟩, fun h => ⟨h.once, h.unwaited, h.timesOut⟩⟩

/-! ### Who can be suspended -/

variable {cfg : BusConfig} {b b' : Bus} {p : PubId} {pub : Publish} {s u : SubId}

/-- Only a durable event is persisted or waits. -/
structure Suspends (cfg : BusConfig) (b : Bus) : Prop where
  durable : ∀ p pub, b.busy p = some pub → pub.event.durable = true
  blocks : ∀ p pub wild pos s w, b.pubs p = .blocked pub wild pos s w → cfg.blocks = true

namespace Suspends

lemma update (hs : b.Suspends cfg) (pc : PubPc) (hb : b'.pubs = Function.update b.pubs p pc)
    (hdurable : ∀ pub, pc.publish? = some pub → pub.event.durable = true)
    (hblocks : ∀ pub wild pos s w, pc = .blocked pub wild pos s w → cfg.blocks = true) :
    b'.Suspends cfg := by
  refine ⟨fun q pub' hq => ?_, fun q pub' wild pos s w hq => ?_⟩
  · rw [busy_update hb] at hq
    by_cases hqp : q = p
    · subst hqp
      rw [Function.update_self] at hq
      exact hdurable pub' hq
    · rw [Function.update_of_ne hqp] at hq
      exact hs.durable q pub' hq
  · rw [hb] at hq
    by_cases hqp : q = p
    · subst hqp
      rw [Function.update_self] at hq
      exact hblocks pub' wild pos s w hq
    · rw [Function.update_of_ne hqp] at hq
      exact hs.blocks q pub' wild pos s w hq

lemma finish (hs : b.Suspends cfg) : (b.finish p pub).Suspends cfg :=
  hs.update .idle rfl (fun _ h => by cases h) fun _ _ _ _ _ h => by cases h

/-- A dispatch is suspended at a durable event only. -/
lemma fanout {line : List SubId} (h : Fanout cfg p pub b line b') (hs : b.Suspends cfg) :
    b'.Suspends cfg := by
  induction h with
  | done b => exact hs.finish
  | raised ht => exact hs.finish
  | @blocked b s l wild pos hw _ _ =>
      refine hs.update (.blocked pub wild pos s false) rfl (fun pub' h => ?_)
        fun _ _ _ _ _ _ => hw.2.2
      cases h
      exact hw.2.1
  | pushed hn ht _ ih => exact ih ⟨hs.durable, hs.blocks⟩

/-- **Every step keeps the invariant.** -/
lemma step {l : Label} (hs : b.Suspends cfg) (h : Move cfg b l b') : b'.Suspends cfg := by
  have hbegin : ∀ p, (b.begin p).Suspends cfg := fun p => ⟨hs.durable, hs.blocks⟩
  cases h with
  | refused hi _ => exact (hbegin _).finish
  | @persisting p form hi hc hd =>
      refine hs.update (.persisting (b.publication p form)) rfl (fun pub h => ?_)
        fun _ _ _ _ _ h => by cases h
      cases h
      exact decide_eq_true hd
  | published hi hc _ h => exact fanout h (hbegin _)
  | persisted hp h => exact fanout h hs
  | lost hp _ => exact hs.finish
  | waitedInVain hp hl ht =>
      rcases hl with ⟨-, -, rfl⟩ | ⟨-, rfl⟩
      · exact hs.finish
      · exact Suspends.finish (b := b.countDurable _) ⟨hs.durable, hs.blocks⟩
  | waited hp hl ht h =>
      rcases hl with ⟨-, -, rfl⟩ | ⟨-, rfl⟩
      · exact fanout h ⟨hs.durable, hs.blocks⟩
      · exact fanout h ⟨hs.durable, hs.blocks⟩
  | subscribed => exact ⟨hs.durable, hs.blocks⟩
  | @popped l s x items d pubs _ hx hpubs =>
      rcases hpubs with rfl | rfl
      · exact ⟨hs.durable, hs.blocks⟩
      · refine ⟨fun q pub hq => hs.durable q pub ((publish?_wake _).symm.trans hq),
          fun q pub wild pos s' w hq => ?_⟩
        change (b.pubs q).wake s = _ at hq
        cases hpc : b.pubs q with
        | idle => simp [hpc, PubPc.wake] at hq
        | persisting pub => simp [hpc, PubPc.wake] at hq
        | blocked pub wild pos s w => exact hs.blocks q pub wild pos s w hpc
  | turned _ => exact ⟨hs.durable, hs.blocks⟩
  | unsubscribed _ _ => exact ⟨hs.durable, hs.blocks⟩
  | closed =>
      rw [close]
      split
      · exact hs
      · exact ⟨hs.durable, hs.blocks⟩

end Suspends

/-! ### All subscribers -/

/-- The invariant: every log is balanced, and keeps the order of each publisher. -/
def Accounted (b : Bus) : Prop := ∀ s, (b.subs s).Accounted ∧ (b.subs s).appended.Pairwise InOrder

namespace Accounted

lemma setSub (ha : b.Accounted) {x : Sub} (hx : x.Accounted)
    (hord : x.appended.Pairwise InOrder) : (b.setSub s x).Accounted := by
  intro t
  by_cases ht : t = s
  · subst ht
    simpa using ⟨hx, hord⟩
  · simpa [ht] using ha t

/-- A change of a subscriber that leaves its queue, its log and its counters alone. -/
lemma touch (ha : b.Accounted) {x : Sub} (hi : x.items = (b.subs s).items)
    (happ : x.appended = (b.subs s).appended) (hd : x.delivered = (b.subs s).delivered)
    (hm : x.maxsize = (b.subs s).maxsize) (h : x.dropped = (b.subs s).dropped)
    (h' : x.durableDropped = (b.subs s).durableDropped) : (b.setSub s x).Accounted := by
  obtain ⟨⟨hfits, htotal, horder, hdurable⟩, hord⟩ := ha s
  refine ha.setSub ⟨?_, ?_, ?_, ?_⟩ (happ ▸ hord)
  · rwa [hi, hm]
  · rwa [happ, hd, hi, h]
  · rwa [hd, hi, happ]
  · rwa [happ, hd, hi, h']

/-- An append, to whoever is first in line. -/
lemma push (ha : b.Accounted) {line : List SubId} (hw : b.WellFormedAt p pub (s :: line))
    (htopic : pub.event.form.topic ≠ wildcard) {n : ℕ}
    (hn : n = if (b.subs s).evictsDurable then 1 else 0) {x : Sub}
    (hx : { b.subs s with durableDropped := (b.subs s).durableDropped + n }.push pub.event
      = some x) : (b.setSub s x).Accounted := by
  refine ha.setSub ((ha s).1.push hn hx) ?_
  have happ : x.appended = (b.subs s).appended ++ [pub.event] := (Sub.push_appended hx).1
  rw [happ]
  refine List.pairwise_append.mpr ⟨(ha s).2, List.pairwise_singleton _ _, fun e he e' he' => ?_⟩
  cases List.mem_singleton.mp he'
  -- a publisher has logged nothing after its publication in progress, and not that one here
  intro hpub
  have hself := Function.update_self p (some pub) b.busy
  have hnum := (hw.number p pub hself).2.2
  have hle := hw.latest s e he pub (by rw [hpub, hnum, hself])
  have hne := (hw.line p pub hself htopic).owed s (by simp) e he
  omega

/-- **A dispatch keeps the books**, if no overflow without a wait evicts a durable event. -/
lemma fanout {line : List SubId} (h : Fanout cfg p pub b line b') (hw : b.WellFormedAt p pub line)
    (ha : b.Accounted) (htopic : line ≠ [] → pub.event.form.topic ≠ wildcard)
    (hspare : ¬(pub.event.durable = true ∧ cfg.blocks = true) →
      ∀ s ∈ line, (b.subs s).evictsDurable = false) : b'.Accounted := by
  induction h with
  | done b => exact ha
  | raised ht => exact ha
  | @blocked b s l wild pos _ _ _ =>
      exact ha.touch (s := s) (x := { b.subs s with drained := false }) rfl rfl rfl rfl rfl rfl
  | @pushed b b' s l x hn hx h ih =>
      have htop : pub.event.form.topic ≠ wildcard := htopic (by simp)
      have hkeeps : (b.subs s).evictsDurable = false := by
        by_cases hfull : (b.subs s).full = true
        · exact hspare (fun hd => hn ⟨hfull, hd.1, hd.2⟩) s (by simp)
        · simp [Sub.evictsDurable, hfull]
      have hpushw := WellFormedWith.push hw (Function.update_self ..) (Function.update_self ..) hx
      rw [Function.update_idem] at hpushw
      have hline := (hw.line p pub (Function.update_self ..) htop).nodup
      rw [Function.update_self] at hline
      have hs : s ∉ l := (List.nodup_cons.mp hline).1
      refine ih hpushw (ha.push hw htop (n := 0) (by simp [hkeeps]) hx) (fun _ => htop) ?_
      intro hd t ht
      have hne : t ≠ s := fun h => hs (h ▸ ht)
      rw [setSub_subs, Function.update_of_ne hne]
      exact hspare hd t (List.mem_cons_of_mem _ ht)

/-- The subscriber that a publisher has waited for gets its event. -/
lemma waited {l : Label} {wild w : Bool} {pos : ℕ} {b₀ : Bus} {t : Sub} (hw : b.WellFormed)
    (hs : b.Suspends cfg) (ha : b.Accounted) (hok : b.DropGuard cfg l)
    (hp : b.pubs p = .blocked pub wild pos s w)
    (hl : l = .resume p ∧ w = true ∧ b₀ = b ∨ l = .timeout p ∧ b₀ = b.countDurable s)
    (ht : (b₀.subs s).push pub.event = some t) : (b₀.setSub s t).Accounted := by
  have hbusy : b.busy p = some pub := by
    rw [busy, hp]
    rfl
  have htop : pub.event.form.topic ≠ wildcard := Event.durable_topic (hs.durable p pub hbusy)
  have hat : b.WellFormedAt p pub (s :: b.rest pub wild (pos + 1)) := by
    have hat := wellFormedAt_of_busy hw hbusy
    rwa [todo, hp] at hat
  rcases hl with ⟨rfl, -, rfl⟩ | ⟨rfl, rfl⟩
  · have hkeeps := hok.unwaited s (by simp [Bus.unwaited, hp])
    exact ha.push hat htop (n := 0) (by simp [hkeeps]) ht
  · have hevicts := hok.timesOut s (by simp [Bus.timesOut, hp])
    have hset : (b.countDurable s).setSub s t = b.setSub s t := by
      simp [countDurable, Bus.setSub]
    rw [countDurable, setSub_subs, Function.update_self] at ht
    rw [hset]
    exact ha.push hat htop (n := 1) (by simp [hevicts]) ht

/-- **Every step that meets the condition keeps the books.** -/
theorem step {l : Label} (hw : b.WellFormed) (hs : b.Suspends cfg) (ha : b.Accounted)
    (hok : b.DropGuard cfg l) (h : Move cfg b l b') : b'.Accounted := by
  cases h with
  | refused hi _ => exact ha
  | persisting hi hc _ => exact ha
  | @published p form b' hi hc hd h =>
      refine fanout h (wellFormedAt_begin hw hi form) ha (fun hne htop => hne ?_) fun hnot s hm => ?_
      · have htop : form.topic = wildcard := htop
        rcases hok.once _ rfl htop with h | h
        · rw [hc] at h
          cases h
        · simp [audience, htop, h]
      · refine hok.unwaited s ?_
        rw [Bus.unwaited, if_neg]
        · exact hm
        · rintro (h | ⟨htier, h⟩)
          · rw [hc] at h
            cases h
          · obtain ⟨hstore, hstrict⟩ := hd htier
            rcases h with h | h | h
            · simp [hstore] at h
            · simp [hstrict] at h
            · exact hnot ⟨decide_eq_true htier, h⟩
  | @persisted p pub b' hp h =>
      have hbusy : b.busy p = some pub := by
        rw [busy, hp]
        rfl
      have hat := wellFormedAt_of_busy hw hbusy
      rw [todo, hp] at hat
      have hd := hs.durable p pub hbusy
      refine fanout h hat ha (fun _ => Event.durable_topic hd) fun hnot s hm => ?_
      have hblocks : cfg.blocks = false := by simpa [hd] using hnot
      exact hok.unwaited s (by simpa [Bus.unwaited, hblocks, hp] using hm)
  | lost hp _ => exact ha
  | @waitedInVain l p pub wild w pos s b₀ hp hl ht =>
      rcases hl with ⟨-, -, rfl⟩ | ⟨rfl, rfl⟩
      · exact ha
      · have hevicts := hok.timesOut s (by simp [Bus.timesOut, hp])
        rw [countDurable, setSub_subs, Function.update_self] at ht
        exact absurd ht (Sub.push_of_evictsDurable hevicts)
  | @waited l p pub wild w pos s b₀ b' t hp hl ht h =>
      have hacc := ha.waited hw hs hok hp hl ht
      have hbusy : b.busy p = some pub := by
        rw [busy, hp]
        rfl
      have hd := hs.durable p pub hbusy
      have hblocks := hs.blocks p pub wild pos s w hp
      have hpushw := WellFormedWith.push (wellFormedAt_waited hw hp hl) (Function.update_self ..)
        (Function.update_self ..) ht
      rw [Function.update_idem] at hpushw
      exact fanout h hpushw hacc (fun _ => Event.durable_topic hd)
        fun hnot => absurd ⟨hd, hblocks⟩ hnot
  | @subscribed topic maxsize =>
      exact ha.setSub (s := b.nextSub) (Sub.accounted_new _ rfl rfl rfl rfl rfl) List.Pairwise.nil
  | @popped l s x items d pubs _ hx hpubs =>
      exact ha.setSub ((ha s).1.pop hx rfl rfl rfl rfl rfl rfl) (ha s).2
  | turned _ => exact ha.touch rfl rfl rfl rfl rfl rfl
  | unsubscribed _ _ => exact ha.touch rfl rfl rfl rfl rfl rfl
  | closed =>
      rw [close]
      split
      · exact ha
      · intro s
        by_cases hs : s ∈ b.buckets (b.subs s).topic
        · simp only [hs, if_true]
          exact ⟨⟨(ha s).1.fits, (ha s).1.total, (ha s).1.order, (ha s).1.durable⟩, (ha s).2⟩
        · simp only [hs, if_false]
          exact ha s

end Accounted

end Bus

/-! ### The result -/

variable {cfg : BusConfig} {b : Bus}

lemma suspends_of_via {ok : Bus → Label → Prop} (h : (busSystem cfg).ReachableVia ok b) :
    b.Suspends cfg := by
  refine h.invariant (fun _ hb => ?_) fun _ _ _ hs _ hstep => hs.step (Bus.step_move hstep)
  cases hb
  refine ⟨fun p pub hp => ?_, fun p pub wild pos s w hp => ?_⟩
  · cases hp
  · cases hp

/-- **The losses of a subscriber are accounted for**, as long as no overflow without a wait evicts a
durable event and every wait that times out makes room by evicting one. -/
theorem losses_accounted (h : (busSystem cfg).ReachableVia (fun b l => b.DropGuard cfg l) b)
    (s : SubId) :
    (b.subs s).items.length ≤ (b.subs s).maxsize ∧
      (b.subs s).appended.length
        = (b.subs s).delivered.length + (b.subs s).items.length + (b.subs s).dropped ∧
      (b.subs s).delivered.Pairwise InOrder ∧
      (b.subs s).appended.countP Event.durable
        = (b.subs s).delivered.countP Event.durable + (b.subs s).items.countP Event.durable
          + (b.subs s).durableDropped := by
  have hwell : b.WellFormed := wellFormed_of_via h
  have hacc : b.Accounted := by
    refine h.invariant_of (J := fun b => b.WellFormed ∧ b.Suspends cfg)
      (fun _ hr => ⟨wellFormed_of_via hr, suspends_of_via hr⟩) (fun _ hb => ?_)
      fun _ _ _ hJ ha hok hs => ha.step hJ.1 hJ.2 hok (Bus.step_move hs)
    cases hb
    exact fun _ => ⟨Sub.accounted_new _ rfl rfl rfl rfl rfl, List.Pairwise.nil⟩
  obtain ⟨⟨hfits, htotal, horder, hdurable⟩, hord⟩ := hacc s
  have hdelivered : ((b.subs s).delivered).Sublist (b.subs s).appended :=
    (List.sublist_append_left _ _).trans horder
  exact ⟨hfits, htotal, hord.sublist hdelivered, hdurable⟩

/-! ### A durable event is lost -/

/-- Two durable events for a subscriber with room for one, which handles neither in time. -/
def durableOverflow : List Label :=
  [.subscribe "*" 1, .publish 0 stateChanged, .publish 0 stateChanged, .timeout 0]

/-- A durable event, and then another event, for a subscriber with room for one. -/
def lossyOverflow : List Label := [.subscribe "*" 1, .publish 0 stateChanged, .publish 0 outputChunk]

/-- The durable event that is lost is counted. -/
theorem losses_accounted_durableOverflow :
    ∃ b, (busSystem {}).checkedRun (fun b l => b.DropGuard {} l) Bus.fresh durableOverflow = some b ∧
      (b.subs 0).durableDropped = 1 ∧
      (b.subs 0).appended.countP Event.durable
        = (b.subs 0).delivered.countP Event.durable + (b.subs 0).items.countP Event.durable
          + (b.subs 0).durableDropped := by
  have hrun : ((busSystem {}).checkedRun (fun b l => b.DropGuard {} l) Bus.fresh
      durableOverflow).any (fun b => (b.subs 0).durableDropped = 1) = true := by decide
  obtain ⟨b, hs, he⟩ := (Option.any_eq_true _ _).mp hrun
  exact ⟨b, hs, of_decide_eq_true he,
    (losses_accounted (.of_checkedRun (.init rfl) hs) 0).2.2.2⟩

/-- The durable event in the queue makes room for the other one, and is not counted. -/
theorem lossy_overflow_evicts_durable :
    ∃ b, (busSystem {}).run Bus.fresh lossyOverflow = some b ∧
      (b.subs 0).appended.countP Event.durable = 1 ∧
      (b.subs 0).delivered.countP Event.durable = 0 ∧
      (b.subs 0).items.countP Event.durable = 0 ∧ (b.subs 0).durableDropped = 0 := by
  refine ⟨_, rfl, ?_⟩
  decide

end GgRelay.EventBus
