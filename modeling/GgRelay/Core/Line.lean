import GgRelay.Core.Fanout

/-!
Who is in line for a publication.

* `pending_subscribe` and `mem_rest_unsubscribe` say what comings and goings do to the list of
  subscribers a suspended publisher still has to serve;
* `Bus.WellFormed` ties the publications in progress to the logs of the subscribers: whoever a
  publisher still has to serve has not been given the event;
* `WellFormed.step` is its preservation, `WellFormed.push`, `finish` and `wellFormedAt_begin`
  are the pieces of a dispatch.
-/

namespace GgRelay.EventBus

/-- An append adds to the log. -/
lemma Sub.push_appended {e : Event} {s t : Sub} (h : s.push e = some t) :
    t.appended = s.appended ++ [e] ∧ t.topic = s.topic := by
  rw [Sub.push] at h
  split at h
  · split at h
    · cases h
      exact ⟨rfl, rfl⟩
    · cases h
  · cases h
    exact ⟨rfl, rfl⟩

lemma Sub.push_maxsize {e : Event} {s t : Sub} (h : s.push e = some t) :
    t.maxsize = s.maxsize := by
  rw [Sub.push] at h
  split at h
  · split at h
    · cases h
      rfl
    · cases h
  · cases h
    rfl

/-! ### What the list of the others does to those in line -/

namespace Bus

variable {cfg : BusConfig} {b b' : Bus} {p : PubId} {pub : Publish} {u s t : SubId}
  {wild : Bool} {n : ℕ}

@[simp] lemma setSub_subs (x : Sub) :
    (b.setSub s x).subs = Function.update b.subs s x := rfl

@[simp] lemma setSub_buckets (x : Sub) : (b.setSub s x).buckets = b.buckets := rfl

@[simp] lemma setSub_pubs (x : Sub) : (b.setSub s x).pubs = b.pubs := rfl

lemma rest_congr (h : b'.buckets = b.buckets) : b'.rest pub wild n = b.rest pub wild n := by
  cases wild <;> simp [rest, h]

lemma pending_congr (h : b'.buckets = b.buckets) (pc : PubPc) : b'.pending pc = b.pending pc := by
  cases pc with
  | idle => rfl
  | persisting pub => simp [pending, audience, h]
  | blocked pub wild pos s w => simp [pending, rest_congr h]

lemma pending_wake (pc : PubPc) : b.pending (pc.wake s) = b.pending pc := by
  cases pc <;> rfl

lemma buckets_unsubscribe (k : String) :
    (b.unsubscribe u).buckets k
      = if k = (b.subs u).topic then (b.buckets k).erase u else b.buckets k := by
  by_cases h : k = (b.subs u).topic
  · simp [unsubscribe, h]
  · simp [unsubscribe, h]

/-- Nobody new comes up when somebody leaves. -/
lemma buckets_unsubscribe_drop (k : String) :
    (((b.unsubscribe u).buckets k).drop n).Sublist ((b.buckets k).drop n) := by
  rw [buckets_unsubscribe]
  split
  · exact drop_erase_sublist _ _ _
  · exact List.Sublist.refl _

lemma rest_unsubscribe : ((b.unsubscribe u).rest pub wild n).Sublist (b.rest pub wild n) := by
  cases wild with
  | true => exact buckets_unsubscribe_drop _
  | false =>
      refine (buckets_unsubscribe_drop _).append ?_
      simpa using buckets_unsubscribe_drop (b := b) (u := u) (n := 0) wildcard

lemma audience_unsubscribe {topic : String} :
    ((b.unsubscribe u).audience topic).Sublist (b.audience topic) := by
  refine List.Sublist.append ?_ ?_
  · simpa using buckets_unsubscribe_drop (b := b) (u := u) (n := 0) topic
  · simpa using buckets_unsubscribe_drop (b := b) (u := u) (n := 0) wildcard

lemma pending_unsubscribe (pc : PubPc) :
    ((b.unsubscribe u).pending pc).Sublist (b.pending pc) := by
  cases pc with
  | idle => exact List.Sublist.refl _
  | persisting pub => exact audience_unsubscribe
  | blocked pub wild pos s w => exact rest_unsubscribe.cons_cons s

/-- Whoever is in line stays in line when somebody else leaves, unless he is next and the other
one was behind the publisher. -/
lemma mem_rest_unsubscribe (ht : t ∈ b.rest pub wild n) (hne : t ≠ u) :
    t ∈ (b.unsubscribe u).rest pub wild n ∨
      u ∈ (b.buckets (pub.key wild)).take n ∧ (b.buckets (pub.key wild))[n]? = some t := by
  have hdrop : ∀ k, t ∈ (b.buckets k).drop n → t ∈ ((b.unsubscribe u).buckets k).drop n ∨
      u ∈ (b.buckets k).take n ∧ (b.buckets k)[n]? = some t := by
    intro k hk
    rw [buckets_unsubscribe]
    split
    · exact mem_drop_erase hk hne
    · exact Or.inl hk
  cases wild with
  | true => exact hdrop _ ht
  | false =>
      rcases List.mem_append.mp ht with ht | ht
      · exact (hdrop _ ht).imp (List.mem_append_left _) id
      · refine Or.inl (List.mem_append_right _ ?_)
        rw [buckets_unsubscribe]
        split
        · exact (List.mem_erase_of_ne hne).mpr ht
        · exact ht

lemma buckets_subscribe (topic k : String) (maxsize : ℕ) :
    (b.subscribe topic maxsize).buckets k
      = b.buckets k ++ if k = topic then [b.nextSub] else [] := by
  by_cases h : k = topic
  · subst h
    simp [subscribe]
  · simp [subscribe, h]

/-- A newcomer gets in line at the end of a bucket, or not at all. -/
lemma pending_subscribe {pc : PubPc} (hpub : pc.publish? = some pub)
    (htopic : pub.event.form.topic ≠ wildcard) (topic : String) (maxsize : ℕ) :
    ∃ a c d, b.pending pc = a ++ d ∧ c.Sublist [b.nextSub] ∧
      (b.subscribe topic maxsize).pending pc = a ++ c ++ d := by
  have hone : ∀ k, (if k = topic then [b.nextSub] else []).Sublist [b.nextSub] := by
    intro k
    split <;> simp
  cases pc with
  | idle => cases hpub
  | persisting pub' =>
      cases hpub
      by_cases hk : wildcard = topic
      · refine ⟨b.audience pub.event.form.topic, [b.nextSub], [], by simp [pending], by simp, ?_⟩
        have hne : pub.event.form.topic ≠ topic := hk ▸ htopic
        simp [pending, audience, buckets_subscribe, hk, hne]
      · refine ⟨_, _, b.buckets wildcard, rfl, hone pub.event.form.topic, ?_⟩
        simp [pending, audience, buckets_subscribe, hk]
  | blocked pub' wild pos s w =>
      cases hpub
      cases wild with
      | true =>
          refine ⟨_, _, [], (List.append_nil _).symm,
            (List.drop_sublist (pos + 1 - (b.buckets wildcard).length) _).trans
              (hone wildcard), ?_⟩
          simp [pending, rest, buckets_subscribe, List.drop_append]
      | false =>
          by_cases hk : wildcard = topic
          · refine ⟨_, [b.nextSub], [], (List.append_nil _).symm, by simp, ?_⟩
            have hne : pub.event.form.topic ≠ topic := hk ▸ htopic
            simp [pending, rest, buckets_subscribe, hk, hne]
          · refine ⟨s :: (b.buckets pub.event.form.topic).drop (pos + 1), _,
              b.buckets wildcard, rfl,
              (List.drop_sublist (pos + 1 - (b.buckets pub.event.form.topic).length) _).trans
                (hone pub.event.form.topic), ?_⟩
            simp [pending, rest, buckets_subscribe, hk, List.drop_append]

lemma mem_pending_subscribe {pc : PubPc} {topic : String} {maxsize : ℕ}
    (h : t ∈ (b.subscribe topic maxsize).pending pc) : t ∈ b.pending pc ∨ t = b.nextSub := by
  have hbucket : ∀ {k n}, t ∈ ((b.subscribe topic maxsize).buckets k).drop n →
      t ∈ (b.buckets k).drop n ∨ t = b.nextSub := by
    intro k n hk
    rw [buckets_subscribe, List.drop_append] at hk
    refine (List.mem_append.mp hk).imp id fun hk => ?_
    have hk := List.mem_of_mem_drop hk
    split at hk
    · exact List.mem_singleton.mp hk
    · cases hk
  have hwild : t ∈ (b.subscribe topic maxsize).buckets wildcard →
      t ∈ b.buckets wildcard ∨ t = b.nextSub := fun hm => by
    simpa using hbucket (k := wildcard) (n := 0) (by simpa using hm)
  cases pc with
  | idle => cases h
  | persisting pub =>
      rcases List.mem_append.mp h with h | h
      · have h := hbucket (k := pub.event.form.topic) (n := 0) (by simpa using h)
        exact h.imp (fun h => List.mem_append_left _ (by simpa using h)) id
      · exact (hwild h).imp (List.mem_append_right _) id
  | blocked pub wild pos s w =>
      rcases List.mem_cons.mp h with rfl | h
      · exact Or.inl List.mem_cons_self
      · refine Or.imp (List.mem_cons_of_mem _) id ?_
        cases wild with
        | true => exact hbucket h
        | false =>
            rcases List.mem_append.mp h with h | h
            · exact (hbucket h).imp (List.mem_append_left _) id
            · exact (hwild h).imp (List.mem_append_right _) id

/-! ### Publications and logs -/

/-- The subscribers in line for an event have not been given it. -/
structure InLine (b : Bus) (pub : Publish) (line : List SubId) : Prop where
  nodup : line.Nodup
  owed : ∀ s ∈ line, ∀ e ∈ (b.subs s).appended, e.number ≠ pub.event.number

/-- The publication of each publisher. -/
def busy (b : Bus) (p : PubId) : Option Publish := (b.pubs p).publish?

/-- Who is in line for each publisher. -/
def todo (b : Bus) (p : PubId) : List SubId := b.pending (b.pubs p)

/-- What holds of the publications in progress, given by `busy` and `todo`, and of the logs. -/
structure WellFormedWith (b : Bus) (busy : PubId → Option Publish) (todo : PubId → List SubId) :
    Prop where
  nodup : ∀ k, (b.buckets k).Nodup
  bucket : ∀ k, ∀ s ∈ b.buckets k, s < b.nextSub ∧ (b.subs s).topic = k
  logged : ∀ s, ∀ e ∈ (b.subs s).appended, e.number < b.nextEvent
  unused : ∀ s, b.nextSub ≤ s → (b.subs s).appended = []
  number : ∀ p pub, busy p = some pub →
    p < b.nextPub ∧ pub.event.number < b.nextEvent ∧ pub.event.publisher = p
  before : ∀ p pub, busy p = some pub → ∀ s ∈ pub.before, s < b.nextSub
  distinct : ∀ p q pub pub', busy p = some pub → busy q = some pub' →
    pub.event.number = pub'.event.number → p = q
  /-- a publisher has logged nothing after its publication in progress -/
  latest : ∀ s, ∀ e ∈ (b.subs s).appended, ∀ pub, busy e.publisher = some pub →
    e.number ≤ pub.event.number
  past : ∀ r ∈ b.ended, r.pub.event.number < b.nextEvent ∧
    (∀ s ∈ r.pub.before, s < b.nextSub) ∧
    ∀ p pub, busy p = some pub → pub.event.number ≠ r.pub.event.number
  known : ∀ p, ∀ s ∈ todo p, s < b.nextSub
  line : ∀ p pub, busy p = some pub → pub.event.form.topic ≠ wildcard → b.InLine pub (todo p)

/-- The invariant of the bus. -/
def WellFormed (b : Bus) : Prop := b.WellFormedWith b.busy b.todo

/-- The invariant while `p` dispatches without a pause, with `line` to go. -/
def WellFormedAt (b : Bus) (p : PubId) (pub : Publish) (line : List SubId) : Prop :=
  b.WellFormedWith (Function.update b.busy p (some pub)) (Function.update b.todo p line)

lemma wellFormed_fresh : fresh.WellFormed where
  nodup _ := List.nodup_nil
  bucket _ _ h := by cases h
  logged _ _ h := by cases h
  unused _ _ := rfl
  number _ _ h := by cases h
  before _ _ h := by cases h
  distinct _ _ _ _ h := by cases h
  latest _ _ h := by cases h
  past _ h := by cases h
  known _ _ h := by cases h
  line _ _ h := by cases h

namespace WellFormedWith

variable {busy : PubId → Option Publish} {todo : PubId → List SubId}

/-- A step that touches neither the logs nor the topics of the subscribers. -/
lemma congr (hw : b.WellFormedWith busy todo) (hsubs : ∀ s,
      (b'.subs s).appended = (b.subs s).appended ∧ (b'.subs s).topic = (b.subs s).topic)
    (hb : b'.buckets = b.buckets) (hs : b'.nextSub = b.nextSub) (hp : b'.nextPub = b.nextPub)
    (he : b'.nextEvent = b.nextEvent) (hd : b'.ended = b.ended) :
    b'.WellFormedWith busy todo where
  nodup k := hb ▸ hw.nodup k
  bucket k s h := by
    rw [hs, (hsubs s).2]
    exact hw.bucket k s (hb ▸ h)
  logged s e h := he ▸ hw.logged s e ((hsubs s).1 ▸ h)
  unused s h := (hsubs s).1.trans (hw.unused s (hs ▸ h))
  number p pub h := by
    rw [hp, he]
    exact hw.number p pub h
  before p pub h s hm := hs ▸ hw.before p pub h s hm
  distinct := hw.distinct
  latest s e h := hw.latest s e ((hsubs s).1 ▸ h)
  past r h := by
    rw [he, hs]
    exact hw.past r (hd ▸ h)
  known p s h := hs ▸ hw.known p s h
  line p pub h ht := by
    obtain ⟨hn, ho⟩ := hw.line p pub h ht
    exact ⟨hn, fun s hm e hem => ho s hm e ((hsubs s).1 ▸ hem)⟩

/-- An append, to whoever is first in line. -/
lemma push (hw : b.WellFormedWith busy todo) (hp : busy p = some pub) {line : List SubId}
    (htodo : todo p = s :: line) {x : Sub} (hx : (b.subs s).push pub.event = some x) :
    (b.setSub s x).WellFormedWith busy (Function.update todo p line) := by
  obtain ⟨happ, htop⟩ := Sub.push_appended hx
  obtain ⟨-, hlt, hpub⟩ := hw.number p pub hp
  have hs : s < b.nextSub := hw.known p s (htodo ▸ List.mem_cons_self)
  have hsubs : ∀ t, ((b.setSub s x).subs t).topic = (b.subs t).topic := by
    intro t
    by_cases ht : t = s
    · subst ht
      simpa using htop
    · simp [ht]
  -- what is in a log after the append
  have hlog : ∀ t, ∀ e ∈ ((b.setSub s x).subs t).appended,
      e ∈ (b.subs t).appended ∨ t = s ∧ e = pub.event := by
    intro t e he
    by_cases ht : t = s
    · subst ht
      rw [setSub_subs, Function.update_self, happ, List.mem_append, List.mem_singleton] at he
      exact he.imp id fun he => ⟨rfl, he⟩
    · rw [setSub_subs, Function.update_of_ne ht] at he
      exact Or.inl he
  refine ⟨hw.nodup, fun k t ht => ?_, fun t e he => ?_, fun t ht => ?_, hw.number, hw.before,
    hw.distinct, fun t e he pub' hpub' => ?_, hw.past, fun q t ht => ?_, fun q pub' hq ht => ?_⟩
  · rw [hsubs]
    exact hw.bucket k t ht
  · rcases hlog t e he with he | ⟨-, rfl⟩
    · exact hw.logged t e he
    · exact hlt
  · have hne : t ≠ s := fun h => absurd hs (by subst h; exact not_lt.mpr ht)
    rw [setSub_subs, Function.update_of_ne hne]
    exact hw.unused t ht
  · rcases hlog t e he with he | ⟨-, rfl⟩
    · exact hw.latest t e he pub' hpub'
    · rw [hpub, hp] at hpub'
      cases hpub'
      exact le_rfl
  · by_cases hqp : q = p
    · subst hqp
      rw [Function.update_self] at ht
      exact hw.known q t (htodo ▸ List.mem_cons_of_mem _ ht)
    · rw [Function.update_of_ne hqp] at ht
      exact hw.known q t ht
  · by_cases hqp : q = p
    · subst hqp
      rw [hp] at hq
      cases hq
      rw [Function.update_self]
      obtain ⟨hn, ho⟩ := hw.line _ _ hp ht
      rw [htodo] at hn ho
      obtain ⟨hns, hn⟩ := List.nodup_cons.mp hn
      refine ⟨hn, fun t hm e he => ?_⟩
      rcases hlog t e he with he | ⟨rfl, -⟩
      · exact ho t (List.mem_cons_of_mem _ hm) e he
      · exact absurd hm hns
    · rw [Function.update_of_ne hqp]
      obtain ⟨hn, ho⟩ := hw.line q pub' hq ht
      refine ⟨hn, fun t hm e he => ?_⟩
      rcases hlog t e he with he | ⟨-, rfl⟩
      · exact ho t hm e he
      · exact fun h => hqp (hw.distinct q p pub' pub hq hp h.symm)

/-- The end of a publication. -/
lemma finish (hw : b.WellFormedWith busy todo) (hp : busy p = some pub) :
    (b.finish p pub).WellFormedWith (Function.update busy p none) (Function.update todo p []) := by
  have hother : ∀ {q pub'}, Function.update busy p none q = some pub' →
      q ≠ p ∧ busy q = some pub' := by
    intro q pub' h
    by_cases hqp : q = p
    · subst hqp
      simp at h
    · exact ⟨hqp, by simpa [hqp] using h⟩
  refine ⟨hw.nodup, hw.bucket, hw.logged, hw.unused, fun q pub' h => hw.number q pub' (hother h).2,
    fun q pub' h => hw.before q pub' (hother h).2,
    fun q q' pub₁ pub₂ h₁ h₂ => hw.distinct q q' pub₁ pub₂ (hother h₁).2 (hother h₂).2,
    fun t e he pub' h => hw.latest t e he pub' (hother h).2, fun r hr => ?_, fun q t ht => ?_,
    fun q pub' h ht => ?_⟩
  · rcases List.mem_cons.mp hr with rfl | hr
    · refine ⟨(hw.number p pub hp).2.1, hw.before p pub hp, fun q pub' h heq => ?_⟩
      exact (hother h).1 (hw.distinct q p pub' pub (hother h).2 hp heq)
    · obtain ⟨hlt, hb, hne⟩ := hw.past r hr
      exact ⟨hlt, hb, fun q pub' h => hne q pub' (hother h).2⟩
  · by_cases hqp : q = p
    · subst hqp
      simp at ht
    · rw [Function.update_of_ne hqp] at ht
      exact hw.known q t ht
  · rw [Function.update_of_ne (hother h).1]
    obtain ⟨hn, ho⟩ := hw.line q pub' (hother h).2 ht
    exact ⟨hn, ho⟩

end WellFormedWith

/-- One publisher is suspended somewhere else. -/
lemma busy_update {pc : PubPc} (h : b'.pubs = Function.update b.pubs p pc) :
    b'.busy = Function.update b.busy p pc.publish? := by
  funext q
  by_cases hq : q = p
  · subst hq
    simp [busy, h]
  · simp [busy, h, hq]

lemma todo_update {pc : PubPc} (h : b'.pubs = Function.update b.pubs p pc)
    (hb : b'.buckets = b.buckets) : b'.todo = Function.update b.todo p (b.pending pc) := by
  funext q
  rw [todo, pending_congr hb, h]
  by_cases hq : q = p
  · subst hq
    simp
  · simp [hq, todo]

/-- A change of one subscriber that leaves its log alone. -/
lemma WellFormedWith.setSub {busy : PubId → Option Publish} {todo : PubId → List SubId}
    (hw : b.WellFormedWith busy todo) {x : Sub} (ha : x.appended = (b.subs s).appended)
    (ht : x.topic = (b.subs s).topic) : (b.setSub s x).WellFormedWith busy todo := by
  refine hw.congr (fun t => ?_) rfl rfl rfl rfl rfl
  by_cases h : t = s
  · subst h
    simp [ha, ht]
  · simp [h]

/-- A publisher that is suspended with those in line still to serve. -/
lemma wellFormed_suspend {pc : PubPc} {line : List SubId} (hw : b.WellFormedAt p pub line)
    (hpub : pc.publish? = some pub) (hline : b.pending pc = line) :
    { b with pubs := Function.update b.pubs p pc }.WellFormed := by
  have hbusy : busy { b with pubs := Function.update b.pubs p pc } =
      Function.update b.busy p pc.publish? := busy_update rfl
  have htodo : todo { b with pubs := Function.update b.pubs p pc } =
      Function.update b.todo p (b.pending pc) := todo_update rfl rfl
  rw [WellFormed, hbusy, htodo, hpub, hline]
  exact WellFormedWith.congr hw (fun _ => ⟨rfl, rfl⟩) rfl rfl rfl rfl rfl

lemma wellFormedAt_finish {line : List SubId} (hw : b.WellFormedAt p pub line) :
    (b.finish p pub).WellFormed := by
  have hpubs : (b.finish p pub).pubs = Function.update b.pubs p .idle := rfl
  rw [WellFormed, busy_update hpubs, todo_update hpubs rfl]
  have h := WellFormedWith.finish hw (Function.update_self ..)
  rwa [Function.update_idem, Function.update_idem] at h

/-- **A dispatch keeps the invariant.** -/
lemma Fanout.wellFormed {line : List SubId} (h : Fanout cfg p pub b line b')
    (hw : b.WellFormedAt p pub line) : b'.WellFormed := by
  induction h with
  | done b => exact wellFormedAt_finish hw
  | raised ht => exact wellFormedAt_finish hw
  | @blocked b s l wild pos _ hs hl =>
      have hpubs : (b.block p pub wild pos s).pubs
          = Function.update b.pubs p (.blocked pub wild pos s false) := rfl
      rw [WellFormed, busy_update hpubs, todo_update hpubs rfl, pending, hl]
      exact (WellFormedWith.setSub (s := s) (x := { b.subs s with drained := false }) hw rfl
        rfl).congr (fun _ => ⟨rfl, rfl⟩) rfl rfl rfl rfl rfl
  | pushed hn ht _ ih =>
      refine ih ?_
      have hpush := WellFormedWith.push hw (Function.update_self ..) (Function.update_self ..) ht
      rwa [Function.update_idem] at hpush

/-- Whoever an event is for is known, and is there once. -/
lemma WellFormedWith.audience {busy : PubId → Option Publish} {todo : PubId → List SubId}
    (hw : b.WellFormedWith busy todo) (topic : String) :
    (∀ s ∈ b.audience topic, s < b.nextSub) ∧
      (topic ≠ wildcard → (b.audience topic).Nodup) := by
  refine ⟨fun s hs => ?_, fun ht => ?_⟩
  · rcases List.mem_append.mp hs with hs | hs
    · exact (hw.bucket _ s hs).1
    · exact (hw.bucket _ s hs).1
  · refine List.nodup_append.mpr ⟨hw.nodup _, hw.nodup _, fun s hs t hs' heq => ht ?_⟩
    subst heq
    exact (hw.bucket _ s hs).2.symm.trans (hw.bucket _ s hs').2

/-- Whoever has left is not among those an event is for. -/
lemma not_mem_audience_unsubscribe (hw : b.WellFormed) {topic : String} :
    u ∉ (b.unsubscribe u).audience topic := by
  have hbucket : ∀ k, u ∉ (b.unsubscribe u).buckets k := by
    intro k hk
    rw [buckets_unsubscribe] at hk
    split at hk
    · exact (hw.nodup k).not_mem_erase hk
    · rename_i hne
      exact hne (hw.bucket k u hk).2.symm
  exact fun h => (List.mem_append.mp h).elim (hbucket _) (hbucket _)

/-- A publication begins, with everybody it is for in line. -/
lemma wellFormedAt_begin (hw : b.WellFormed) (hi : b.pubs p = .idle) (form : Form) :
    (b.begin p).WellFormedAt p (b.publication p form) (b.audience form.topic) := by
  have haud := hw.audience form.topic
  have hidle : b.busy p = none := by
    rw [busy, hi]
    rfl
  -- the publications in progress after the step
  have hbusy : ∀ {q pub'}, Function.update b.busy p (some (b.publication p form)) q = some pub' →
      q = p ∧ pub' = b.publication p form ∨ q ≠ p ∧ b.busy q = some pub' := by
    intro q pub' h
    by_cases hq : q = p
    · subst hq
      rw [Function.update_self, Option.some.injEq] at h
      exact Or.inl ⟨rfl, h.symm⟩
    · exact Or.inr ⟨hq, by rwa [Function.update_of_ne hq] at h⟩
  refine ⟨hw.nodup, hw.bucket, fun s e he => Nat.lt_succ_of_lt (hw.logged s e he), hw.unused,
    fun q pub' h => ?_, fun q pub' h => ?_, fun q q' pub₁ pub₂ h₁ h₂ heq => ?_,
    fun s e he pub' h => ?_, fun r hr => ?_, fun q s hs => ?_, fun q pub' h ht => ?_⟩
  · rcases hbusy h with ⟨rfl, rfl⟩ | ⟨-, h⟩
    · exact ⟨lt_of_lt_of_le (Nat.lt_succ_self q) (le_max_right _ _), Nat.lt_succ_self _, rfl⟩
    · obtain ⟨hq, hn, hp⟩ := hw.number q pub' h
      exact ⟨lt_of_lt_of_le hq (le_max_left _ _), Nat.lt_succ_of_lt hn, hp⟩
  · rcases hbusy h with ⟨rfl, rfl⟩ | ⟨-, h⟩
    · exact haud.1
    · exact hw.before q pub' h
  · rcases hbusy h₁ with ⟨hq, hpub⟩ | ⟨-, g₁⟩
    · rcases hbusy h₂ with ⟨hq', -⟩ | ⟨-, g₂⟩
      · exact hq.trans hq'.symm
      · subst hpub
        exact absurd heq (ne_of_gt (hw.number q' pub₂ g₂).2.1)
    · rcases hbusy h₂ with ⟨-, hpub⟩ | ⟨-, g₂⟩
      · subst hpub
        exact absurd heq (ne_of_lt (hw.number q pub₁ g₁).2.1)
      · exact hw.distinct q q' pub₁ pub₂ g₁ g₂ heq
  · rcases hbusy h with ⟨-, rfl⟩ | ⟨-, h⟩
    · exact (hw.logged s e he).le
    · exact hw.latest s e he pub' h
  · obtain ⟨hlt, hb, hne⟩ := hw.past r hr
    refine ⟨Nat.lt_succ_of_lt hlt, hb, fun q pub' h => ?_⟩
    rcases hbusy h with ⟨-, rfl⟩ | ⟨-, h⟩
    · exact ne_of_gt hlt
    · exact hne q pub' h
  · by_cases hq : q = p
    · subst hq
      rw [Function.update_self] at hs
      exact haud.1 s hs
    · rw [Function.update_of_ne hq] at hs
      exact hw.known q s hs
  · rcases hbusy h with ⟨rfl, rfl⟩ | ⟨hq, h⟩
    · rw [Function.update_self]
      exact ⟨haud.2 ht, fun s _ e he => ne_of_lt (hw.logged s e he)⟩
    · rw [Function.update_of_ne hq]
      obtain ⟨hn, ho⟩ := hw.line q pub' h ht
      exact ⟨hn, ho⟩

/-- A publisher that is suspended is about to go on with those in line. -/
lemma wellFormedAt_of_busy (hw : b.WellFormed) (hp : b.busy p = some pub) :
    b.WellFormedAt p pub (b.todo p) := by
  rw [WellFormedAt, ← hp, Function.update_eq_self, Function.update_eq_self]
  exact hw

/-- The invariant reads the suspended publishers through `busy` and `todo`. -/
lemma WellFormed.congr (hw : b.WellFormed) (hsubs : ∀ s,
      (b'.subs s).appended = (b.subs s).appended ∧ (b'.subs s).topic = (b.subs s).topic)
    (hb : b'.buckets = b.buckets) (hs : b'.nextSub = b.nextSub) (hp : b'.nextPub = b.nextPub)
    (he : b'.nextEvent = b.nextEvent) (hd : b'.ended = b.ended) (hbusy : b'.busy = b.busy)
    (htodo : b'.todo = b.todo) : b'.WellFormed := by
  rw [WellFormed, hbusy, htodo]
  exact WellFormedWith.congr hw hsubs hb hs hp he hd

lemma countDurable_subs (s t : SubId) :
    ((b.countDurable s).subs t).appended = (b.subs t).appended ∧
      ((b.countDurable s).subs t).topic = (b.subs t).topic := by
  by_cases h : t = s
  · subst h
    simp [countDurable]
  · simp [countDurable, h]

/-- A wait that is over leaves the logs alone. -/
lemma wellFormedAt_waited {l : Label} {pos : ℕ} {w : Bool} {b₀ : Bus} (hw : b.WellFormed)
    (hp : b.pubs p = .blocked pub wild pos s w)
    (hl : l = .resume p ∧ w = true ∧ b₀ = b ∨ l = .timeout p ∧ b₀ = b.countDurable s) :
    b₀.WellFormedAt p pub (s :: b.rest pub wild (pos + 1)) := by
  have hbusy : b.busy p = some pub := by
    rw [busy, hp]
    rfl
  have htodo : b.todo p = s :: b.rest pub wild (pos + 1) := by
    rw [todo, hp]
    rfl
  have hat := wellFormedAt_of_busy hw hbusy
  rw [htodo] at hat
  rcases hl with ⟨-, -, rfl⟩ | ⟨-, rfl⟩
  · exact hat
  · exact WellFormedWith.congr hat (countDurable_subs s) rfl rfl rfl rfl rfl

lemma wellFormed_subscribe (hw : b.WellFormed) (topic : String) (maxsize : ℕ) :
    (b.subscribe topic maxsize).WellFormed := by
  have hnew : ∀ t, t < b.nextSub → (b.subscribe topic maxsize).subs t = b.subs t :=
    fun t ht => Function.update_of_ne (ne_of_lt ht) _ _
  have happ : ∀ t, ((b.subscribe topic maxsize).subs t).appended = (b.subs t).appended := by
    intro t
    by_cases ht : t = b.nextSub
    · subst ht
      simp [subscribe, hw.unused _ le_rfl]
    · simp [subscribe, ht]
  have hfresh : ∀ k, b.nextSub ∉ b.buckets k := fun k h => absurd (hw.bucket k _ h).1 (lt_irrefl _)
  refine ⟨fun k => ?_, fun k s hs => ?_, fun s e he => hw.logged s e (happ s ▸ he),
    fun s hs => (happ s).trans (hw.unused s (Nat.le_of_succ_le hs)), hw.number,
    fun q pub' h s hs => Nat.lt_succ_of_lt (hw.before q pub' h s hs), hw.distinct,
    fun s e he => hw.latest s e (happ s ▸ he), fun r hr => ?_, fun q s hs => ?_,
    fun q pub' h ht => ?_⟩
  · rw [buckets_subscribe]
    refine List.nodup_append.mpr ⟨hw.nodup k, by split <;> simp, fun s hs t ht heq => ?_⟩
    split at ht
    · exact hfresh k (List.mem_singleton.mp ht ▸ heq ▸ hs)
    · cases ht
  · rw [buckets_subscribe] at hs
    rcases List.mem_append.mp hs with hs | hs
    · obtain ⟨hlt, htop⟩ := hw.bucket k s hs
      exact ⟨Nat.lt_succ_of_lt hlt, by rw [hnew s hlt, htop]⟩
    · split at hs
      · rename_i hk
        cases List.mem_singleton.mp hs
        exact ⟨Nat.lt_succ_self _, by simp [subscribe, hk]⟩
      · cases hs
  · obtain ⟨hlt, hb, hne⟩ := hw.past r hr
    exact ⟨hlt, fun s hs => Nat.lt_succ_of_lt (hb s hs), hne⟩
  · rcases mem_pending_subscribe hs with hs | rfl
    · exact Nat.lt_succ_of_lt (hw.known q s hs)
    · exact Nat.lt_succ_self _
  · obtain ⟨hn, ho⟩ := hw.line q pub' h ht
    have hpub : (b.pubs q).publish? = some pub' := h
    obtain ⟨a, c, d, hpend, hc, hpend'⟩ := pending_subscribe (b := b) hpub ht topic maxsize
    have htodo : b.todo q = a ++ d := hpend
    have htodo' : (b.subscribe topic maxsize).todo q = a ++ c ++ d := hpend'
    refine ⟨?_, fun s hs e he => ?_⟩
    · rw [htodo] at hn
      rw [htodo']
      refine nodup_insert hc hn fun hm => ?_
      exact absurd (hw.known q _ (htodo ▸ hm)) (lt_irrefl _)
    · rcases mem_pending_subscribe hs with hs | rfl
      · exact ho s hs e (happ s ▸ he)
      · rw [happ, hw.unused _ le_rfl] at he
        cases he

lemma wellFormed_unsubscribe (hw : b.WellFormed) (u : SubId) : (b.unsubscribe u).WellFormed := by
  have hsubs : ∀ s, ((b.unsubscribe u).subs s).appended = (b.subs s).appended ∧
      ((b.unsubscribe u).subs s).topic = (b.subs s).topic := by
    intro s
    by_cases hs : s = u
    · subst hs
      simp [unsubscribe]
    · simp [unsubscribe, hs]
  have hsub : ∀ q, ((b.unsubscribe u).todo q).Sublist (b.todo q) :=
    fun q => pending_unsubscribe _
  have hbucket : ∀ k, ((b.unsubscribe u).buckets k).Sublist (b.buckets k) := fun k => by
    simpa using buckets_unsubscribe_drop (b := b) (u := u) (n := 0) k
  refine ⟨fun k => (hw.nodup k).sublist (hbucket k), fun k s hs => ?_,
    fun s e he => hw.logged s e ((hsubs s).1 ▸ he), fun s hs => (hsubs s).1.trans (hw.unused s hs),
    hw.number, hw.before, hw.distinct, fun s e he => hw.latest s e ((hsubs s).1 ▸ he), hw.past,
    fun q s hs => hw.known q s ((hsub q).subset hs), fun q pub' h ht => ?_⟩
  · rw [(hsubs s).2]
    exact hw.bucket k s ((hbucket k).subset hs)
  · obtain ⟨hn, ho⟩ := hw.line q pub' h ht
    exact ⟨hn.sublist (hsub q), fun s hs e he => ho s ((hsub q).subset hs) e ((hsubs s).1 ▸ he)⟩

lemma publish?_wake (pc : PubPc) : (pc.wake s).publish? = pc.publish? := by
  cases pc <;> rfl

/-- **Every step keeps the invariant.** -/
theorem WellFormed.step {l : Label} (hw : b.WellFormed) (h : Move cfg b l b') :
    b'.WellFormed := by
  cases h with
  | refused hi _ => exact wellFormedAt_finish (wellFormedAt_begin hw hi _)
  | @persisting p form hi hc _ => exact wellFormed_suspend (wellFormedAt_begin hw hi form) rfl rfl
  | published hi hc _ h => exact h.wellFormed (wellFormedAt_begin hw hi _)
  | @persisted p pub b' hp h =>
      have hbusy : b.busy p = some pub := by
        rw [busy, hp]
        rfl
      have hat := wellFormedAt_of_busy hw hbusy
      rw [todo, hp] at hat
      exact h.wellFormed hat
  | lost hp _ => exact wellFormedAt_finish (wellFormedAt_of_busy hw hp)
  | waitedInVain hp hl ht => exact wellFormedAt_finish (wellFormedAt_waited hw hp hl)
  | waited hp hl ht h =>
      have hpush := WellFormedWith.push (wellFormedAt_waited hw hp hl) (Function.update_self ..)
        (Function.update_self ..) ht
      rw [Function.update_idem] at hpush
      exact h.wellFormed hpush
  | subscribed => exact wellFormed_subscribe hw _ _
  | @popped l s x items d pubs hs hx hpubs =>
      refine WellFormed.congr hw (fun t => ?_) rfl rfl rfl rfl rfl ?_ ?_
      · by_cases ht : t = s
        · subst ht
          simp
        · simp [ht]
      · rcases hpubs with rfl | rfl
        · rfl
        · exact funext fun q => publish?_wake _
      · rcases hpubs with rfl | rfl
        · exact funext fun q => pending_congr rfl _
        · exact funext fun q => (pending_congr rfl _).trans (pending_wake _)
  | turned hs => exact WellFormedWith.setSub hw rfl rfl
  | unsubscribed _ _ => exact wellFormed_unsubscribe hw _
  | closed =>
      rw [close]
      split
      · exact hw
      · refine WellFormed.congr hw (fun s => ?_) rfl rfl rfl rfl rfl rfl
          (funext fun q => pending_congr rfl _)
        by_cases hs : s ∈ b.buckets (b.subs s).topic
        · simp [hs]
        · simp [hs]

end Bus

lemma wellFormed_of_via {cfg : BusConfig} {b : Bus} {ok : Bus → Label → Prop}
    (h : (busSystem cfg).ReachableVia ok b) : b.WellFormed := by
  refine h.invariant (fun _ hb => ?_) fun _ _ _ hw _ hs => hw.step (Bus.step_move hs)
  cases hb
  exact Bus.wellFormed_fresh

end GgRelay.EventBus
