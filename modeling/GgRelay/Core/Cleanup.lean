import GgRelay.Core.Line

/-!
What is left of a subscriber whose iterator was closed.

* `Serves` is what a publisher does to the subscribers, `Turn` lists what a step of the bus does to
  their list and to their iterators;
* `Gone` is the state of a subscriber that was cleaned up, `Untouched` what can become of it then;
* `Leaked` is the state of one that was not: nothing takes it out of its bucket any more;
* `StartedFirst` is the condition that keeps every closed subscriber out of the buckets.
-/

namespace GgRelay.EventBus

/-- Whose iterator is used. -/
def Label.consumer : Label → Option SubId
  | .next s | .wake s | .leave s => some s
  | _ => none

namespace Bus

variable {cfg : BusConfig} {b b' b'' : Bus} {p q : PubId} {pub : Publish} {u s : SubId} {e : Event}

/-- Nobody publishes to it any more. -/
def Unlisted (b : Bus) (u : SubId) : Prop := ∀ k, u ∉ b.buckets k

/-- The publisher `q` waits for room in the queue of `u`, with this event. -/
def Awaits (b : Bus) (q : PubId) (u : SubId) (e : Event) : Prop :=
  ∃ pub wild pos w, b.pubs q = .blocked pub wild pos u w ∧ pub.event = e

/-! ### What a publisher does -/

/-- A publisher reaches those that are listed and the one it has been waiting for. -/
structure Serves (b b' : Bus) : Prop where
  buckets : b'.buckets = b.buckets
  nextSub : b'.nextSub = b.nextSub
  iter : ∀ u, (b'.subs u).iter = (b.subs u).iter
  topic : ∀ u, (b'.subs u).topic = (b.subs u).topic
  delivered : ∀ u, (b'.subs u).delivered = (b.subs u).delivered
  appended : ∀ u, b.Unlisted u → ∀ e ∈ (b'.subs u).appended,
    e ∈ (b.subs u).appended ∨ ∃ q, b.Awaits q u e
  awaits : ∀ u, b.Unlisted u → ∀ q e, b'.Awaits q u e → b.Awaits q u e

namespace Serves

lemma trans (h : b.Serves b') (h' : b'.Serves b'') : b.Serves b'' where
  buckets := h'.buckets.trans h.buckets
  nextSub := h'.nextSub.trans h.nextSub
  iter u := (h'.iter u).trans (h.iter u)
  topic u := (h'.topic u).trans (h.topic u)
  delivered u := (h'.delivered u).trans (h.delivered u)
  appended u hu e he := by
    have hu' : b'.Unlisted u := fun k => h.buckets ▸ hu k
    rcases h'.appended u hu' e he with he | ⟨q, hq⟩
    · exact h.appended u hu e he
    · exact Or.inr ⟨q, h.awaits u hu q e hq⟩
  awaits u hu q e hq := h.awaits u hu q e (h'.awaits u (fun k => h.buckets ▸ hu k) q e hq)

/-- The subscribers stay as they are, and nobody new is waited for. -/
lemma of_subs (hs : b'.subs = b.subs) (hb : b'.buckets = b.buckets) (hn : b'.nextSub = b.nextSub)
    (hw : ∀ u q e, b'.Awaits q u e → b.Awaits q u e) : b.Serves b' :=
  ⟨hb, hn, fun _ => by rw [hs], fun _ => by rw [hs], fun _ => by rw [hs],
    fun u _ e he => Or.inl (by rwa [hs] at he), fun u _ => hw u⟩

/-- A publisher goes somewhere else than to a queue. -/
lemma of_update {pc : PubPc} (hs : b'.subs = b.subs) (hb : b'.buckets = b.buckets)
    (hn : b'.nextSub = b.nextSub) (hp : b'.pubs = Function.update b.pubs p pc)
    (hpc : ∀ pub wild pos s w, pc ≠ .blocked pub wild pos s w) : b.Serves b' := by
  refine of_subs hs hb hn fun u q e hq => ?_
  obtain ⟨pub, wild, pos, w, hq, he⟩ := hq
  rw [hp] at hq
  by_cases hqp : q = p
  · subst hqp
    rw [Function.update_self] at hq
    exact absurd hq (hpc pub wild pos u w)
  · rw [Function.update_of_ne hqp] at hq
    exact ⟨pub, wild, pos, w, hq, he⟩

lemma finish : b.Serves (b.finish p pub) :=
  of_update rfl rfl rfl rfl fun _ _ _ _ _ h => by cases h

lemma begin : b.Serves (b.begin p) := of_subs rfl rfl rfl fun _ _ _ h => h

/-- One subscriber gets another content, by someone who may reach it. -/
lemma setSub {x : Sub} (hi : x.iter = (b.subs s).iter) (ht : x.topic = (b.subs s).topic)
    (hd : x.delivered = (b.subs s).delivered)
    (ha : b.Unlisted s → ∀ e ∈ x.appended, e ∈ (b.subs s).appended ∨ ∃ q, b.Awaits q s e) :
    b.Serves (b.setSub s x) := by
  have hsub : ∀ t, (b.setSub s x).subs t = if t = s then x else b.subs t := fun t => by
    simp [Function.update_apply]
  refine ⟨rfl, rfl, fun t => ?_, fun t => ?_, fun t => ?_, fun t hu e he => ?_, fun _ _ _ _ h => h⟩
  · rw [hsub]
    split
    · rename_i h
      rw [h, hi]
    · rfl
  · rw [hsub]
    split
    · rename_i h
      rw [h, ht]
    · rfl
  · rw [hsub]
    split
    · rename_i h
      rw [h, hd]
    · rfl
  · rw [hsub] at he
    split at he
    · rename_i h
      subst h
      exact ha hu e he
    · exact Or.inl he

lemma push {x : Sub} (hx : (b.subs s).push e = some x)
    (hr : b.Unlisted s → ∃ q, b.Awaits q s e) : b.Serves (b.setSub s x) := by
  obtain ⟨happ, htop⟩ := Sub.push_appended hx
  have hkeep : x.iter = (b.subs s).iter ∧ x.delivered = (b.subs s).delivered := by
    rw [Sub.push] at hx
    split at hx
    · split at hx
      · cases hx
        exact ⟨rfl, rfl⟩
      · cases hx
    · cases hx
      exact ⟨rfl, rfl⟩
  refine setSub hkeep.1 htop hkeep.2 fun hu e' he' => ?_
  rw [happ] at he'
  rcases List.mem_append.mp he' with he' | he'
  · exact Or.inl he'
  · rw [List.mem_singleton.mp he']
    exact Or.inr (hr hu)

/-- A dispatch reaches those it goes through. -/
lemma fanout {line : List SubId} (h : Fanout cfg p pub b line b')
    (hl : ∀ s ∈ line, ¬b.Unlisted s) : b.Serves b' := by
  induction h with
  | done b => exact finish
  | raised _ => exact finish
  | @blocked b s l wild pos _ _ _ =>
      have hdrain : b.Serves (b.setSub s { b.subs s with drained := false }) :=
        setSub rfl rfl rfl fun _ e he => Or.inl he
      refine ⟨rfl, rfl, hdrain.iter, hdrain.topic, hdrain.delivered, hdrain.appended,
        fun t ht q e hq => ?_⟩
      obtain ⟨pub', wild', pos', w', hq, he⟩ := hq
      have hpubs : (b.block p pub wild pos s).pubs
          = Function.update b.pubs p (.blocked pub wild pos s false) := rfl
      rw [hpubs] at hq
      by_cases hqp : q = p
      · subst hqp
        rw [Function.update_self] at hq
        cases hq
        exact absurd ht (hl s List.mem_cons_self)
      · rw [Function.update_of_ne hqp] at hq
        exact ⟨pub', wild', pos', w', hq, he⟩
  | pushed _ ht _ ih =>
      refine (push ht fun hu => absurd hu (hl _ List.mem_cons_self)).trans ?_
      exact ih fun s hs => hl s (List.mem_cons_of_mem _ hs)

end Serves

lemma listed_audience {topic : String} (h : s ∈ b.audience topic) : ¬b.Unlisted s := fun hu =>
  (List.mem_append.mp h).elim (hu _) (hu _)

lemma listed_rest {wild : Bool} {pos : ℕ} (h : s ∈ b.rest pub wild pos) : ¬b.Unlisted s := by
  intro hu
  cases wild with
  | true => exact hu _ (List.mem_of_mem_drop h)
  | false =>
      rcases List.mem_append.mp h with h | h
      · exact hu _ (List.mem_of_mem_drop h)
      · exact hu _ h

lemma publish_serves {form : Form} : b.Serves (b.publish cfg p form) := by
  have hfan : (b.begin p).Serves
      ((b.begin p).dispatchTopic cfg p (b.publication p form) 0) :=
    Serves.fanout (fanout_topic rfl) fun s (hs : s ∈ (b.begin p).audience form.topic) =>
      listed_audience hs
  unfold publish
  split
  · exact Serves.begin.trans Serves.finish
  · split
    · split
      · exact .of_update rfl rfl rfl rfl fun _ _ _ _ _ h => by cases h
      · split
        · exact Serves.begin.trans Serves.finish
        · exact Serves.begin.trans hfan
    · exact Serves.begin.trans hfan

lemma afterWait_serves {wild w : Bool} {pos : ℕ} (hp : b.pubs p = .blocked pub wild pos s w) :
    b.Serves (b.afterWait cfg p pub wild pos s) := by
  rw [afterWait]
  split
  · exact Serves.finish
  · rename_i x hx
    refine (Serves.push hx fun _ => ⟨p, pub, wild, pos, w, hp, rfl⟩).trans ?_
    exact Serves.fanout fanout_rest fun t ht => listed_rest ht

lemma close_serves : b.Serves b.close := by
  have hsub : ∀ u, (b.close.subs u).iter = (b.subs u).iter ∧
      (b.close.subs u).topic = (b.subs u).topic ∧
      (b.close.subs u).delivered = (b.subs u).delivered ∧
      (b.close.subs u).appended = (b.subs u).appended := by
    intro u
    unfold close
    split
    · exact ⟨rfl, rfl, rfl, rfl⟩
    · by_cases hu : u ∈ b.buckets (b.subs u).topic
      · simp [hu]
      · simp [hu]
  have hb : b.close.buckets = b.buckets ∧ b.close.nextSub = b.nextSub ∧ b.close.pubs = b.pubs := by
    unfold close
    split
    · exact ⟨rfl, rfl, rfl⟩
    · exact ⟨rfl, rfl, rfl⟩
  refine ⟨hb.1, hb.2.1, fun u => (hsub u).1, fun u => (hsub u).2.1, fun u => (hsub u).2.2.1,
    fun u _ e he => Or.inl ((hsub u).2.2.2 ▸ he), fun u _ q e hq => ?_⟩
  rwa [Awaits, hb.2.2] at hq

/-! ### What a step does to the list of subscribers -/

/-- What a step does to the list of the subscribers and to their iterators. -/
inductive Turn (b : Bus) : Label → Bus → Prop
  | served {l : Label} {b' : Bus} (h : b.Serves b') : Turn b l b'
  | joined {topic : String} {maxsize : ℕ} :
      Turn b (.subscribe topic maxsize) (b.subscribe topic maxsize)
  /-- an iterator goes on, to a `yield` or to its `await` -/
  | moved {l : Label} {s : SubId} {x : Sub} {pubs : PubId → PubPc} (hl : l.consumer = some s)
      (hs : s < b.nextSub) (hi : (b.subs s).iter ≠ .finished) (hx : x.iter ≠ .finished)
      (ht : x.topic = (b.subs s).topic)
      (hpubs : pubs = b.pubs ∨ pubs = fun p => (b.pubs p).wake s) :
      Turn b l { b.setSub s x with pubs := pubs }
  | parted {l : Label} {s : SubId} (hl : l.consumer = some s) (hs : s < b.nextSub)
      (hi : (b.subs s).iter ≠ .finished) :
      Turn b l (b.unsubscribe s)
  | discarded {s : SubId} (hs : s < b.nextSub) (hi : (b.subs s).iter = .created) :
      Turn b (.leave s) (b.discard s)

lemma advance_turn {l : Label} (hl : l.consumer = some s) (hs : s < b.nextSub) (hi : (b.subs s).iter ≠ .finished) :
    Turn b l (b.advance s) := by
  rw [advance]
  split
  · split
    · exact .moved hl hs hi (by simp) (by rfl) (Or.inr rfl)
    · exact .moved hl hs hi (by simp) (by rfl) (Or.inl rfl)
  · split
    · exact .parted hl hs hi
    · exact .moved hl hs hi (by simp) (by rfl) (Or.inl rfl)

/-- **Every step of the bus is a `Turn`.** -/
theorem step_turn {l : Label} (h : b.step cfg l = some b') : Turn b l b' := by
  cases l with
  | publish p form =>
      rw [step] at h
      split at h
      · simp only [Option.ite_none_right_eq_some, Option.some.injEq] at h
        exact .served (h.2 ▸ publish_serves)
      · cases h
  | persisted p ok =>
      rw [step] at h
      split at h
      · cases h
        cases ok with
        | true =>
            exact .served (Serves.fanout (fanout_topic rfl) fun s hs => listed_audience hs)
        | false => exact .served Serves.finish
      · cases h
  | resume p =>
      rw [step] at h
      split at h
      · rename_i hp
        cases h
        exact .served (afterWait_serves hp)
      · cases h
  | timeout p =>
      rw [step] at h
      split at h
      · rename_i s w hp
        cases h
        have hcount : b.Serves (b.countDurable s) :=
          Serves.setSub rfl rfl rfl fun _ e he => Or.inl he
        exact .served (hcount.trans (afterWait_serves hp))
      · cases h
  | cancel p =>
      rw [step] at h
      split at h
      · cases h
        exact .served Serves.finish
      · cases h
        exact .served Serves.finish
      · cases h
  | subscribe topic maxsize =>
      cases h
      exact .joined
  | next s =>
      simp only [step, Option.ite_none_right_eq_some, Option.some.injEq] at h
      obtain ⟨⟨hs, hi⟩, rfl⟩ := h
      refine advance_turn rfl hs fun hf => ?_
      rcases hi with hi | hi
      · rw [hf] at hi
        cases hi
      · rw [hf] at hi
        cases hi
  | wake s =>
      simp only [step, Option.ite_none_right_eq_some, Option.some.injEq] at h
      obtain ⟨⟨hs, hi, -⟩, rfl⟩ := h
      refine advance_turn rfl hs fun hf => ?_
      rw [hf] at hi
      cases hi
  | leave s =>
      simp only [step, Option.ite_none_right_eq_some] at h
      obtain ⟨hs, h⟩ := h
      split at h
      · rename_i hi
        cases h
        exact .discarded hs hi
      · rename_i hi
        cases h
        exact .parted rfl hs (by simp [hi])
      · rename_i hi
        cases h
        exact .parted rfl hs (by simp [hi])
      · cases h
  | close =>
      cases h
      exact .served close_serves

/-- An iterator is used by its consumer only. -/
lemma Turn.iter {l : Label} (h : Turn b l b') (hu : u < b.nextSub) (hne : l.consumer ≠ some u) :
    (b'.subs u).iter = (b.subs u).iter := by
  have hother : ∀ {s}, l.consumer = some s → u ≠ s := fun hl h => hne (h ▸ hl)
  cases h with
  | served h => exact h.iter u
  | @joined topic maxsize =>
      have hsub : (b.subscribe topic maxsize).subs u = b.subs u :=
        Function.update_of_ne (ne_of_lt hu) _ _
      rw [hsub]
  | @moved l s x pubs hl _ _ _ _ _ =>
      have hsub : (b.setSub s x).subs u = b.subs u := Function.update_of_ne (hother hl) _ _
      exact congrArg Sub.iter hsub
  | @parted l s hl _ _ =>
      have hsub : (b.unsubscribe s).subs u = b.subs u := Function.update_of_ne (hother hl) _ _
      rw [hsub]
  | @discarded s _ _ =>
      have hsub : (b.discard s).subs u = b.subs u := Function.update_of_ne (hother rfl) _ _
      rw [hsub]

lemma Turn.nextSub_le {l : Label} (h : Turn b l b') : b.nextSub ≤ b'.nextSub := by
  cases h with
  | served h => exact h.nextSub.ge
  | joined => exact Nat.le_succ _
  | moved => exact le_rfl
  | parted => exact le_rfl
  | discarded => exact le_rfl

lemma advance_nextSub : (b.advance s).nextSub = b.nextSub := by
  rw [advance]
  split
  · split
    · rfl
    · rfl
  · split
    · rfl
    · rfl

/-- An iterator that goes on has been started. -/
lemma advance_iter : ((b.advance s).subs s).iter ≠ .created := by
  rw [advance]
  split
  · split
    · simp
    · simp
  · split
    · simp [unsubscribe]
    · simp

/-! ### Subscribers that are gone, and those that should be -/

/-- A closed subscriber that was cleaned up. -/
structure Gone (b : Bus) (u : SubId) : Prop where
  known : u < b.nextSub
  finished : (b.subs u).iter = .finished
  unlisted : b.Unlisted u

/-- A closed subscriber that is still in its bucket. -/
structure Leaked (b : Bus) (u : SubId) : Prop where
  known : u < b.nextSub
  finished : (b.subs u).iter = .finished
  listed : u ∈ b.buckets (b.subs u).topic

/-- What becomes of a subscriber that is gone: it receives nothing, only the publishers that were
waiting for it come to its queue, and nobody else waits for it. -/
structure Untouched (b : Bus) (u : SubId) (b' : Bus) : Prop where
  unlisted : b'.Unlisted u
  delivered : (b'.subs u).delivered = (b.subs u).delivered
  appended : ∀ e ∈ (b'.subs u).appended, e ∈ (b.subs u).appended ∨ ∃ q, b.Awaits q u e
  awaits : ∀ q e, b'.Awaits q u e → b.Awaits q u e

/-- Whoever is not closed is listed. -/
def Listed (b : Bus) : Prop :=
  ∀ u < b.nextSub, (b.subs u).iter ≠ .finished → u ∈ b.buckets (b.subs u).topic

/-- Whoever is closed is gone. -/
def CleanedUp (b : Bus) : Prop := ∀ u < b.nextSub, (b.subs u).iter = .finished → b.Unlisted u

/-- **The condition**: no iterator is closed before it was started. -/
def StartedFirst (b : Bus) (l : Label) : Prop := ∀ s, l = .leave s → (b.subs s).iter ≠ .created

lemma Untouched.refl (hu : b.Unlisted u) : b.Untouched u b :=
  ⟨hu, rfl, fun _ he => Or.inl he, fun _ _ h => h⟩

lemma Untouched.trans (h : b.Untouched u b') (h' : b'.Untouched u b'') : b.Untouched u b'' := by
  refine ⟨h'.unlisted, h'.delivered.trans h.delivered, fun e he => ?_,
    fun q e hq => h.awaits q e (h'.awaits q e hq)⟩
  rcases h'.appended e he with he | ⟨q, hq⟩
  · exact h.appended e he
  · exact Or.inr ⟨q, h.awaits q e hq⟩

lemma awaits_wake (h : { b with pubs := fun p => (b.pubs p).wake s }.Awaits q u e) :
    b.Awaits q u e := by
  obtain ⟨pub, wild, pos, w, hq, he⟩ := h
  have hq : (b.pubs q).wake s = .blocked pub wild pos u w := hq
  cases hpc : b.pubs q with
  | idle =>
      rw [hpc] at hq
      cases hq
  | persisting pub' =>
      rw [hpc] at hq
      cases hq
  | blocked pub' wild' pos' u' w' =>
      rw [hpc] at hq
      cases hq
      exact ⟨pub, wild, pos, w', hpc, he⟩

lemma setSub_of_ne {x : Sub} (h : u ≠ s) : (b.setSub s x).subs u = b.subs u :=
  Function.update_of_ne h _ _

lemma unsubscribe_of_ne (h : u ≠ s) : (b.unsubscribe s).subs u = b.subs u :=
  Function.update_of_ne h _ _

lemma subscribe_of_ne {topic : String} {maxsize : ℕ} (h : u ≠ b.nextSub) :
    (b.subscribe topic maxsize).subs u = b.subs u :=
  Function.update_of_ne h _ _

/-- One step leaves whoever is gone alone. -/
lemma Gone.turn {l : Label} (hg : b.Gone u) (h : Turn b l b') :
    b'.Gone u ∧ b.Untouched u b' := by
  obtain ⟨hlt, hfin, hun⟩ := hg
  -- the iterator that the step concerns is another one
  have hother : ∀ {s}, (b.subs s).iter ≠ .finished → u ≠ s := fun hs h => hs (h ▸ hfin)
  cases h with
  | served h =>
      have hun' : b'.Unlisted u := fun k => h.buckets ▸ hun k
      exact ⟨⟨h.nextSub ▸ hlt, (h.iter u).trans hfin, hun'⟩,
        ⟨hun', h.delivered u, h.appended u hun, h.awaits u hun⟩⟩
  | @joined topic maxsize =>
      have hsub : (b.subscribe topic maxsize).subs u = b.subs u := subscribe_of_ne (ne_of_lt hlt)
      have hun' : (b.subscribe topic maxsize).Unlisted u := by
        intro k hk
        rw [buckets_subscribe] at hk
        rcases List.mem_append.mp hk with hk | hk
        · exact hun k hk
        · split at hk
          · exact absurd (List.mem_singleton.mp hk) (ne_of_lt hlt)
          · cases hk
      exact ⟨⟨Nat.lt_succ_of_lt hlt, by rw [hsub, hfin], hun'⟩,
        ⟨hun', by rw [hsub], fun e he => Or.inl (hsub ▸ he), fun _ _ h => h⟩⟩
  | @moved l s x pubs hl hs hi hx ht hpubs =>
      have hsub : (b.setSub s x).subs u = b.subs u := setSub_of_ne (hother hi)
      refine ⟨⟨hlt, (congrArg Sub.iter hsub).trans hfin, hun⟩,
        ⟨hun, congrArg Sub.delivered hsub, fun e he => Or.inl ?_, fun q e hq => ?_⟩⟩
      · have he : e ∈ ((b.setSub s x).subs u).appended := he
        rwa [hsub] at he
      · rcases hpubs with rfl | rfl
        · exact hq
        · exact awaits_wake hq
  | @parted l s hl hs hi =>
      have hsub : (b.unsubscribe s).subs u = b.subs u := unsubscribe_of_ne (hother hi)
      have hun' : (b.unsubscribe s).Unlisted u := by
        intro k hk
        rw [buckets_unsubscribe] at hk
        split at hk
        · exact hun k (List.mem_of_mem_erase hk)
        · exact hun k hk
      exact ⟨⟨hlt, (congrArg Sub.iter hsub).trans hfin, hun'⟩,
        ⟨hun', congrArg Sub.delivered hsub, fun e he => Or.inl (hsub ▸ he), fun _ _ h => h⟩⟩
  | @discarded s hs hi =>
      have hne : u ≠ s := hother fun h => by
        rw [h] at hi
        cases hi
      have hsub : (b.discard s).subs u = b.subs u := Function.update_of_ne hne _ _
      exact ⟨⟨hlt, (congrArg Sub.iter hsub).trans hfin, hun⟩,
        ⟨hun, congrArg Sub.delivered hsub, fun e he => Or.inl (hsub ▸ he), fun _ _ h => h⟩⟩

/-- Nothing takes a leaked subscriber out of its bucket. -/
lemma Leaked.turn {l : Label} (hk : b.Leaked u) (h : Turn b l b') : b'.Leaked u := by
  obtain ⟨hlt, hfin, hin⟩ := hk
  have hother : ∀ {s}, (b.subs s).iter ≠ .finished → u ≠ s := fun hs h => hs (h ▸ hfin)
  cases h with
  | served h =>
      exact ⟨h.nextSub ▸ hlt, (h.iter u).trans hfin, by rw [h.buckets, h.topic]; exact hin⟩
  | @joined topic maxsize =>
      have hsub : (b.subscribe topic maxsize).subs u = b.subs u := subscribe_of_ne (ne_of_lt hlt)
      refine ⟨Nat.lt_succ_of_lt hlt, by rw [hsub, hfin], ?_⟩
      rw [hsub, buckets_subscribe]
      exact List.mem_append_left _ hin
  | @moved l s x pubs hl hs hi hx ht hpubs =>
      have hsub : (b.setSub s x).subs u = b.subs u := setSub_of_ne (hother hi)
      refine ⟨hlt, (congrArg Sub.iter hsub).trans hfin, ?_⟩
      show u ∈ b.buckets ((b.setSub s x).subs u).topic
      rwa [hsub]
  | @parted l s hl hs hi =>
      have hne : u ≠ s := hother hi
      have hsub : (b.unsubscribe s).subs u = b.subs u := unsubscribe_of_ne hne
      refine ⟨hlt, (congrArg Sub.iter hsub).trans hfin, ?_⟩
      rw [hsub, buckets_unsubscribe]
      split
      · exact (List.mem_erase_of_ne hne).mpr hin
      · exact hin
  | @discarded s hs hi =>
      have hne : u ≠ s := hother fun h => by
        rw [h] at hi
        cases hi
      have hsub : (b.discard s).subs u = b.subs u := Function.update_of_ne hne _ _
      refine ⟨hlt, (congrArg Sub.iter hsub).trans hfin, ?_⟩
      show u ∈ b.buckets ((b.discard s).subs u).topic
      rwa [hsub]

/-- Whoever is not closed stays listed. -/
lemma Listed.turn {l : Label} (hb : b.Listed) (h : Turn b l b') : b'.Listed := by
  intro u hlt hi
  cases h with
  | served h =>
      rw [h.buckets, h.topic]
      exact hb u (h.nextSub ▸ hlt) (h.iter u ▸ hi)
  | @joined topic maxsize =>
      rw [buckets_subscribe]
      by_cases hu : u = b.nextSub
      · subst hu
        refine List.mem_append_right _ ?_
        simp [subscribe]
      · rw [subscribe_of_ne hu] at hi ⊢
        exact List.mem_append_left _ (hb u (lt_of_le_of_ne (Nat.le_of_lt_succ hlt) hu) hi)
  | @moved l s x pubs hl hs hi' hx ht hpubs =>
      by_cases hu : u = s
      · subst hu
        have htop : ((b.setSub u x).subs u).topic = (b.subs u).topic := by simpa using ht
        show u ∈ b.buckets ((b.setSub u x).subs u).topic
        rw [htop]
        exact hb u hlt hi'
      · have hsub : (b.setSub s x).subs u = b.subs u := setSub_of_ne hu
        show u ∈ b.buckets ((b.setSub s x).subs u).topic
        have hi : ((b.setSub s x).subs u).iter ≠ .finished := hi
        rw [hsub] at hi ⊢
        exact hb u hlt hi
  | @parted l s hl hs hi' =>
      have hu : u ≠ s := by
        rintro rfl
        exact hi (by simp [unsubscribe])
      rw [unsubscribe_of_ne hu] at hi ⊢
      rw [buckets_unsubscribe]
      split
      · exact (List.mem_erase_of_ne hu).mpr (hb u hlt hi)
      · exact hb u hlt hi
  | @discarded s hs hi' =>
      have hu : u ≠ s := by
        rintro rfl
        exact hi (by simp [discard])
      have hsub : (b.discard s).subs u = b.subs u := Function.update_of_ne hu _ _
      rw [hsub] at hi ⊢
      exact hb u hlt hi

/-- The iterators that are closed in a step were started before it: they have left their buckets. -/
lemma CleanedUp.turn {l : Label} (hw : b.WellFormed) (hc : b.CleanedUp) (hok : b.StartedFirst l)
    (h : Turn b l b') : b'.CleanedUp := by
  intro u hlt hfin
  by_cases hold : u < b.nextSub ∧ (b.subs u).iter = .finished
  · have hg : b.Gone u := ⟨hold.1, hold.2, hc u hold.1 hold.2⟩
    exact (hg.turn h).1.unlisted
  · cases h with
    | served h => exact absurd ⟨h.nextSub ▸ hlt, h.iter u ▸ hfin⟩ hold
    | @joined topic maxsize =>
        by_cases hu : u = b.nextSub
        · subst hu
          simp [subscribe] at hfin
        · rw [subscribe_of_ne hu] at hfin
          exact absurd ⟨lt_of_le_of_ne (Nat.le_of_lt_succ hlt) hu, hfin⟩ hold
    | @moved l s x pubs hl hs hi hx ht hpubs =>
        have hfin : ((b.setSub s x).subs u).iter = .finished := hfin
        by_cases hu : u = s
        · subst hu
          exact absurd (by simpa using hfin) hx
        · rw [setSub_of_ne hu] at hfin
          exact absurd ⟨hlt, hfin⟩ hold
    | @parted l s hl hs hi =>
        by_cases hu : u = s
        · subst hu
          intro k hk
          have hnot : u ∉ (b.unsubscribe u).audience k := not_mem_audience_unsubscribe hw
          exact hnot (List.mem_append_left _ hk)
        · rw [unsubscribe_of_ne hu] at hfin
          exact absurd ⟨hlt, hfin⟩ hold
    | @discarded s hs hi => exact absurd hi (hok s rfl)

/-- Closing an iterator that was not started leaks its queue. -/
lemma leaked_discard (hb : b.Listed) (hs : s < b.nextSub) (hi : (b.subs s).iter = .created) :
    (b.discard s).Leaked s := by
  refine ⟨hs, by simp [discard], ?_⟩
  have htop : ((b.discard s).subs s).topic = (b.subs s).topic := by simp [discard]
  rw [htop]
  exact hb s hs (by simp [hi])

end Bus

/-! ### Runs -/

open Bus

variable {cfg : BusConfig} {b b' : Bus} {u : SubId}

lemma listed_of_via {ok : Bus → Label → Prop} (h : (busSystem cfg).ReachableVia ok b) :
    b.Listed := by
  refine h.invariant (fun b hb => ?_) fun _ _ _ hb _ hs => hb.turn (step_turn hs)
  have hb : b = fresh := hb
  subst hb
  exact fun u hu => absurd hu (Nat.not_lt_zero u)

/-- **Whoever is closed is gone**, in every run that starts its iterators before it closes them. -/
theorem cleanedUp_of_via
    (h : (busSystem cfg).ReachableVia (fun b l => b.StartedFirst l) b) : b.CleanedUp := by
  refine h.invariant_of (J := WellFormed) (fun _ h => wellFormed_of_via h) (fun b hb => ?_)
    fun _ _ _ hw hc hok hs => hc.turn hw hok (step_turn hs)
  have hb : b = fresh := hb
  subst hb
  exact fun u hu => absurd hu (Nat.not_lt_zero u)

/-- Whoever is gone is left alone for good. -/
theorem untouched_of_leads (hg : b.Gone u) {ok : Bus → Label → Prop}
    (h : (busSystem cfg).Leads ok b b') : b.Untouched u b' := by
  have hboth : b'.Gone u ∧ b.Untouched u b' := by
    induction h with
    | refl => exact ⟨hg, Untouched.refl hg.unlisted⟩
    | tail _ hs ih =>
        obtain ⟨l, -, hs⟩ := hs
        obtain ⟨hg', hun⟩ := ih.1.turn (step_turn hs)
        exact ⟨hg', ih.2.trans hun⟩
  exact hboth.2

/-- A leak is for good. -/
lemma leaked_of_leads (hk : b.Leaked u) {ok : Bus → Label → Prop}
    (h : (busSystem cfg).Leads ok b b') : b'.Leaked u := by
  induction h with
  | refl => exact hk
  | tail _ hs ih =>
      obtain ⟨l, -, hs⟩ := hs
      exact ih.turn (step_turn hs)

end GgRelay.EventBus
