import GgRelay.Core.Line

/-!
Dispatch reaches everyone (`EventBus._dispatch`).

* `DispatchGuard` is the condition on runs: nobody leaves at or before the position of a waiting
  publisher while the next in line is owed the event;
* `Bus.Reached` is the invariant of these runs;
* `dispatch_reaches` is the result, `early_leaver_skips_next` a run in which the next in line is
  skipped.
-/

namespace GgRelay.EventBus

/-- It was published as `publish(event)`. -/
def Form.isTyped : Form → Bool
  | .typed _ _ => true
  | .legacy _ => false

lemma Form.topic_ne_wildcard {form : Form} (h : form.isTyped = true) :
    form.topic ≠ wildcard := by
  cases form with
  | typed cls tier => exact cls.2
  | legacy topic => cases h

namespace Bus

/-! ### The condition -/

/-- The leave of `u` does not move the next in line over the position of this publisher. -/
def Spares (b : Bus) (u : SubId) : PubPc → Prop
  | .blocked pub wild pos _ _ =>
      pub.event.form.isTyped = true → u ∈ (b.buckets (pub.key wild)).take (pos + 1) →
        ∀ t ∈ (b.buckets (pub.key wild))[pos + 1]?, t ∉ pub.before
  | _ => True

/-- Nobody who waits for this publication is still to be served. -/
def Through (b : Bus) (p : PubId) : Prop :=
  ∀ pub ∈ b.busy p, pub.event.form.isTyped = true →
    ∀ s ∈ b.todo p, s ∈ pub.before → s ∉ b.audience pub.event.form.topic

instance (b : Bus) (u : SubId) : ∀ pc, Decidable (b.Spares u pc)
  | .blocked pub wild pos _ _ =>
      inferInstanceAs (Decidable (pub.event.form.isTyped = true →
        u ∈ (b.buckets (pub.key wild)).take (pos + 1) →
          ∀ t ∈ (b.buckets (pub.key wild))[pos + 1]?, t ∉ pub.before))
  | .idle | .persisting _ => isTrue trivial

instance (b : Bus) (p : PubId) : Decidable (b.Through p) :=
  inferInstanceAs (Decidable (∀ pub ∈ b.busy p, pub.event.form.isTyped = true →
    ∀ s ∈ b.todo p, s ∈ pub.before → s ∉ b.audience pub.event.form.topic))

/-- The typed publication that ends with this step before it is dispatched. -/
def refuses (cfg : BusConfig) (b : Bus) : Label → Option ClassName
  | .publish _ (.typed cls tier) =>
      if b.closed = true ∨ tier = .durable ∧ cfg.hasStore = false ∧ cfg.strictDurable = true then
        some cls
      else none
  | _ => none

/-- The publisher whose publication is lost with this step. -/
def loses : Label → Option PubId
  | .persisted p false | .cancel p => some p
  | _ => none

/-- The `maxsize` of a new subscriber. -/
def subscribes : Label → Option ℕ
  | .subscribe _ maxsize => some maxsize
  | _ => none

/-- The condition on the steps of a run. -/
structure DispatchGuard (cfg : BusConfig) (b : Bus) (l : Label) : Prop where
  roomy : ∀ maxsize ∈ subscribes l, 1 ≤ maxsize
  refused : ∀ cls ∈ b.refuses cfg l, b.audience cls = []
  lost : ∀ p ∈ loses l, b.Through p
  left : ∀ u ∈ b.leaves l, ∀ p < b.nextPub, b.Spares u (b.pubs p)

instance (cfg : BusConfig) (b : Bus) (l : Label) : Decidable (b.DispatchGuard cfg l) :=
  decidable_of_iff
    ((∀ maxsize ∈ subscribes l, 1 ≤ maxsize) ∧ (∀ cls ∈ b.refuses cfg l, b.audience cls = []) ∧
      (∀ p ∈ loses l, b.Through p) ∧
      ∀ u ∈ b.leaves l, ∀ p < b.nextPub, b.Spares u (b.pubs p))
    ⟨fun h => ⟨h.1, h.2.1, h.2.2.1, h.2.2.2⟩, fun h => ⟨h.roomy, h.refused, h.lost, h.left⟩⟩

/-! ### The invariant -/

/-- The subscribers an event was for have it, in the publications in progress, given by `busy` and
`todo`, and in those that are over. -/
structure ReachedWith (b : Bus) (busy : PubId → Option Publish) (todo : PubId → List SubId) :
    Prop where
  roomy : ∀ s < b.nextSub, 1 ≤ (b.subs s).maxsize
  served : ∀ p pub, busy p = some pub → pub.event.form.isTyped = true → ∀ s ∈ pub.before,
    s ∈ b.audience pub.event.form.topic → s ∉ todo p →
      (b.subs s).appended.count pub.event = 1
  ended : ∀ r ∈ b.ended, r.pub.event.form.isTyped = true → ∀ s ∈ r.pub.before, s ∈ r.after →
    (b.subs s).appended.count r.pub.event = 1

/-- The invariant of the runs that meet the condition. -/
def Reached (b : Bus) : Prop := b.ReachedWith b.busy b.todo

/-- The invariant while `p` dispatches without a pause, with `line` to go. -/
def ReachedAt (b : Bus) (p : PubId) (pub : Publish) (line : List SubId) : Prop :=
  b.ReachedWith (Function.update b.busy p (some pub)) (Function.update b.todo p line)

variable {cfg : BusConfig} {b b' : Bus} {p : PubId} {pub : Publish} {s u : SubId}

lemma reached_fresh : fresh.Reached where
  roomy _ h := absurd h (Nat.not_lt_zero _)
  served _ _ h := by cases h
  ended _ h := by cases h

namespace ReachedWith

variable {busy : PubId → Option Publish} {todo : PubId → List SubId}

/-- A step that touches neither the logs nor the capacities of the subscribers. -/
lemma congr (hr : b.ReachedWith busy todo) (hsubs : ∀ s,
      (b'.subs s).appended = (b.subs s).appended ∧ (b'.subs s).maxsize = (b.subs s).maxsize)
    (hb : b'.buckets = b.buckets) (hs : b'.nextSub = b.nextSub) (hd : b'.ended = b.ended) :
    b'.ReachedWith busy todo where
  roomy s h := by
    rw [(hsubs s).2]
    exact hr.roomy s (hs ▸ h)
  served p pub h ht s hm ha hn := by
    rw [audience, hb] at ha
    rw [(hsubs s).1]
    exact hr.served p pub h ht s hm ha hn
  ended r h ht s hm ha := by
    rw [(hsubs s).1]
    exact hr.ended r (hd ▸ h) ht s hm ha

/-- An append, to whoever is first in line. -/
lemma push (hr : b.ReachedWith busy todo) (hw : b.WellFormedWith busy todo)
    (hp : busy p = some pub) {line : List SubId} (htodo : todo p = s :: line) {x : Sub}
    (hx : (b.subs s).push pub.event = some x) :
    (b.setSub s x).ReachedWith busy (Function.update todo p line) := by
  obtain ⟨happ, -⟩ := Sub.push_appended hx
  -- the log of an event that is not the one appended
  have hlog : ∀ t e, e.number ≠ pub.event.number →
      ((b.setSub s x).subs t).appended.count e = (b.subs t).appended.count e := by
    intro t e he
    have hne : pub.event ≠ e := fun h => he (h ▸ rfl)
    by_cases ht : t = s
    · subst ht
      rw [setSub_subs, Function.update_self, happ, List.count_append,
        List.count_singleton, if_neg (by simpa using hne), Nat.add_zero]
    · rw [setSub_subs, Function.update_of_ne ht]
  refine ⟨fun t ht => ?_, fun q pub' hq ht t hm ha hn => ?_, fun r h ht t hm ha => ?_⟩
  · by_cases hts : t = s
    · subst hts
      rw [setSub_subs, Function.update_self, Sub.push_maxsize hx]
      exact hr.roomy t ht
    · rw [setSub_subs, Function.update_of_ne hts]
      exact hr.roomy t ht
  · by_cases hqp : q = p
    · subst hqp
      obtain rfl : pub = pub' := Option.some.inj (hp.symm.trans hq)
      rw [Function.update_self] at hn
      by_cases hts : t = s
      · subst hts
        have howed := (hw.line _ _ hp (Form.topic_ne_wildcard ht)).owed t
          (htodo ▸ List.mem_cons_self)
        have hzero : (b.subs t).appended.count pub.event = 0 :=
          List.count_eq_zero.mpr fun h => howed _ h rfl
        rw [setSub_subs, Function.update_self, happ, List.count_append, hzero,
          List.count_singleton_self]
      · rw [setSub_subs, Function.update_of_ne hts]
        refine hr.served q pub hq ht t hm ha fun h => ?_
        rw [htodo] at h
        exact (List.mem_cons.mp h).elim hts hn
    · rw [Function.update_of_ne hqp] at hn
      rw [hlog t _ fun h => hqp (hw.distinct q p pub' pub hq hp h)]
      exact hr.served q pub' hq ht t hm ha hn
  · rw [hlog t _ fun heq => (hw.past r h).2.2 p pub hp heq.symm]
    exact hr.ended r h ht t hm ha

/-- The end of a publication all of whose subscribers have been served. -/
lemma finish (hr : b.ReachedWith busy todo) (hp : busy p = some pub)
    (hdone : pub.event.form.isTyped = true → ∀ s ∈ todo p, s ∈ pub.before →
      s ∉ b.audience pub.event.form.topic) :
    (b.finish p pub).ReachedWith (Function.update busy p none) (Function.update todo p []) := by
  refine ⟨hr.roomy, fun q pub' hq ht s hm ha hn => ?_, fun r h ht s hm ha => ?_⟩
  · by_cases hqp : q = p
    · subst hqp
      simp at hq
    · rw [Function.update_of_ne hqp] at hq hn
      exact hr.served q pub' hq ht s hm ha hn
  · rcases List.mem_cons.mp h with rfl | h
    · exact hr.served p pub hp ht s hm ha fun hn => hdone ht s hn hm ha
    · exact hr.ended r h ht s hm ha

end ReachedWith

lemma reachedAt_finish {line : List SubId} (hr : b.ReachedAt p pub line)
    (hdone : pub.event.form.isTyped = true → ∀ s ∈ line, s ∈ pub.before →
      s ∉ b.audience pub.event.form.topic) : (b.finish p pub).Reached := by
  have hpubs : (b.finish p pub).pubs = Function.update b.pubs p .idle := rfl
  rw [Reached, busy_update hpubs, todo_update hpubs rfl]
  have h := ReachedWith.finish hr (Function.update_self ..) (by rwa [Function.update_self])
  rwa [Function.update_idem, Function.update_idem] at h

/-- A publisher that is suspended with those in line still to serve. -/
lemma reached_suspend (pc : PubPc) {line : List SubId} (hr : b.ReachedAt p pub line)
    (hpub : pc.publish? = some pub) (hline : b.pending pc = line) :
    { b with pubs := Function.update b.pubs p pc }.Reached := by
  have hbusy : busy { b with pubs := Function.update b.pubs p pc } =
      Function.update b.busy p pc.publish? := busy_update rfl
  have htodo : todo { b with pubs := Function.update b.pubs p pc } =
      Function.update b.todo p (b.pending pc) := todo_update rfl rfl
  rw [Reached, hbusy, htodo, hpub, hline]
  exact ReachedWith.congr hr (fun _ => ⟨rfl, rfl⟩) rfl rfl rfl

/-- A publisher that is suspended is about to go on with those in line. -/
lemma reachedAt_of_busy (hr : b.Reached) (hp : b.busy p = some pub) :
    b.ReachedAt p pub (b.todo p) := by
  rw [ReachedAt, ← hp, Function.update_eq_self, Function.update_eq_self]
  exact hr

/-- A subscriber with room for one event never refuses an append. -/
lemma push_of_roomy (h : 1 ≤ (b.subs s).maxsize) (e : Event) : (b.subs s).push e ≠ none := by
  intro hnone
  rw [Sub.push] at hnone
  split at hnone
  · rename_i hfull
    split at hnone
    · cases hnone
    · rename_i hitems
      have hfull : (b.subs s).maxsize ≤ (b.subs s).items.length := by simpa [Sub.full] using hfull
      rw [hitems, List.length_nil] at hfull
      omega
  · cases hnone

/-- **A dispatch serves everybody in line.** -/
lemma Fanout.reached {line : List SubId} (h : Fanout cfg p pub b line b')
    (hw : b.WellFormedAt p pub line) (hr : b.ReachedAt p pub line) : b'.Reached := by
  induction h with
  | done b => exact reachedAt_finish hr (by simp)
  | @raised b s l ht =>
      have hs : s < b.nextSub := hw.known p s (by simp)
      exact absurd ht (push_of_roomy (hr.roomy s hs) _)
  | @blocked b s l wild pos _ hs hl =>
      have hdrain : (b.setSub s { b.subs s with drained := false }).ReachedAt p pub (s :: l) := by
        refine ReachedWith.congr hr (fun t => ?_) rfl rfl rfl
        by_cases ht : t = s
        · subst ht
          simp
        · simp [ht]
      exact reached_suspend (.blocked pub wild pos s false) hdrain rfl (by
        rw [pending, ← hl]
        rfl)
  | pushed hn ht _ ih =>
      have hpushw := WellFormedWith.push hw (Function.update_self ..) (Function.update_self ..) ht
      have hpushr := ReachedWith.push hr hw (Function.update_self ..) (Function.update_self ..) ht
      rw [Function.update_idem] at hpushw hpushr
      exact ih hpushw hpushr

/-- A publication begins. -/
lemma reachedAt_begin (hr : b.Reached) (hi : b.pubs p = .idle) (form : Form) :
    (b.begin p).ReachedAt p (b.publication p form) (b.audience form.topic) := by
  refine ⟨hr.roomy, fun q pub' hq ht s hm ha hn => ?_, hr.ended⟩
  by_cases hqp : q = p
  · subst hqp
    rw [Function.update_self] at hq hn
    cases hq
    exact absurd hm hn
  · rw [Function.update_of_ne hqp] at hq hn
    exact hr.served q pub' hq ht s hm ha hn

/-- A wait that is over leaves the logs alone. -/
lemma reachedAt_waited {l : Label} {wild : Bool} {pos : ℕ} {w : Bool} {b₀ : Bus} (hr : b.Reached)
    (hp : b.pubs p = .blocked pub wild pos s w)
    (hl : l = .resume p ∧ w = true ∧ b₀ = b ∨ l = .timeout p ∧ b₀ = b.countDurable s) :
    b₀.ReachedAt p pub (s :: b.rest pub wild (pos + 1)) := by
  have hbusy : b.busy p = some pub := by
    rw [busy, hp]
    rfl
  have htodo : b.todo p = s :: b.rest pub wild (pos + 1) := by
    rw [todo, hp]
    rfl
  have hat := reachedAt_of_busy hr hbusy
  rw [htodo] at hat
  rcases hl with ⟨-, -, rfl⟩ | ⟨-, rfl⟩
  · exact hat
  · refine ReachedWith.congr hat (fun t => ?_) rfl rfl rfl
    by_cases ht : t = s
    · subst ht
      simp [countDurable]
    · simp [countDurable, ht]

lemma reached_subscribe (hw : b.WellFormed) (hr : b.Reached) {topic : String} {maxsize : ℕ}
    (hm : 1 ≤ maxsize) : (b.subscribe topic maxsize).Reached := by
  have hnew : ∀ t, t < b.nextSub → (b.subscribe topic maxsize).subs t = b.subs t :=
    fun t ht => Function.update_of_ne (ne_of_lt ht) _ _
  refine ⟨fun s hs => ?_, fun q pub' hq ht s hs ha hn => ?_, fun r h ht s hs ha => ?_⟩
  · rcases Nat.lt_succ_iff_lt_or_eq.mp hs with hs | rfl
    · rw [hnew s hs]
      exact hr.roomy s hs
    · simpa [subscribe] using hm
  · have hlt : s < b.nextSub := hw.before q pub' hq s hs
    rw [hnew s hlt]
    have hold : s ∈ b.pending (.persisting pub') ∨ s = b.nextSub := mem_pending_subscribe ha
    have ha : s ∈ b.audience pub'.event.form.topic := hold.resolve_right (ne_of_lt hlt)
    have hpub : (b.pubs q).publish? = some pub' := hq
    obtain ⟨a, c, d, hpend, -, hpend'⟩ :=
      pending_subscribe (b := b) hpub (Form.topic_ne_wildcard ht) topic maxsize
    refine hr.served q pub' hq ht s hs ha fun h => hn ?_
    have h : s ∈ a ++ d := hpend ▸ h
    have htodo : (b.subscribe topic maxsize).todo q = a ++ c ++ d := hpend'
    rw [htodo]
    rcases List.mem_append.mp h with h | h
    · simp [h]
    · simp [h]
  · rw [hnew s ((hw.past r h).2.1 s hs)]
    exact hr.ended r h ht s hs ha

/-- A leave that moves nobody over the position of a publisher. -/
lemma reached_unsubscribe (hw : b.WellFormed) (hr : b.Reached)
    (hspare : ∀ p < b.nextPub, b.Spares u (b.pubs p)) : (b.unsubscribe u).Reached := by
  have hsubs : ∀ s, ((b.unsubscribe u).subs s).appended = (b.subs s).appended ∧
      ((b.unsubscribe u).subs s).maxsize = (b.subs s).maxsize := by
    intro s
    by_cases hs : s = u
    · subst hs
      simp [unsubscribe]
    · simp [unsubscribe, hs]
  refine ⟨fun s hs => (hsubs s).2.symm ▸ hr.roomy s hs, fun q pub' hq ht s hs ha hn => ?_,
    fun r h ht s hs ha => (hsubs s).1.symm ▸ hr.ended r h ht s hs ha⟩
  rw [(hsubs s).1]
  have hreg : s ∈ b.audience pub'.event.form.topic := audience_unsubscribe.subset ha
  refine hr.served q pub' hq ht s hs hreg fun hline => ?_
  have hne : s ≠ u := fun h => not_mem_audience_unsubscribe hw (h ▸ ha)
  have hq' : (b.pubs q).publish? = some pub' := hq
  have hsp := hspare q (hw.number q pub' hq).1
  rw [todo] at hline hn
  change s ∉ (b.unsubscribe u).pending (b.pubs q) at hn
  cases hpc : b.pubs q with
  | idle =>
      rw [hpc] at hq'
      cases hq'
  | persisting pub =>
      rw [hpc] at hq' hn
      cases hq'
      exact hn ha
  | blocked pub wild pos s₀ w =>
      rw [hpc] at hq' hline hn hsp
      cases hq'
      rcases List.mem_cons.mp hline with rfl | hline
      · exact hn List.mem_cons_self
      · rcases mem_rest_unsubscribe hline hne with h | ⟨hu, hnext⟩
        · exact hn (List.mem_cons_of_mem _ h)
        · exact hsp ht hu s hnext hs

/-- **Every step that meets the condition keeps the invariant.** -/
theorem Reached.step {l : Label} (hw : b.WellFormed) (hr : b.Reached)
    (hok : b.DispatchGuard cfg l) (h : Move cfg b l b') : b'.Reached := by
  cases h with
  | @refused p form hi h =>
      refine reachedAt_finish (reachedAt_begin hr hi form) fun ht s hs _ => ?_
      cases form with
      | typed cls tier =>
          have hrefuses : b.refuses cfg (.publish p (.typed cls tier)) = some cls := if_pos h
          have hnobody := hok.refused cls hrefuses
          change s ∈ b.audience cls at hs
          rw [hnobody] at hs
          cases hs
      | legacy topic => cases ht
  | persisting hi hc _ => exact reached_suspend _ (reachedAt_begin hr hi _) rfl rfl
  | published hi hc _ h => exact h.reached (wellFormedAt_begin hw hi _) (reachedAt_begin hr hi _)
  | @persisted p pub b' hp h =>
      have hbusy : b.busy p = some pub := by
        rw [busy, hp]
        rfl
      have hatw := wellFormedAt_of_busy hw hbusy
      have hatr := reachedAt_of_busy hr hbusy
      rw [todo, hp] at hatw hatr
      exact h.reached hatw hatr
  | @lost l p pub hp hl =>
      have hthrough : b.Through p := hok.lost p (by rcases hl with rfl | rfl <;> rfl)
      exact reachedAt_finish (reachedAt_of_busy hr hp) (hthrough pub hp)
  | @waitedInVain l p pub wild w pos s b₀ hp hl ht =>
      have hatw := wellFormedAt_waited hw hp hl
      have hatr := reachedAt_waited hr hp hl
      exact absurd ht (push_of_roomy (hatr.roomy s (hatw.known p s (by simp))) _)
  | waited hp hl ht h =>
      have hatw := wellFormedAt_waited hw hp hl
      have hatr := reachedAt_waited hr hp hl
      have hpushw := WellFormedWith.push hatw (Function.update_self ..) (Function.update_self ..) ht
      have hpushr :=
        ReachedWith.push hatr hatw (Function.update_self ..) (Function.update_self ..) ht
      rw [Function.update_idem] at hpushw hpushr
      exact h.reached hpushw hpushr
  | subscribed => exact reached_subscribe hw hr (hok.roomy _ rfl)
  | @popped l s x items d pubs hs hx hpubs =>
      rw [Reached]
      have hbusy : Bus.busy { b.setSub s { b.subs s with
          items := items, iter := .handling, drained := d
          delivered := (b.subs s).delivered ++ [x] } with pubs := pubs } = b.busy := by
        rcases hpubs with rfl | rfl
        · rfl
        · exact funext fun q => publish?_wake _
      have htodo : Bus.todo { b.setSub s { b.subs s with
          items := items, iter := .handling, drained := d
          delivered := (b.subs s).delivered ++ [x] } with pubs := pubs } = b.todo := by
        rcases hpubs with rfl | rfl
        · exact funext fun q => pending_congr rfl _
        · exact funext fun q => (pending_congr rfl _).trans (pending_wake _)
      rw [hbusy, htodo]
      refine ReachedWith.congr hr (fun t => ?_) rfl rfl rfl
      by_cases ht : t = s
      · subst ht
        simp
      · simp [ht]
  | @turned l s w pc hs =>
      show (b.setSub s _).ReachedWith b.busy b.todo
      refine ReachedWith.congr hr (fun t => ?_) rfl rfl rfl
      by_cases ht : t = s
      · subst ht
        simp
      · simp [ht]
  | @unsubscribed l s hl hs => exact reached_unsubscribe hw hr (hok.left s hl)
  | closed =>
      rw [close]
      split
      · exact hr
      · refine ReachedWith.congr hr (fun s => ?_) rfl rfl rfl
        by_cases hs : s ∈ b.buckets (b.subs s).topic
        · simp [hs]
        · simp [hs]

end Bus

/-! ### The result -/

variable {cfg : BusConfig} {b : Bus}

lemma reached_of_via
    (h : (busSystem cfg).ReachableVia (fun b l => b.DispatchGuard cfg l) b) : b.Reached :=
  h.invariant_of (fun _ => wellFormed_of_via) (fun _ hb => by cases hb; exact Bus.reached_fresh)
    fun _ _ _ hw hr hok hs => hr.step hw hok (Bus.step_move hs)

/-- **Dispatch reaches everyone**, as long as nobody leaves at or before the position of a waiting
publisher while the next in line is owed the event. -/
theorem dispatch_reaches
    (h : (busSystem cfg).ReachableVia (fun b l => b.DispatchGuard cfg l) b) :
    ∀ r ∈ b.ended, r.pub.event.form.isTyped = true → ∀ s ∈ r.pub.before, s ∈ r.after →
      (b.subs s).appended.count r.pub.event = 1 :=
  (reached_of_via h).ended

/-! ### The next in line is skipped -/

/-- A slow subscriber with room for one event, and another one after it. -/
def twoSubscribers : List Label :=
  [.subscribe "SessionStateChanged" 1, .subscribe "SessionStateChanged" 1000]

/-- The slow subscriber drains its queue and so lets the publisher go on. -/
def slowDrains : List Label :=
  twoSubscribers ++ [.next 0, .publish 0 stateChanged, .publish 0 stateChanged, .wake 0, .resume 0]

/-- The slow subscriber leaves while the publisher waits for it. -/
def slowLeaves : List Label :=
  twoSubscribers ++
    [.next 0, .publish 0 stateChanged, .publish 0 stateChanged, .leave 0, .timeout 0]

/-- The publisher waits, and reaches both subscribers. -/
theorem dispatch_reaches_slowDrains :
    ∃ b, (busSystem {}).checkedRun (fun b l => b.DispatchGuard {} l) Bus.fresh slowDrains = some b ∧
      (b.ended.map fun r => (r.pub.before, r.after)) = [([0, 1], [0, 1]), ([0, 1], [0, 1])] ∧
      ∀ r ∈ b.ended, r.pub.event.form.isTyped = true → ∀ s ∈ r.pub.before, s ∈ r.after →
        (b.subs s).appended.count r.pub.event = 1 := by
  have hrun : ((busSystem {}).checkedRun (fun b l => b.DispatchGuard {} l) Bus.fresh slowDrains).any
      (fun b => (b.ended.map fun r => (r.pub.before, r.after))
        = [([0, 1], [0, 1]), ([0, 1], [0, 1])]) = true := by decide
  obtain ⟨b, hs, he⟩ := (Option.any_eq_true _ _).mp hrun
  exact ⟨b, hs, of_decide_eq_true he, dispatch_reaches (.of_checkedRun (.init rfl) hs)⟩

/-- The subscriber that was next when the slow one left has not been given the event. -/
theorem early_leaver_skips_next :
    ∃ b, (busSystem {}).run Bus.fresh slowLeaves = some b ∧
      ∃ r ∈ b.ended, r.pub.event.form.isTyped = true ∧ 1 ∈ r.pub.before ∧ 1 ∈ r.after ∧
        (b.subs 1).appended.count r.pub.event = 0 := by
  refine ⟨_, rfl, _, List.mem_cons_self, rfl, ?_⟩
  decide

end GgRelay.EventBus
