import GgRelay.Core.EventBus
import GgRelay.Lib.Walk

/-!
What one step of the event bus can do.

* `Bus.pending` is the list of subscribers a suspended publisher still has to serve;
* `Fanout` takes the uninterrupted part of a dispatch apart into single appends, and
  `fanout_topic` finds it in `dispatchTopic`;
* `Move` lists the effects a step can have, `Bus.step_move` says that every step is one of them.
-/

namespace GgRelay.EventBus

/-- The bucket a publisher goes through. -/
def Publish.key (pub : Publish) (wild : Bool) : String :=
  if wild then wildcard else pub.event.form.topic

@[simp] lemma Publish.key_true (pub : Publish) : pub.key true = wildcard := rfl

@[simp] lemma Publish.key_false (pub : Publish) : pub.key false = pub.event.form.topic := rfl

namespace Bus

variable {cfg : BusConfig} {p : PubId} {pub : Publish}

/-- Who is left for a publisher that is past this position. -/
def rest (b : Bus) (pub : Publish) : Bool → ℕ → List SubId
  | true, pos => (b.buckets wildcard).drop pos
  | false, pos => (b.buckets pub.event.form.topic).drop pos ++ b.buckets wildcard

/-- Who is left for a suspended publisher. -/
def pending (b : Bus) : PubPc → List SubId
  | .idle => []
  | .persisting pub => b.audience pub.event.form.topic
  | .blocked pub wild pos s _ => s :: b.rest pub wild (pos + 1)

/-- The state with another content of one subscriber. -/
def setSub (b : Bus) (s : SubId) (t : Sub) : Bus :=
  { b with subs := Function.update b.subs s t }

/-- The event has to wait for room in the queue of `s`. -/
def Waits (cfg : BusConfig) (b : Bus) (pub : Publish) (s : SubId) : Prop :=
  (b.subs s).full = true ∧ pub.event.durable = true ∧ cfg.blocks = true

/-- The publisher `p` waits for `s`, at this position. -/
def block (b : Bus) (p : PubId) (pub : Publish) (wild : Bool) (pos : ℕ) (s : SubId) : Bus :=
  { b with
    subs := Function.update b.subs s { b.subs s with drained := false }
    pubs := Function.update b.pubs p (.blocked pub wild pos s false) }

/-- An uninterrupted part of a dispatch, over the subscribers of a list. -/
inductive Fanout (cfg : BusConfig) (p : PubId) (pub : Publish) : Bus → List SubId → Bus → Prop
  | done (b : Bus) : Fanout cfg p pub b [] (b.finish p pub)
  /-- the queue of `s` has no room at all -/
  | raised {b : Bus} {s : SubId} {l : List SubId} (h : (b.subs s).push pub.event = none) :
      Fanout cfg p pub b (s :: l) (b.finish p pub)
  | blocked {b : Bus} {s : SubId} {l : List SubId} {wild : Bool} {pos : ℕ}
      (hw : b.Waits cfg pub s) (hs : (b.buckets (pub.key wild))[pos]? = some s)
      (hl : b.rest pub wild (pos + 1) = l) :
      Fanout cfg p pub b (s :: l) (b.block p pub wild pos s)
  | pushed {b b' : Bus} {s : SubId} {l : List SubId} {t : Sub} (hn : ¬b.Waits cfg pub s)
      (ht : (b.subs s).push pub.event = some t) (h : Fanout cfg p pub (b.setSub s t) l b') :
      Fanout cfg p pub b (s :: l) b'

/-- The dispatch to the wildcard serves the rest of its bucket. -/
lemma fanout_wild {l : List SubId} {pos : ℕ} {b : Bus} (hl : b.rest pub true pos = l) :
    Fanout cfg p pub b l (b.dispatchWild cfg p pub pos) := by
  induction l generalizing pos b with
  | nil =>
      rw [rest] at hl
      rw [dispatchWild, hl, dispatchLoop]
      exact .done b
  | cons s l ih =>
      rw [rest] at hl
      obtain ⟨hs, hl'⟩ := getElem?_of_drop_eq_cons hl
      by_cases hw : b.Waits cfg pub s
      · rw [dispatchWild, hl, dispatchLoop, if_pos (by simp [hw.1, hw.2.1, hw.2.2])]
        exact .blocked hw hs hl'
      · have hn : ¬((b.subs s).full && pub.event.durable && cfg.blocks) = true := by
          simpa [Waits, and_assoc] using hw
        cases ht : (b.subs s).push pub.event with
        | none =>
            rw [dispatchWild, hl, dispatchLoop, if_neg hn, ht]
            exact .raised ht
        | some t =>
            have heq : b.dispatchWild cfg p pub pos
                = (b.setSub s t).dispatchWild cfg p pub (pos + 1) := by
              rw [dispatchWild, hl, dispatchLoop, if_neg hn, ht, dispatchWild]
              simp only [setSub, hl']
            rw [heq]
            exact .pushed hw ht (ih hl')

/-- The dispatch to the topic serves the rest of its bucket, and then the wildcard. -/
lemma fanout_topic {l : List SubId} {pos : ℕ} {b : Bus}
    (hl : (b.buckets pub.event.form.topic).drop pos = l) :
    Fanout cfg p pub b (l ++ b.buckets wildcard) (b.dispatchTopic cfg p pub pos) := by
  induction l generalizing pos b with
  | nil =>
      rw [dispatchTopic, hl, dispatchLoop]
      exact fanout_wild (by simp [rest])
  | cons s l ih =>
      obtain ⟨hs, hl'⟩ := getElem?_of_drop_eq_cons hl
      by_cases hw : b.Waits cfg pub s
      · rw [dispatchTopic, hl, dispatchLoop, if_pos (by simp [hw.1, hw.2.1, hw.2.2])]
        exact .blocked hw hs (by rw [rest, hl']; rfl)
      · have hn : ¬((b.subs s).full && pub.event.durable && cfg.blocks) = true := by
          simpa [Waits, and_assoc] using hw
        cases ht : (b.subs s).push pub.event with
        | none =>
            rw [dispatchTopic, hl, dispatchLoop, if_neg hn, ht]
            exact .raised ht
        | some t =>
            have heq : b.dispatchTopic cfg p pub pos
                = (b.setSub s t).dispatchTopic cfg p pub (pos + 1) := by
              rw [dispatchTopic, hl, dispatchLoop, if_neg hn, ht, dispatchTopic]
              simp only [setSub, hl']
            rw [heq]
            exact .pushed hw ht (ih hl')

/-- The rest of a dispatch after the wait. -/
lemma fanout_rest {wild : Bool} {pos : ℕ} {b : Bus} :
    Fanout cfg p pub b (b.rest pub wild pos)
      (if wild then b.dispatchWild cfg p pub pos else b.dispatchTopic cfg p pub pos) := by
  cases wild with
  | true => exact fanout_wild rfl
  | false => exact fanout_topic rfl

/-- The subscriber that this step removes from its bucket. -/
def leaves (b : Bus) : Label → Option SubId
  | .next s | .wake s =>
      if (b.subs s).items = [] ∧ (b.subs s).closedFlag = true then some s else none
  | .leave s => if (b.subs s).iter = .handling ∨ (b.subs s).iter = .waiting then some s else none
  | _ => none

/-- The publication has begun. -/
def begin (b : Bus) (p : PubId) : Bus :=
  { b with nextEvent := b.nextEvent + 1, nextPub := max b.nextPub (p + 1) }

/-- The publication of this form by `p`. -/
def publication (b : Bus) (p : PubId) (form : Form) : Publish :=
  ⟨⟨b.nextEvent, p, form⟩, b.audience form.topic⟩

/-- One more durable event given up on. -/
def countDurable (b : Bus) (s : SubId) : Bus :=
  b.setSub s { b.subs s with durableDropped := (b.subs s).durableDropped + 1 }

/-- The effects of the steps of the bus. -/
inductive Move (cfg : BusConfig) (b : Bus) : Label → Bus → Prop
  /-- a publication that ends before it is dispatched -/
  | refused {p : PubId} {form : Form} (hi : b.pubs p = .idle)
      (h : b.closed = true ∨
        form.tier = .durable ∧ cfg.hasStore = false ∧ cfg.strictDurable = true) :
      Move cfg b (.publish p form) ((b.begin p).finish p (b.publication p form))
  | persisting {p : PubId} {form : Form} (hi : b.pubs p = .idle) (hc : b.closed = false)
      (hd : form.tier = .durable) :
      Move cfg b (.publish p form) { b.begin p with
        pubs := Function.update b.pubs p (.persisting (b.publication p form)) }
  /-- a publication that is dispatched at once -/
  | published {p : PubId} {form : Form} {b' : Bus} (hi : b.pubs p = .idle)
      (hc : b.closed = false)
      (hd : form.tier = .durable → cfg.hasStore = false ∧ cfg.strictDurable = false)
      (h : Fanout cfg p (b.publication p form) (b.begin p) (b.audience form.topic) b') :
      Move cfg b (.publish p form) b'
  | persisted {p : PubId} {pub : Publish} {b' : Bus} (hp : b.pubs p = .persisting pub)
      (h : Fanout cfg p pub b (b.audience pub.event.form.topic) b') :
      Move cfg b (.persisted p true) b'
  /-- a publication that is lost: its event was not persisted, or its task is cancelled -/
  | lost {l : Label} {p : PubId} {pub : Publish} (hp : (b.pubs p).publish? = some pub)
      (hl : l = .persisted p false ∨ l = .cancel p) :
      Move cfg b l (b.finish p pub)
  /-- a wait that is over, on a queue without any room -/
  | waitedInVain {l : Label} {p : PubId} {pub : Publish} {wild w : Bool} {pos : ℕ} {s : SubId}
      {b₀ : Bus} (hp : b.pubs p = .blocked pub wild pos s w)
      (hl : l = .resume p ∧ w = true ∧ b₀ = b ∨ l = .timeout p ∧ b₀ = b.countDurable s)
      (ht : (b₀.subs s).push pub.event = none) :
      Move cfg b l (b₀.finish p pub)
  /-- a wait that is over -/
  | waited {l : Label} {p : PubId} {pub : Publish} {wild w : Bool} {pos : ℕ} {s : SubId}
      {b₀ b' : Bus} {t : Sub} (hp : b.pubs p = .blocked pub wild pos s w)
      (hl : l = .resume p ∧ w = true ∧ b₀ = b ∨ l = .timeout p ∧ b₀ = b.countDurable s)
      (ht : (b₀.subs s).push pub.event = some t)
      (h : Fanout cfg p pub (b₀.setSub s t) (b.rest pub wild (pos + 1)) b') :
      Move cfg b l b'
  | subscribed {topic : String} {maxsize : ℕ} :
      Move cfg b (.subscribe topic maxsize) (b.subscribe topic maxsize)
  /-- the consumer gets an item -/
  | popped {l : Label} {s : SubId} {x : Event} {items : List Event} {d : Bool}
      {pubs : PubId → PubPc} (hs : s < b.nextSub) (hx : (b.subs s).items = x :: items)
      (hpubs : pubs = b.pubs ∨ pubs = fun p => (b.pubs p).wake s) :
      Move cfg b l { b.setSub s { b.subs s with
        items := items, iter := .handling, drained := d
        delivered := (b.subs s).delivered ++ [x] } with pubs := pubs }
  /-- a step that touches the iterator only -/
  | turned {l : Label} {s : SubId} {w : Bool} {pc : IterPc} (hs : s < b.nextSub) :
      Move cfg b l (b.setSub s { b.subs s with waker := w, iter := pc })
  | unsubscribed {l : Label} {s : SubId} (hl : b.leaves l = some s) (hs : s < b.nextSub) :
      Move cfg b l (b.unsubscribe s)
  | closed : Move cfg b .close b.close

/-! ### Every step is a move -/

variable {b b' : Bus}

lemma advance_move {l : Label} {s : SubId} (hs : s < b.nextSub)
    (hl : b.leaves l = if (b.subs s).items = [] ∧ (b.subs s).closedFlag = true then some s
      else none) : Move cfg b l (b.advance s) := by
  rw [advance]
  split
  · rename_i x items hx
    split
    · exact .popped hs hx (Or.inr rfl)
    · exact .popped hs hx (Or.inl rfl)
  · rename_i hx
    split
    · rename_i hc
      exact .unsubscribed (by rw [hl, if_pos ⟨hx, hc⟩]) hs
    · exact .turned hs

lemma afterWait_move {l : Label} {wild w : Bool} {pos : ℕ} {s : SubId} {b₀ : Bus}
    (hp : b.pubs p = .blocked pub wild pos s w)
    (hl : l = .resume p ∧ w = true ∧ b₀ = b ∨ l = .timeout p ∧ b₀ = b.countDurable s) :
    Move cfg b l (b₀.afterWait cfg p pub wild pos s) := by
  rw [afterWait]
  split
  · rename_i ht
    exact .waitedInVain hp hl ht
  · rename_i t ht
    have hrest : b.rest pub wild (pos + 1) = (b₀.setSub s t).rest pub wild (pos + 1) := by
      rcases hl with ⟨-, -, rfl⟩ | ⟨-, rfl⟩ <;> cases wild <;> rfl
    exact .waited hp hl ht (hrest ▸ fanout_rest)

lemma publish_move {form : Form} (hi : b.pubs p = .idle) :
    Move cfg b (.publish p form) (b.publish cfg p form) := by
  have hfan : Fanout cfg p (b.publication p form) (b.begin p) (b.audience form.topic)
      ((b.begin p).dispatchTopic cfg p (b.publication p form) 0) :=
    fanout_topic (b := b.begin p) rfl
  unfold publish
  split
  · rename_i hc
    exact .refused hi (Or.inl hc)
  · rename_i hc
    have hc : b.closed = false := by simpa using hc
    split
    · split
      · exact .persisting hi hc rfl
      · rename_i hstore
        split
        · rename_i hstrict
          exact .refused hi (Or.inr ⟨rfl, by simpa using hstore, hstrict⟩)
        · rename_i hstrict
          exact .published hi hc (fun _ => ⟨by simpa using hstore, by simpa using hstrict⟩) hfan
    · rename_i hform
      refine .published hi hc (fun hd => ?_) hfan
      cases form with
      | typed cls tier => exact absurd (congrArg (Form.typed cls) hd) (hform cls)
      | legacy topic => cases hd

/-- **Every step of the bus is a `Move`.** -/
theorem step_move {l : Label} (h : b.step cfg l = some b') : Move cfg b l b' := by
  cases l with
  | publish p form =>
      rw [step] at h
      split at h
      · rename_i hi
        simp only [Option.ite_none_right_eq_some, Option.some.injEq] at h
        exact h.2 ▸ publish_move hi
      · cases h
  | persisted p ok =>
      rw [step] at h
      split at h
      · rename_i pub hp
        cases h
        cases ok with
        | true => exact .persisted hp (fanout_topic rfl)
        | false => exact .lost (by rw [hp]; rfl) (Or.inl rfl)
      · cases h
  | resume p =>
      rw [step] at h
      split at h
      · rename_i hp
        cases h
        exact afterWait_move hp (Or.inl ⟨rfl, rfl, rfl⟩)
      · cases h
  | timeout p =>
      rw [step] at h
      split at h
      · rename_i hp
        cases h
        exact afterWait_move hp (Or.inr ⟨rfl, rfl⟩)
      · cases h
  | cancel p =>
      rw [step] at h
      split at h
      · rename_i hp
        cases h
        exact .lost (by rw [hp]; rfl) (Or.inr rfl)
      · rename_i hp
        cases h
        exact .lost (by rw [hp]; rfl) (Or.inr rfl)
      · cases h
  | subscribe topic maxsize =>
      cases h
      exact .subscribed
  | next s =>
      simp only [step, Option.ite_none_right_eq_some, Option.some.injEq] at h
      obtain ⟨⟨hs, -⟩, rfl⟩ := h
      exact advance_move hs rfl
  | wake s =>
      simp only [step, Option.ite_none_right_eq_some, Option.some.injEq] at h
      obtain ⟨⟨hs, -⟩, rfl⟩ := h
      exact advance_move hs rfl
  | leave s =>
      simp only [step, Option.ite_none_right_eq_some] at h
      obtain ⟨hs, h⟩ := h
      split at h
      · cases h
        exact .turned hs
      · rename_i hi
        cases h
        exact .unsubscribed (by simp [leaves, hi]) hs
      · rename_i hi
        cases h
        exact .unsubscribed (by simp [leaves, hi]) hs
      · cases h
  | close =>
      cases h
      exact .closed

end Bus

end GgRelay.EventBus
