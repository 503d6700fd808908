import GgRelay.Session.InMemory.Valid

/-!
When the stop of an in-process session returns.

* `Pair.Needs` are the queues that the stop has yet to put a sentinel into, `Channel.Fits` says when
  there will be room for it;
* `quiet_step` is what a step does to them, `quiet_progress` and `quiet_stay` that the stop gets on
  where they fit and is held up where they do not;
* `stop_returns_iff` is the result, in every order of the steps.
-/

namespace GgRelay.InMemory

section Stop

variable {Frame : Type}

/-- **There will be room for one more**, once the calls that wait have gone on. -/
def Channel.Fits (q : Channel Frame) : Prop :=
  q.maxsize = 0 ∨ q.items.length + q.putters.length < q.maxsize + q.getters

/-- **The stop has yet to put a sentinel into the outbound queue of this side.** -/
def Pair.Needs (s : Pair Frame) (X : Side) : Prop :=
  match s.stop with
  | .notCalled | .called =>
      match s.runner with
      | .body => s.alive X = true
      | _ => s.alive .host = true ∧ s.alive X = true
  | .awaitsTask =>
      match s.runner with
      | .body => False
      | .cancelled => s.alive X = true
      | .closing Y => X = Y ∨ s.alive X = true
      | .finished => s.alive .host = true ∧ s.alive X = true
  | .closing Y => X = Y ∨ s.alive X = true
  | .returned => False

variable {s t : Pair Frame} {X : Side} {who : Closer}

/-- **A move takes nothing on**, leaves the queues alone that it leaves for later, and keeps what it
cannot put, if it is made after the call or by the call. -/
lemma needs_move (hv : s.Valid) (h : Move who s t) :
    (t.Needs X → s.Needs X ∧ t.out X = s.out X) ∧
      (s.stop ≠ .notCalled → (who = .task → s.stop ≠ .called) → (s.out X).full = true →
        s.Needs X → t.Needs X) := by
  have hover := hv.task_over
  have hawaited := hv.awaited
  cases h with
  | @begin _ Y who hstart halive =>
      rw [Pair.waits_out, Pair.kill_out]
      cases who with
      | task =>
          obtain ⟨rfl, hr | hr⟩ := hstart <;> cases hs : s.stop <;> cases X <;>
            simp_all [Pair.Needs, Pair.waits]
      | stop =>
          obtain ⟨rfl, hs | hs, hr⟩ := hstart <;> cases X <;> simp_all [Pair.Needs, Pair.waits]
  | @skip _ Y who hstart halive =>
      rw [Pair.returns_out]
      cases who with
      | task =>
          obtain ⟨rfl, hr | hr⟩ := hstart <;> cases hs : s.stop <;> cases X <;>
            simp_all [Pair.Needs, Pair.returns]
      | stop =>
          obtain ⟨rfl, hs | hs, hr⟩ := hstart <;> cases X <;> simp_all [Pair.Needs, Pair.returns]
  | @put _ Y who hat hroom halive =>
      have hdead := dead_of_at hv hat
      cases who with
      | task =>
          have hr : s.runner = .closing Y := hat
          cases hs : s.stop <;> cases X <;> cases Y <;>
            simp_all [Pair.Needs, Pair.waits, Side.peer]
      | stop =>
          have hs : s.stop = .closing Y := hat
          cases X <;> cases Y <;> simp_all [Pair.Needs, Pair.waits, Side.peer]
  | @last _ Y who hat hroom halive =>
      have hdead := dead_of_at hv hat
      cases who with
      | task =>
          have hr : s.runner = .closing Y := hat
          cases hs : s.stop <;> cases X <;> cases Y <;>
            simp_all [Pair.Needs, Pair.returns, Side.peer]
      | stop =>
          have hs : s.stop = .closing Y := hat
          cases X <;> cases Y <;> simp_all [Pair.Needs, Pair.returns, Side.peer]
  | cancelBody hcall hbody => simp_all [Pair.Needs]
  | @cancelPut Y hcall hclosing => simp_all [Pair.Needs]

/-- Only the call itself moves on. -/
lemma stop_move (h : Move who s t) :
    (s.stop ≠ .notCalled → t.stop ≠ .notCalled) ∧ (who = .task → t.stop = s.stop) := by
  cases h with
  | begin hstart halive => cases who <;> simp [Pair.waits]
  | skip hstart halive => cases who <;> simp [Pair.returns]
  | put hat hroom halive => cases who <;> simp [Pair.waits]
  | last hat hroom halive => cases who <;> simp [Pair.returns]
  | cancelBody hcall hbody => simp
  | cancelPut hcall hclosing => simp

lemma stop_moves (h : Relation.TransGen (Move who) s t) :
    (s.stop ≠ .notCalled → t.stop ≠ .notCalled) ∧ (who = .task → t.stop = s.stop) := by
  induction h with
  | single h => exact stop_move h
  | tail _ h ih =>
      obtain ⟨hcalled, htask⟩ := stop_move h
      exact ⟨fun hs => hcalled (ih.1 hs), fun hw => (htask hw).trans (ih.2 hw)⟩

lemma needs_moves (hv : s.Valid) (h : Relation.TransGen (Move who) s t) :
    (t.Needs X → s.Needs X ∧ t.out X = s.out X) ∧
      (s.stop ≠ .notCalled → (who = .task → s.stop ≠ .called) → (s.out X).full = true →
        s.Needs X → t.Needs X) := by
  induction h with
  | single h => exact needs_move hv h
  | @tail u t hu h ih =>
      obtain ⟨htake, hkeep⟩ := needs_move (X := X) (hv.moves hu) h
      obtain ⟨hcalled, htask⟩ := stop_moves hu
      refine ⟨fun hn => ?_, fun hs hw hfull hn => ?_⟩
      · obtain ⟨hnu, hout⟩ := htake hn
        exact ⟨(ih.1 hnu).1, hout.trans (ih.1 hnu).2⟩
      · have hnu := ih.2 hs hw hfull hn
        refine hkeep (hcalled hs) (fun h => htask h ▸ hw h) ?_ hnu
        rw [(ih.1 hnu).2, hfull]

/-- What is left to do. -/
def StopCall.left : StopCall → ℕ
  | .notCalled => 4
  | .called => 3
  | .awaitsTask => 2
  | .closing _ => 1
  | .returned => 0

def RunnerTask.left : RunnerTask → ℕ
  | .body => 3
  | .cancelled => 2
  | .closing _ => 1
  | .finished => 0

def Pair.leftOf (s : Pair Frame) (X : Side) : ℕ :=
  (s.out X).putters.length + (s.out X).getters + (s.alive X).toNat

def Pair.left (s : Pair Frame) : ℕ :=
  s.leftOf .host + s.leftOf .runner + s.stop.left + s.runner.left

lemma left_move (h : Move who s t) : t.left < s.left := by
  cases h with
  | @begin _ X who hstart halive =>
      cases who with
      | task =>
          obtain ⟨rfl, hr | hr⟩ := hstart
          · simp [Pair.left, Pair.leftOf, Pair.waits, RunnerTask.left, hr, halive]
            omega
          · simp [Pair.left, Pair.leftOf, Pair.waits, RunnerTask.left, hr, halive]
      | stop =>
          obtain ⟨rfl, hs | hs, hr⟩ := hstart
          · simp [Pair.left, Pair.leftOf, Pair.waits, StopCall.left, hs, halive]
            omega
          · simp [Pair.left, Pair.leftOf, Pair.waits, StopCall.left, hs, halive]
  | @skip _ X who hstart halive =>
      cases who with
      | task =>
          obtain ⟨rfl, hr | hr⟩ := hstart <;>
            simp [Pair.left, Pair.leftOf, Pair.returns, RunnerTask.left, hr]
      | stop =>
          obtain ⟨rfl, hs | hs, hr⟩ := hstart <;>
            simp [Pair.left, Pair.leftOf, Pair.returns, StopCall.left, hs]
  | @put _ X who hat hroom halive =>
      cases who with
      | task =>
          have hr : s.runner = .closing X := hat
          cases X <;> simp_all [Pair.left, Pair.leftOf, Pair.waits, RunnerTask.left, Side.peer]
      | stop =>
          have hs : s.stop = .closing X := hat
          cases X <;> simp_all [Pair.left, Pair.leftOf, Pair.waits, StopCall.left, Side.peer]
  | @last _ X who hat hroom halive =>
      cases who with
      | task =>
          have hr : s.runner = .closing X := hat
          cases X <;> simp_all [Pair.left, Pair.leftOf, Pair.returns, RunnerTask.left, Side.peer]
      | stop =>
          have hs : s.stop = .closing X := hat
          cases X <;> simp_all [Pair.left, Pair.leftOf, Pair.returns, StopCall.left, Side.peer]
  | cancelBody hcall hbody =>
      simp [Pair.left, Pair.leftOf, StopCall.left, RunnerTask.left, hcall, hbody]
  | cancelPut hcall hclosing =>
      simp [Pair.left, Pair.leftOf, StopCall.left, RunnerTask.left, hcall, hclosing]

lemma left_moves (h : Relation.TransGen (Move who) s t) : t.left < s.left := by
  induction h with
  | single h => exact left_move h
  | tail _ h ih => exact (left_move h).trans ih

/-- A state with the same closers, and with a queue for which the same holds. -/
lemma needs_setOut {q : Channel Frame} {Y : Side} (hq : q.Fits ↔ (s.out X).Fits) :
    ((s.setOut X q).Needs Y → s.Needs Y ∧ (((s.setOut X q).out Y).Fits ↔ (s.out Y).Fits)) ∧
      (s.Needs Y → (s.setOut X q).Needs Y) := by
  refine ⟨fun h => ⟨h, ?_⟩, fun h => h⟩
  rw [Pair.setOut_out]
  split_ifs with hY
  · rw [hY, hq]
  · rfl

lemma left_setOut {q : Channel Frame}
    (hq : q.putters.length + q.getters < (s.out X).putters.length + (s.out X).getters) :
    (s.setOut X q).left < s.left := by
  cases X <;> simp [Pair.left, Pair.leftOf] <;> omega

/-- A call that waits goes on: one more item and one call fewer, or one item and one call fewer. -/
lemma setOut_of_waiting (hv : s.Valid) {l : Label Frame} (hl : (∃ X, l = .enter X) ∨ ∃ Y, l = .take Y)
    (h : step s l = some t) : ∃ X q, t = s.setOut X q ∧ (q.Fits ↔ (s.out X).Fits) ∧
      q.putters.length + q.getters < (s.out X).putters.length + (s.out X).getters := by
  rcases hl with ⟨X, rfl⟩ | ⟨Y, rfl⟩
  · rw [step] at h
    split at h
    · rename_i f fs hputters hfull
      obtain rfl := Option.some.inj h
      refine ⟨X, _, rfl, ?_, ?_⟩
      · simp only [Channel.Fits, hputters, List.length_append, List.length_cons, List.length_nil]
        omega
      · simp [hputters]
    · cases h
  · rw [step] at h
    split at h
    · rename_i x rest n hitems hgetters
      obtain rfl := Option.some.inj h
      rw [receive_eq]
      · refine ⟨Y.peer, { s.out Y.peer with items := rest, getters := n }, ?_, ?_, ?_⟩
        · simp [Pair.setOut]
        · simp only [Channel.Fits, hitems, hgetters, List.length_cons]
          omega
        · simp [hgetters]
      · exact fun hx => show s.alive Y = false from dead_of_head hv hitems hx
    · cases h

/-- The stop gets on: it takes nothing on, and there will be as much room as before. -/
def Onward (s t : Pair Frame) : Prop :=
  (∀ X, t.Needs X → s.Needs X ∧ ((t.out X).Fits ↔ (s.out X).Fits)) ∧
    (s.stop ≠ .notCalled → t.stop ≠ .notCalled) ∧ t.left < s.left

lemma onward_of_moves (hv : s.Valid) (h : Relation.TransGen (Move who) s t) : Onward s t := by
  refine ⟨fun X hn => ?_, (stop_moves h).1, left_moves h⟩
  obtain ⟨hs, hout⟩ := (needs_moves hv h).1 hn
  exact ⟨hs, by rw [hout]⟩

lemma onward_of_waiting (hv : s.Valid) {l : Label Frame}
    (hl : (∃ X, l = .enter X) ∨ ∃ Y, l = .take Y) (h : step s l = some t) : Onward s t := by
  obtain ⟨Z, q, rfl, hfits, hlt⟩ := setOut_of_waiting hv hl h
  exact ⟨fun X => (needs_setOut hfits).1, fun hs => hs, left_setOut hlt⟩

/-- **What a step does once nobody calls any more.** -/
lemma quiet_step {l : Label Frame} (hv : s.Valid) (hq : Quiet l) (h : step s l = some t) :
    Onward s t := by
  cases l with
  | enter Z => exact onward_of_waiting hv (.inl ⟨Z, rfl⟩) h
  | take Z => exact onward_of_waiting hv (.inr ⟨Z, rfl⟩) h
  | task => exact onward_of_moves hv (moves_of_task hv h)
  | stop => exact onward_of_moves hv (moves_of_stop hv h)
  | _ => exact hq.elim

/-- A closer that waits at a full queue is let in by the calls of `recv` that wait. -/
lemma take_of_fits (hv : s.Valid) (hfull : (s.out X).full = true) (hfits : (s.out X).Fits) :
    ∃ l t, Quiet l ∧ step s l = some t := by
  obtain ⟨hne, hle⟩ : (s.out X).maxsize ≠ 0 ∧ (s.out X).maxsize ≤ (s.out X).items.length := by
    simpa [Channel.full] using hfull
  have hb := hv.bounded X hne
  have hlt := hfits.resolve_left hne
  obtain ⟨x, rest, hitems⟩ : ∃ x rest, (s.out X).items = x :: rest :=
    List.exists_cons_of_ne_nil (by intro h; rw [h, List.length_nil] at hle; omega)
  obtain ⟨n, hn⟩ : ∃ n, (s.out X).getters = n + 1 := ⟨(s.out X).getters - 1, by omega⟩
  obtain ⟨t, ht⟩ : ∃ t, step s (.take X.peer) = some t := by
    simp only [step, Side.peer_peer, hitems, hn]
    exact ⟨_, rfl⟩
  exact ⟨.take X.peer, t, trivial, ht⟩

/-- A call is never held up before it has closed anything. -/
lemma step_called (hs : s.stop = .called) : ∃ t, step s .stop = some t := by
  simp only [step, hs]
  cases s.runner <;> exact ⟨_, rfl⟩

/-- **No deadlock** where there will be room. -/
lemma quiet_progress (hv : s.Valid) (hcalled : s.stop ≠ .notCalled) (hover : s.stop ≠ .returned)
    (hfits : ∀ X, s.Needs X → (s.out X).Fits) : ∃ l t, Quiet l ∧ step s l = some t := by
  have hput : ∀ {X who}, s.Needs X → (∀ t, s.resumePut X who = some t →
      ∃ l, Quiet l ∧ step s l = some t) → ∃ l t, Quiet l ∧ step s l = some t := by
    intro X who hn hstep
    by_cases hfull : (s.out X).full = true
    · exact take_of_fits hv hfull (hfits X hn)
    · obtain ⟨l, hl, ht⟩ := hstep _ (by rw [Pair.resumePut, if_neg hfull])
      exact ⟨l, _, hl, ht⟩
  cases hs : s.stop with
  | notCalled => exact absurd hs hcalled
  | returned => exact absurd hs hover
  | called =>
      obtain ⟨t, ht⟩ := step_called hs
      exact ⟨.stop, t, trivial, ht⟩
  | awaitsTask =>
      cases hr : s.runner with
      | body => exact absurd hr (hv.awaited hs)
      | cancelled => exact ⟨.task, s.close .runner .task, trivial, by rw [step, hr]⟩
      | finished => exact ⟨.stop, s.close .host .stop, trivial, by simp [step, hs, hr]⟩
      | closing X =>
          refine @hput X .task (by simp [Pair.Needs, hs, hr]) fun t ht => ?_
          exact ⟨.task, trivial, by rw [step, hr]; exact ht⟩
  | closing X =>
      refine @hput X .stop (by simp [Pair.Needs, hs]) fun t ht => ?_
      exact ⟨.stop, trivial, by rw [step, hs]; exact ht⟩

/-- **A queue without room for the sentinel stays so**, in a suitable order of the steps. -/
lemma quiet_stay (hv : s.Valid) (hcalled : s.stop ≠ .notCalled) (hn : s.Needs X)
    (hfits : ¬(s.out X).Fits) (hsome : ∃ l t, Quiet l ∧ step s l = some t) :
    ∃ l t, Quiet l ∧ step s l = some t ∧ t.Needs X := by
  by_cases hfull : (s.out X).full = true
  · have hwait : ∀ {l t}, ((∃ X, l = .enter X) ∨ ∃ Y, l = .take Y) → step s l = some t →
        t.Needs X := fun hl ht => by
      obtain ⟨Z, q, rfl, hq, -⟩ := setOut_of_waiting hv hl ht
      exact (needs_setOut hq).2 hn
    by_cases hs : s.stop = .called
    · obtain ⟨t, ht⟩ := step_called hs
      exact ⟨.stop, t, trivial, ht,
        (needs_moves hv (moves_of_stop hv ht)).2 hcalled (by simp) hfull hn⟩
    · obtain ⟨l, t, hq, ht⟩ := hsome
      refine ⟨l, t, hq, ht, ?_⟩
      cases l with
      | enter Z => exact hwait (.inl ⟨Z, rfl⟩) ht
      | take Z => exact hwait (.inr ⟨Z, rfl⟩) ht
      | task => exact (needs_moves hv (moves_of_task hv ht)).2 hcalled (fun _ => hs) hfull hn
      | stop => exact (needs_moves hv (moves_of_stop hv ht)).2 hcalled (by simp) hfull hn
      | _ => exact hq.elim
  · -- a call of `send` takes the room
    rw [Channel.Fits, not_or] at hfits
    rw [Bool.not_eq_true] at hfull
    have hlt : (s.out X).items.length < (s.out X).maxsize := by
      simpa [Channel.full, hfits.1] using hfull
    obtain ⟨f, fs, hputters⟩ : ∃ f fs, (s.out X).putters = f :: fs :=
      List.exists_cons_of_ne_nil (by intro h; rw [h, List.length_nil] at hfits; omega)
    obtain ⟨t, ht⟩ : ∃ t, step s (.enter X) = some t := by
      simp only [step, hputters, hfull]
      exact ⟨_, rfl⟩
    obtain ⟨Z, q, rfl, hq, -⟩ := setOut_of_waiting hv (.inl ⟨X, rfl⟩) ht
    exact ⟨.enter X, _, trivial, ht, (needs_setOut hq).2 hn⟩

/-- **When a stop returns, in every order of the steps**: there will be room for its sentinels. -/
theorem stop_returns_iff {maxsize : ℕ} (hv : s.Valid) (hcalled : s.stop ≠ .notCalled) :
    (transport Frame maxsize).Inevitably Quiet (fun t => t.stop = .returned) s ↔
      ∀ X, s.Needs X → (s.out X).Fits := by
  constructor
  · intro h X hn
    by_contra hfits
    refine System.not_inevitably_of_trap
      (J := fun t => t.Valid ∧ t.stop ≠ .notCalled ∧ t.Needs X ∧ ¬(t.out X).Fits) ?_ ?_
      ⟨hv, hcalled, hn, hfits⟩ h
    · rintro t ⟨-, -, hn, -⟩ hreturned
      rw [Pair.Needs, hreturned] at hn
      exact hn
    · rintro t ⟨hv, hcalled, hn, hfits⟩ hsome
      obtain ⟨l, u, hq, hu, hnu⟩ := quiet_stay hv hcalled hn hfits hsome
      obtain ⟨hback, hstop, -⟩ := quiet_step hv hq hu
      exact ⟨l, u, hq, hu, hv.step hu, hstop hcalled, hnu, (hback X hnu).2.not.mpr hfits⟩
  · intro h
    refine System.inevitably_of_measure
      (I := fun t => t.Valid ∧ t.stop ≠ .notCalled ∧ ∀ X, t.Needs X → (t.out X).Fits) Pair.left
      ?_ ?_ ⟨hv, hcalled, h⟩
    · rintro t l u ⟨hv, hcalled, hfits⟩ hq hu
      obtain ⟨hback, hstop, hlt⟩ := quiet_step hv hq hu
      refine ⟨⟨hv.step hu, hstop hcalled, fun X hn => ?_⟩, hlt⟩
      obtain ⟨hs, hiff⟩ := hback X hn
      exact hiff.mpr (hfits X hs)
    · rintro t ⟨hv, hcalled, hfits⟩ hover
      exact quiet_progress hv hcalled hover hfits

end Stop

end GgRelay.InMemory
