import GgRelay.Session.InMemory.Pair

/-!
The invariant of the in-memory transports.

* `Move` is what a closer does between two puts: `moves_of_task`, `moves_of_runnerEnds` and
  `moves_of_stop` take the steps of the closers apart into moves;
* `Pair.sentinels` counts the sentinels of a side, in its queue or on their way;
* `Pair.Valid` is the invariant, `Pair.Valid.step` its preservation.
-/

namespace GgRelay.InMemory

section Invariant

variable {Frame : Type}

/-- The number of puts into the queue of this side that wait. -/
def RunnerTask.puts (X : Side) : RunnerTask → ℕ
  | .closing Y => if Y = X then 1 else 0
  | _ => 0

def StopCall.puts (X : Side) : StopCall → ℕ
  | .closing Y => if Y = X then 1 else 0
  | _ => 0

/-- The sentinels of a side: the one in its queue, the one that a closer waits to put there, the
one that is still to come. -/
def Pair.sentinels (s : Pair Frame) (X : Side) : ℕ :=
  (s.out X).items.countP Item.isSentinel + s.runner.puts X + s.stop.puts X + (s.alive X).toNat

/-- The invariant of the transports. -/
structure Pair.Valid (s : Pair Frame) : Prop where
  bounded : ∀ X, (s.out X).maxsize ≠ 0 → (s.out X).items.length ≤ (s.out X).maxsize
  sentinels_le : ∀ X, s.sentinels X ≤ 1
  dead : ∀ X, .closeSentinel ∈ (s.out X).items → ∀ Y, s.alive Y = false
  task_dead : ∀ X, s.runner = .closing X → s.alive .runner = false
  stop_dead : ∀ X, s.stop = .closing X → s.alive .host = false
  not_cancelled : s.stop = .notCalled ∨ s.stop = .called → s.runner ≠ .cancelled
  awaited : s.stop = .awaitsTask → s.runner ≠ .body
  task_over : s.stop = .returned ∨ (∃ X, s.stop = .closing X) → s.runner = .finished

lemma valid_makePair (maxsize : ℕ) : (makePair Frame maxsize).Valid where
  bounded X _ := Nat.zero_le _
  sentinels_le X := by simp [Pair.sentinels, makePair, RunnerTask.puts, StopCall.puts]
  dead X h := by simp [makePair] at h
  task_dead X h := by simp [makePair] at h
  stop_dead X h := by simp [makePair] at h
  not_cancelled _ := by simp [makePair]
  awaited h := by simp [makePair] at h
  task_over h := by simp [makePair] at h

/-- Where a closer is: about to close, or at a put. -/
def Pair.Starts (s : Pair Frame) (X : Side) : Closer → Prop
  | .task => X = .runner ∧ (s.runner = .body ∨ s.runner = .cancelled)
  | .stop => X = .host ∧ (s.stop = .called ∨ s.stop = .awaitsTask) ∧ s.runner = .finished

def Pair.At (s : Pair Frame) (X : Side) : Closer → Prop
  | .task => s.runner = .closing X
  | .stop => s.stop = .closing X

/-- **What a closer does between two puts**; a call of `stop` also cancels the task. -/
inductive Move : Closer → Pair Frame → Pair Frame → Prop
  | begin {s : Pair Frame} {X : Side} {who : Closer} :
      s.Starts X who → s.alive X = true → Move who s ((s.kill X).waits X who)
  | skip {s : Pair Frame} {X : Side} {who : Closer} :
      s.Starts X who → s.alive X = false → Move who s (s.returns who)
  | put {s : Pair Frame} {X : Side} {who : Closer} : s.At X who → (s.out X).full = false →
      s.alive X.peer = true →
      Move who s (((s.push X .closeSentinel).kill X.peer).waits X.peer who)
  | last {s : Pair Frame} {X : Side} {who : Closer} : s.At X who → (s.out X).full = false →
      s.alive X.peer = false → Move who s ((s.push X .closeSentinel).returns who)
  | cancelBody {s : Pair Frame} : s.stop = .called → s.runner = .body →
      Move .stop s { s with runner := .cancelled, stop := .awaitsTask }
  | cancelPut {s : Pair Frame} {X : Side} : s.stop = .called → s.runner = .closing X →
      Move .stop s { s with runner := .finished, stop := .awaitsTask }

section Moves

variable {s t : Pair Frame} {X Y : Side} {who : Closer}

lemma waits_waits : ((s.waits X who).waits Y who) = s.waits Y who := by cases who <;> rfl

lemma waits_returns : ((s.waits X who).returns who) = s.returns who := by cases who <;> rfl

lemma waits_push {x : Item Frame} : (s.waits X who).push Y x = (s.push Y x).waits X who := by
  cases who <;> rfl

lemma waits_kill : (s.waits X who).kill Y = (s.kill Y).waits X who := by cases who <;> rfl

lemma at_waits : (s.waits X who).At X who := by cases who <;> rfl

/-- A put and what follows it. -/
lemma moves_afterPut (hat : s.At X who) (hfull : (s.out X).full = false)
    (hdead : s.alive X = false) :
    Relation.TransGen (Move who) s ((s.push X .closeSentinel).afterPut X who) := by
  have hpeer : X.peer ≠ X := by cases X <;> decide
  rw [Pair.afterPut]
  by_cases halive : s.alive X.peer = true
  · have hput := Move.put hat hfull halive
    rw [Pair.push_alive, if_pos halive]
    by_cases hp : (s.out X.peer).full = true
    · rw [if_pos (by simpa [hpeer] using hp)]
      exact .single hput
    · refine .tail (.single hput) ?_
      rw [if_neg (by simpa [hpeer] using hp)]
      rw [Bool.not_eq_true] at hp
      have hlast := Move.last (s := ((s.push X .closeSentinel).kill X.peer).waits X.peer who)
        at_waits (by simpa [hpeer] using hp) (by simp [hdead])
      rwa [waits_push, waits_returns] at hlast
  · rw [Bool.not_eq_true] at halive
    rw [Pair.push_alive, if_neg (by simp [halive])]
    exact .single (.last hat hfull halive)

lemma moves_close (hstart : s.Starts X who) :
    Relation.TransGen (Move who) s (s.close X who) := by
  rw [Pair.close]
  by_cases halive : s.alive X = true
  · have hbegin := Move.begin hstart halive
    rw [if_neg (by simp [halive])]
    by_cases hfull : (s.out X).full = true
    · rw [if_pos hfull]
      exact .single hbegin
    · rw [Bool.not_eq_true] at hfull
      rw [if_neg (by simp [hfull])]
      refine .head hbegin ?_
      have hmoves := moves_afterPut (s := (s.kill X).waits X who) at_waits
        (by simpa using hfull) (by simp)
      have heq : (((s.kill X).waits X who).push X .closeSentinel).afterPut X who
          = ((s.kill X).push X .closeSentinel).afterPut X who := by
        rw [waits_push]
        simp only [Pair.afterPut, waits_kill, waits_push, waits_waits, waits_returns,
          Pair.waits_alive, Pair.waits_out]
      rwa [heq] at hmoves
  · rw [Bool.not_eq_true] at halive
    rw [if_pos (by simp [halive])]
    exact .single (.skip hstart halive)

end Moves

lemma dead_of_at {s : Pair Frame} {X : Side} {who : Closer} (hv : s.Valid) (hat : s.At X who) :
    s.alive X = false := by
  have hle := hv.sentinels_le X
  by_contra h
  rw [Bool.not_eq_false] at h
  cases who with
  | task =>
      have hr : s.runner = .closing X := hat
      simp [Pair.sentinels, RunnerTask.puts, hr, h] at hle
  | stop =>
      have hs : s.stop = .closing X := hat
      simp [Pair.sentinels, StopCall.puts, hs, h] at hle

lemma moves_resumePut {s t : Pair Frame} {X : Side} {who : Closer} (hv : s.Valid)
    (hat : s.At X who) (h : s.resumePut X who = some t) : Relation.TransGen (Move who) s t := by
  rw [Pair.resumePut] at h
  split_ifs at h with hfull
  obtain rfl := Option.some.inj h
  rw [Bool.not_eq_true] at hfull
  exact moves_afterPut hat hfull (dead_of_at hv hat)

/-- **The steps of the task and of `stop` are moves.** -/
lemma moves_of_task {s t : Pair Frame} (hv : s.Valid) (h : step s .task = some t) :
    Relation.TransGen (Move .task) s t := by
  rw [step] at h
  split at h
  · rename_i hcancelled
    obtain rfl := Option.some.inj h
    exact moves_close ⟨rfl, .inr hcancelled⟩
  · rename_i X hclosing
    exact moves_resumePut hv (show s.At X .task from hclosing) h
  · cases h

lemma moves_of_runnerEnds {s t : Pair Frame} (h : step s .runnerEnds = some t) :
    Relation.TransGen (Move .task) s t := by
  rw [step] at h
  split_ifs at h with hbody
  obtain rfl := Option.some.inj h
  exact moves_close ⟨rfl, .inl hbody⟩

lemma moves_of_stop {s t : Pair Frame} (hv : s.Valid) (h : step s .stop = some t) :
    Relation.TransGen (Move .stop) s t := by
  rw [step] at h
  split at h
  · rename_i hcalled
    split at h
    · rename_i hfinished
      obtain rfl := Option.some.inj h
      exact moves_close ⟨rfl, .inl hcalled, hfinished⟩
    · rename_i hbody
      obtain rfl := Option.some.inj h
      exact .single (.cancelBody hcalled hbody)
    · rename_i hfinished hbody
      obtain rfl := Option.some.inj h
      cases hr : s.runner with
      | closing X => exact .single (.cancelPut hcalled hr)
      | cancelled => exact absurd hr (hv.not_cancelled (.inr hcalled))
      | body => exact absurd hr hbody
      | finished => exact absurd hr hfinished
  · rename_i hawaits
    split_ifs at h with hfinished
    obtain rfl := Option.some.inj h
    exact moves_close ⟨rfl, .inr hawaits, hfinished⟩
  · rename_i X hclosing
    exact moves_resumePut hv (show s.At X .stop from hclosing) h
  · cases h

/-- **A move makes no sentinels.** -/
lemma sentinels_move {s t : Pair Frame} {X : Side} {who : Closer} (h : Move who s t) :
    t.sentinels X ≤ s.sentinels X := by
  cases h with
  | @begin _ Y who hstart halive =>
      cases who with
      | task =>
          obtain ⟨rfl, hr | hr⟩ := hstart <;> cases X <;>
            simp_all [Pair.sentinels, Pair.waits, RunnerTask.puts] <;> omega
      | stop =>
          obtain ⟨rfl, hs | hs, -⟩ := hstart <;> cases X <;>
            simp_all [Pair.sentinels, Pair.waits, StopCall.puts]
  | @skip _ Y who hstart halive =>
      cases who with
      | task =>
          obtain ⟨rfl, hr | hr⟩ := hstart <;>
            simp_all [Pair.sentinels, Pair.returns, RunnerTask.puts]
      | stop =>
          obtain ⟨rfl, hs | hs, -⟩ := hstart <;>
            simp_all [Pair.sentinels, Pair.returns, StopCall.puts]
  | @put _ Y who hat hroom halive =>
      cases who with
      | task =>
          have hr : s.runner = .closing Y := hat
          cases X <;> cases Y <;>
            simp_all [Pair.sentinels, Pair.waits, RunnerTask.puts, Side.peer, Item.isSentinel] <;>
            omega
      | stop =>
          have hs : s.stop = .closing Y := hat
          cases X <;> cases Y <;>
            simp_all [Pair.sentinels, Pair.waits, StopCall.puts, Side.peer, Item.isSentinel] <;>
            omega
  | @last _ Y who hat hroom halive =>
      cases who with
      | task =>
          have hr : s.runner = .closing Y := hat
          cases X <;> cases Y <;>
            simp_all [Pair.sentinels, Pair.returns, RunnerTask.puts, Side.peer, Item.isSentinel]
      | stop =>
          have hs : s.stop = .closing Y := hat
          cases X <;> cases Y <;>
            simp_all [Pair.sentinels, Pair.returns, StopCall.puts, Side.peer, Item.isSentinel] <;>
            omega
  | cancelBody hcall hbody => simp [Pair.sentinels, RunnerTask.puts, StopCall.puts, hcall, hbody]
  | cancelPut hcall hclosing => simp [Pair.sentinels, RunnerTask.puts, StopCall.puts, hcall]

/-- A put that finds room leaves the queue within its bound. -/
lemma length_push {s : Pair Frame} {X : Side} {x : Item Frame} (hfull : (s.out X).full = false)
    (hbounded : ∀ X, (s.out X).maxsize ≠ 0 → (s.out X).items.length ≤ (s.out X).maxsize) (Y : Side)
    (hY : ((s.push X x).out Y).maxsize ≠ 0) :
    ((s.push X x).out Y).items.length ≤ ((s.push X x).out Y).maxsize := by
  rw [Pair.push_out] at hY ⊢
  split_ifs at hY ⊢ with h
  · have hlt : (s.out X).items.length < (s.out X).maxsize := by
      simpa [Channel.full, hY] using hfull
    simpa using hlt
  · exact hbounded Y hY

/-- The sides are two. -/
lemma dead_of_both {s : Pair Frame} {X : Side} (hX : s.alive X = false)
    (hpeer : s.alive X.peer = false) (Y : Side) : s.alive Y = false := by
  cases X <;> cases Y <;> assumption

/-- **A move keeps the invariant.** -/
lemma Pair.Valid.move {s t : Pair Frame} {who : Closer} (hv : s.Valid) (h : Move who s t) :
    t.Valid := by
  have hover : s.runner ≠ .finished → s.stop ≠ .returned ∧ ∀ X, s.stop ≠ .closing X := fun h =>
    ⟨fun hr => h (hv.task_over (.inl hr)), fun X hc => h (hv.task_over (.inr ⟨X, hc⟩))⟩
  have hle : ∀ X, t.sentinels X ≤ 1 := fun X => (sentinels_move h).trans (hv.sentinels_le X)
  cases h with
  | @begin _ X who hstart halive =>
      have hdead : ∀ Z, .closeSentinel ∈ (((s.kill X).waits X who).out Z).items →
          ∀ Y, ((s.kill X).waits X who).alive Y = false := fun Z hZ Y => by
        rw [Pair.waits_out, Pair.kill_out] at hZ
        simp [hv.dead Z hZ Y]
      cases who with
      | task =>
          obtain ⟨rfl, hrunner⟩ := hstart
          obtain ⟨hreturned, hclosing⟩ := hover (by rcases hrunner with hr | hr <;> simp [hr])
          exact ⟨by simpa using hv.bounded, hle, hdead, fun X _ => by simp,
            fun X hX => absurd hX (hclosing X), fun _ => by simp [Pair.waits],
            fun _ => by simp [Pair.waits],
            fun h => h.elim (fun h => absurd h hreturned) fun ⟨X, h⟩ => absurd h (hclosing X)⟩
      | stop =>
          obtain ⟨rfl, -, hrunner⟩ := hstart
          exact ⟨by simpa using hv.bounded, hle, hdead,
            fun X hX => absurd (hrunner.symm.trans hX) (by simp), fun X _ => by simp,
            fun h => by simp [Pair.waits] at h, fun h => by simp [Pair.waits] at h,
            fun _ => hrunner⟩
  | @skip _ X who hstart halive =>
      cases who with
      | task =>
          obtain ⟨rfl, hrunner⟩ := hstart
          obtain ⟨hreturned, hclosing⟩ := hover (by rcases hrunner with hr | hr <;> simp [hr])
          exact ⟨hv.bounded, hle, hv.dead, fun X h => (by cases h),
            fun X hX => absurd hX (hclosing X), fun _ => by simp [Pair.returns],
            fun _ => by simp [Pair.returns], fun _ => rfl⟩
      | stop =>
          obtain ⟨rfl, -, hrunner⟩ := hstart
          exact ⟨hv.bounded, hle, hv.dead, fun X hX => absurd (hrunner.symm.trans hX) (by simp),
            fun X h => (by cases h), fun h => by simp [Pair.returns] at h,
            fun h => by simp [Pair.returns] at h, fun _ => hrunner⟩
  | @put _ X who hat hfull halive =>
      have hdead := dead_of_at hv hat
      have hboth : ∀ Y, (((s.push X .closeSentinel).kill X.peer).waits X.peer who).alive Y = false :=
        fun Y => dead_of_both (X := X) (by simp [hdead]) (by simp) Y
      have hbounded : ∀ Y, ((((s.push X .closeSentinel).kill X.peer).waits X.peer who).out Y).maxsize
          ≠ 0 → _ := fun Y => by
        rw [Pair.waits_out, Pair.kill_out]
        exact length_push hfull hv.bounded Y
      cases who with
      | task =>
          have hrunner : s.runner = .closing X := hat
          obtain ⟨hreturned, hclosing⟩ := hover (by simp [hrunner])
          exact ⟨hbounded, hle, fun _ _ Z => hboth Z, fun _ _ => hboth _,
            fun Y hY => absurd hY (hclosing Y), fun _ => by simp [Pair.waits],
            fun _ => by simp [Pair.waits],
            fun h => h.elim (fun h => absurd h hreturned) fun ⟨Y, h⟩ => absurd h (hclosing Y)⟩
      | stop =>
          have hrunner := hv.task_over (.inr ⟨X, hat⟩)
          exact ⟨hbounded, hle, fun _ _ Z => hboth Z, fun _ _ => hboth _, fun _ _ => hboth _,
            fun h => by simp [Pair.waits] at h, fun h => by simp [Pair.waits] at h,
            fun _ => hrunner⟩
  | @last _ X who hat hfull halive =>
      have hdead := dead_of_at hv hat
      have hboth : ∀ Y, ((s.push X .closeSentinel).returns who).alive Y = false :=
        fun Y => dead_of_both (X := X) (by simp [hdead]) (by simp [halive]) Y
      have hbounded : ∀ Y, (((s.push X .closeSentinel).returns who).out Y).maxsize ≠ 0 → _ :=
        fun Y => by
          rw [Pair.returns_out]
          exact length_push hfull hv.bounded Y
      cases who with
      | task =>
          have hrunner : s.runner = .closing X := hat
          obtain ⟨hreturned, hclosing⟩ := hover (by simp [hrunner])
          exact ⟨hbounded, hle, fun _ _ Z => hboth Z, fun _ _ => hboth _,
            fun Y hY => absurd hY (hclosing Y), fun _ => by simp [Pair.returns],
            fun _ => by simp [Pair.returns], fun _ => rfl⟩
      | stop =>
          have hrunner := hv.task_over (.inr ⟨X, hat⟩)
          exact ⟨hbounded, hle, fun _ _ Z => hboth Z, fun _ _ => hboth _, fun _ _ => hboth _,
            fun h => by simp [Pair.returns] at h, fun h => by simp [Pair.returns] at h,
            fun _ => hrunner⟩
  | cancelBody hcalled hbody =>
      exact ⟨hv.bounded, hle, hv.dead, fun X h => (by cases h), fun X h => (by cases h),
        fun h => by simp at h, fun _ => by simp, fun h => by simp at h⟩
  | cancelPut hcalled hclosing =>
      exact ⟨hv.bounded, hle, hv.dead, fun X h => (by cases h), fun X h => (by cases h),
        fun h => by simp at h, fun _ => by simp, fun h => by simp at h⟩

lemma Pair.Valid.moves {s t : Pair Frame} {who : Closer} (hv : s.Valid)
    (h : Relation.TransGen (Move who) s t) : t.Valid := by
  induction h with
  | single h => exact hv.move h
  | tail _ h ih => exact ih.move h

/-- A queue may change as long as it keeps its bound and gains no sentinel. -/
lemma Pair.Valid.setOut {s : Pair Frame} {X : Side} {q : Channel Frame} (hv : s.Valid)
    (hbounded : q.maxsize ≠ 0 → q.items.length ≤ q.maxsize)
    (hcount : q.items.countP Item.isSentinel ≤ (s.out X).items.countP Item.isSentinel) :
    (s.setOut X q).Valid where
  bounded Y := by
    rw [setOut_out]
    split_ifs with h
    · exact hbounded
    · exact hv.bounded Y
  sentinels_le Y := by
    have hcount : ((s.setOut X q).out Y).items.countP Item.isSentinel
        ≤ (s.out Y).items.countP Item.isSentinel := by
      rw [setOut_out]
      split_ifs with h
      · exact h ▸ hcount
      · exact le_rfl
    exact le_trans (Nat.add_le_add_right (Nat.add_le_add_right (Nat.add_le_add_right hcount _) _) _)
      (hv.sentinels_le Y)
  dead Y hY := by
    rw [setOut_out] at hY
    split_ifs at hY with h
    · have hpos : 0 < q.items.countP Item.isSentinel :=
        List.countP_pos_iff.mpr ⟨_, hY, rfl⟩
      obtain ⟨x, hx, hsentinel⟩ := List.countP_pos_iff.mp (hpos.trans_le hcount)
      cases x with
      | frame f => cases hsentinel
      | closeSentinel => exact hv.dead X hx
    · exact hv.dead Y hY
  task_dead := hv.task_dead
  stop_dead := hv.stop_dead
  not_cancelled := hv.not_cancelled
  awaited := hv.awaited
  task_over := hv.task_over

/-- What is taken out was in; a sentinel finds its reader closed. -/
lemma receive_eq {s : Pair Frame} {Y : Side} {x : Item Frame} {rest : List (Item Frame)}
    (hdead : x = .closeSentinel → s.alive Y = false) :
    s.receive Y x rest = s.setOut Y.peer { s.out Y.peer with items := rest } := by
  cases x with
  | frame f => rfl
  | closeSentinel =>
      have halive : Function.update s.alive Y false = s.alive := by
        rw [← hdead rfl, Function.update_eq_self]
      simp only [Pair.receive, Pair.kill, Pair.setOut_alive, halive]
      rfl

lemma dead_of_head {s : Pair Frame} {X Y : Side} {x : Item Frame} {rest : List (Item Frame)}
    (hv : s.Valid) (h : (s.out X).items = x :: rest) (hx : x = .closeSentinel) :
    s.alive Y = false :=
  hv.dead X (by rw [h, hx]; exact List.mem_cons_self) Y

lemma items_tail {q : Channel Frame} {x : Item Frame} {rest : List (Item Frame)}
    (h : q.items = x :: rest) (hb : q.maxsize ≠ 0 → q.items.length ≤ q.maxsize) :
    (q.maxsize ≠ 0 → rest.length ≤ q.maxsize) ∧
      rest.countP Item.isSentinel ≤ q.items.countP Item.isSentinel := by
  rw [h] at hb ⊢
  refine ⟨fun hne => ?_, (List.sublist_cons_self x rest).countP_le⟩
  have := hb hne
  rw [List.length_cons] at this
  omega

/-- **Every step keeps the invariant.** -/
lemma Pair.Valid.step {s t : Pair Frame} {l : Label Frame} (hv : s.Valid)
    (h : InMemory.step s l = some t) : t.Valid := by
  cases l with
  | send X f =>
      rw [InMemory.step] at h
      split_ifs at h with halive hfull
      · obtain rfl := Option.some.inj h
        exact hv.setOut (hv.bounded X) le_rfl
      · obtain rfl := Option.some.inj h
        rw [Bool.not_eq_true] at hfull
        refine hv.setOut (fun hne => ?_) (by simp [Item.isSentinel])
        simpa using length_push (x := .frame f) hfull hv.bounded X (by simpa using hne)
  | recv Y =>
      rw [InMemory.step] at h
      split at h
      · obtain rfl := Option.some.inj h
        exact hv.setOut (hv.bounded Y.peer) le_rfl
      · rename_i x rest hitems
        obtain rfl := Option.some.inj h
        obtain ⟨hb, hc⟩ := items_tail hitems (hv.bounded Y.peer)
        rw [receive_eq (dead_of_head hv hitems)]
        exact hv.setOut hb hc
  | dropSend X i =>
      rw [InMemory.step] at h
      split_ifs at h
      obtain rfl := Option.some.inj h
      exact hv.setOut (hv.bounded X) le_rfl
  | dropRecv Y =>
      rw [InMemory.step] at h
      split_ifs at h
      obtain rfl := Option.some.inj h
      exact hv.setOut (hv.bounded Y.peer) le_rfl
  | enter X =>
      rw [InMemory.step] at h
      split at h
      · rename_i f fs hputters hfull
        obtain rfl := Option.some.inj h
        refine hv.setOut (fun hne => ?_) (by simp [Item.isSentinel])
        simpa using length_push (x := .frame f) hfull hv.bounded X (by simpa using hne)
      · cases h
  | take Y =>
      rw [InMemory.step] at h
      split at h
      · rename_i x rest n hitems hgetters
        obtain rfl := Option.some.inj h
        obtain ⟨hb, hc⟩ := items_tail hitems (hv.bounded Y.peer)
        have hv' : (s.setOut Y.peer { s.out Y.peer with getters := n }).Valid :=
          hv.setOut (hv.bounded Y.peer) le_rfl
        rw [receive_eq]
        · exact hv'.setOut (by simpa using hb) (by simpa using hc)
        · exact fun hx => show s.alive Y = false from dead_of_head hv hitems hx
      · cases h
  | runnerEnds => exact hv.moves (moves_of_runnerEnds h)
  | callStop =>
      rw [InMemory.step] at h
      split_ifs at h with hcall
      obtain rfl := Option.some.inj h
      refine ⟨hv.bounded, fun X => ?_, hv.dead, hv.task_dead, fun X h => (by cases h),
        fun _ => hv.not_cancelled (.inl hcall), fun h => (by cases h), fun h => ?_⟩
      · have hX := hv.sentinels_le X
        simp_all [Pair.sentinels, StopCall.puts]
      · rcases h with h | ⟨X, h⟩ <;> cases h
  | task => exact hv.moves (moves_of_task hv h)
  | stop => exact hv.moves (moves_of_stop hv h)

lemma valid_of_reachable {maxsize : ℕ} {s : Pair Frame}
    (h : (transport Frame maxsize).Reachable s) : s.Valid :=
  h.invariant (fun _ h => h ▸ valid_makePair maxsize) fun _ _ _ hv _ h => hv.step h

end Invariant

end GgRelay.InMemory
