import GgRelay.Session.InMemory.Stop

/-!
What the calls of `recv` of the in-memory transports return with, and the stop of a session.

* `Receives` are the items that one side receives in a run, `Delivers` what becomes of its queue;
* `receives_in_order` and `not_raisesForever`: the items come in order, and one call at most raises;
* `stop_and_receive_iff` puts the stop and the receiving together.
-/

namespace GgRelay.InMemory

section Receive

variable {Frame : Type} {s t u : Pair Frame} {X Y Z : Side}

/-- What the side `Y` receives in a step. -/
def received (Y : Side) (s : Pair Frame) : Label Frame → List (Item Frame)
  | .recv Z | .take Z => if Z.peer = Y.peer then (s.out Z.peer).items.head?.toList else []
  | _ => []

/-- What the calls of `recv` of a side return with, in a run: the frames, and the sentinel where
they raise `TransportClosed`. -/
inductive Receives (Y : Side) : Pair Frame → List (Item Frame) → Pair Frame → Prop
  | nil {s : Pair Frame} : Receives Y s [] s
  | step {s t u : Pair Frame} {l : Label Frame} {xs : List (Item Frame)} :
      step s l = some t → Receives Y t xs u → Receives Y s (received Y s l ++ xs) u

/-- Every further call raises, however often it is made. -/
def RaisesForever (Y : Side) (s : Pair Frame) : Prop :=
  ∀ n, ∃ xs u, Receives Y s xs u ∧ n ≤ xs.countP Item.isSentinel

/-- The queue of `X` loses `read` at its head and gains no sentinel that was not on its way. -/
def Delivers (X : Side) (read : List (Item Frame)) (s t : Pair Frame) : Prop :=
  (∃ pushed, (s.out X).items ++ pushed = read ++ (t.out X).items) ∧
    read.countP Item.isSentinel + t.sentinels X ≤ s.sentinels X

lemma delivers_setOut {q : Channel Frame} {read pushed : List (Item Frame)}
    (hq : (s.out Z).items ++ pushed = read ++ q.items)
    (hpushed : pushed.countP Item.isSentinel = 0) :
    Delivers X (if Z = X then read else []) s (s.setOut Z q) := by
  by_cases h : Z = X
  · subst h
    have hcount := congrArg (List.countP Item.isSentinel) hq
    rw [List.countP_append, List.countP_append, hpushed] at hcount
    refine ⟨⟨pushed, by simpa using hq⟩, ?_⟩
    simp [Pair.sentinels]
    omega
  · refine ⟨⟨[], by simp [h, Ne.symm h]⟩, ?_⟩
    simp [Pair.sentinels, h, Ne.symm h]

/-- A queue that only gets frames. -/
lemma delivers_append {q : Channel Frame} (fs : List Frame)
    (hq : q.items = (s.out Z).items ++ fs.map .frame) : Delivers X [] s (s.setOut Z q) := by
  have hfs : (fs.map Item.frame).countP Item.isSentinel = 0 := by
    rw [List.countP_eq_zero]
    intro x hx
    obtain ⟨f, -, rfl⟩ := List.mem_map.mp hx
    simp [Item.isSentinel]
  have hread : (s.out Z).items ++ fs.map .frame = [] ++ q.items := by rw [hq, List.nil_append]
  simpa using @delivers_setOut Frame s X Z q [] _ hread hfs

lemma delivers_trans {read read' : List (Item Frame)} (h : Delivers X read s t)
    (h' : Delivers X read' t u) : Delivers X (read ++ read') s u := by
  obtain ⟨⟨pushed, heq⟩, hle⟩ := h
  obtain ⟨⟨pushed', heq'⟩, hle'⟩ := h'
  refine ⟨⟨pushed ++ pushed', ?_⟩, ?_⟩
  · rw [← List.append_assoc, heq, List.append_assoc, heq', List.append_assoc]
  · rw [List.countP_append]
    omega

lemma delivers_moves {who : Closer} (h : Relation.TransGen (Move who) s t) :
    Delivers X [] s t := by
  have hmove : ∀ {s t : Pair Frame}, Move who s t → Delivers X [] s t := by
    intro s t h
    refine ⟨?_, by simpa using sentinels_move h⟩
    cases h with
    | begin => exact ⟨[], by simp⟩
    | skip => exact ⟨[], by simp⟩
    | @put _ Y =>
        by_cases hY : X = Y
        · exact ⟨[.closeSentinel], by simp [hY]⟩
        · exact ⟨[], by simp [hY]⟩
    | @last _ Y =>
        by_cases hY : X = Y
        · exact ⟨[.closeSentinel], by simp [hY]⟩
        · exact ⟨[], by simp [hY]⟩
    | cancelBody => exact ⟨[], by simp⟩
    | cancelPut => exact ⟨[], by simp⟩
  induction h with
  | single h => exact hmove h
  | tail _ h ih => exact delivers_trans ih (hmove h)

/-- **What a step delivers.** -/
lemma delivers_step {l : Label Frame} (hv : s.Valid) (h : step s l = some t) :
    Delivers X (received X.peer s l) s t := by
  have htake : ∀ {Z : Side} {x : Item Frame} {rest : List (Item Frame)} {q : Channel Frame},
      (s.out Z.peer).items = x :: rest → q.items = rest →
      Delivers X (if Z.peer = X then (s.out Z.peer).items.head?.toList else []) s
        (s.setOut Z.peer q) := fun hitems hq => by
    refine @delivers_setOut Frame s X _ _ _ [] ?_ rfl
    rw [hitems, hq]
    simp
  cases l with
  | send Z f =>
      rw [step] at h
      split_ifs at h with halive hfull
      · obtain rfl := Option.some.inj h
        exact delivers_append [] (by simp)
      · obtain rfl := Option.some.inj h
        exact delivers_append [f] rfl
  | recv Z =>
      rw [step] at h
      split at h
      · rename_i hitems
        obtain rfl := Option.some.inj h
        have hnone : received X.peer s (.recv Z) = [] := by simp [received, hitems]
        rw [hnone]
        exact delivers_append [] (by simp)
      · rename_i x rest hitems
        obtain rfl := Option.some.inj h
        rw [receive_eq (dead_of_head hv hitems), received, Side.peer_peer]
        exact htake hitems rfl
  | dropSend Z i =>
      rw [step] at h
      split_ifs at h
      obtain rfl := Option.some.inj h
      exact delivers_append [] (by simp)
  | dropRecv Z =>
      rw [step] at h
      split_ifs at h
      obtain rfl := Option.some.inj h
      exact delivers_append [] (by simp)
  | enter Z =>
      rw [step] at h
      split at h
      · rename_i f fs hputters hfull
        obtain rfl := Option.some.inj h
        exact delivers_append [f] rfl
      · cases h
  | take Z =>
      rw [step] at h
      split at h
      · rename_i x rest n hitems hgetters
        obtain rfl := Option.some.inj h
        rw [receive_eq, received, Side.peer_peer]
        · have hset : ∀ q q' : Channel Frame, (s.setOut Z.peer q).setOut Z.peer q'
              = s.setOut Z.peer q' := fun q q' => by simp [Pair.setOut]
          rw [hset]
          exact htake hitems rfl
        · exact fun hx => show s.alive Z = false from dead_of_head hv hitems hx
      · cases h
  | callStop =>
      rw [step] at h
      split_ifs at h with hcall
      obtain rfl := Option.some.inj h
      exact ⟨⟨[], by simp [received]⟩, by simp [Pair.sentinels, received, StopCall.puts, hcall]⟩
  | runnerEnds => exact delivers_moves (moves_of_runnerEnds h)
  | task => exact delivers_moves (moves_of_task hv h)
  | stop => exact delivers_moves (moves_of_stop hv h)

/-- **What a run delivers.** -/
theorem delivers_of_receives {xs : List (Item Frame)} (hv : s.Valid)
    (h : Receives X.peer s xs t) : Delivers X xs s t := by
  induction h with
  | nil => exact ⟨⟨[], by simp⟩, by simp⟩
  | step hs _ ih => exact delivers_trans (delivers_step hv hs) (ih (hv.step hs))

/-- The calls of `recv` return what is queued, in order, -/
lemma receives_in_order {xs : List (Item Frame)} (hv : s.Valid) (h : Receives X.peer s xs t) :
    xs <+: (s.out X).items ∨ (s.out X).items <+: xs := by
  obtain ⟨⟨pushed, heq⟩, -⟩ := delivers_of_receives hv h
  refine List.prefix_or_prefix_of_prefix ⟨(t.out X).items, ?_⟩ ⟨pushed, heq⟩
  rfl

/-- and raise once at most. -/
lemma not_raisesForever (hv : s.Valid) : ¬RaisesForever X.peer s := by
  intro h
  obtain ⟨xs, t, hreceives, hle⟩ := h 2
  obtain ⟨-, hcount⟩ := delivers_of_receives hv hreceives
  have := hv.sentinels_le X
  omega

end Receive

/-- **Stopping an in-process session**: called in a reachable state, `stop` returns, in every order
of the steps, exactly if there is room for the sentinels it has to put, once the calls that wait
have gone on; and where a side has been closed, its peer receives what is queued, in order, but it
never is that every further call raises. -/
theorem stop_and_receive_iff {Frame : Type} {maxsize : ℕ} {s t : Pair Frame}
    (h : (transport Frame maxsize).Reachable s) (hstop : step s .callStop = some t) :
    ((transport Frame maxsize).Inevitably Quiet (fun u => u.stop = .returned) t ↔
      ∀ X, s.Needs X → (s.out X).Fits) ∧
    ∀ X, .closeSentinel ∈ (s.out X).items →
      (∀ xs u, Receives X.peer s xs u → xs <+: (s.out X).items ∨ (s.out X).items <+: xs) ∧
        ¬RaisesForever X.peer s := by
  have hv := valid_of_reachable h
  refine ⟨?_, fun X _ => ⟨fun xs u hr => receives_in_order hv hr, not_raisesForever hv⟩⟩
  rw [stop_returns_iff (hv.step hstop)]
  · rw [step] at hstop
    split_ifs at hstop with hcall
    obtain rfl := Option.some.inj hstop
    have hneeds : ∀ X, Pair.Needs { s with stop := .called } X ↔ s.Needs X := fun X => by
      simp only [Pair.Needs, hcall]
    exact forall_congr' fun X => by rw [hneeds]
  · rw [step] at hstop
    split_ifs at hstop with hcall
    obtain rfl := Option.some.inj hstop
    simp

/-- A session that is stopped before it has sent anything. -/
theorem fresh_stop_returns : (transport Unit 1024).Inevitably Quiet (fun u => u.stop = .returned)
    { makePair Unit 1024 with stop := .called } :=
  (stop_and_receive_iff (.init rfl) rfl).1.mpr fun X _ => .inr (by simp [makePair])

/-- The transports after `n` frames of the runner that nobody has read. -/
def unread (n : ℕ) : Pair Unit :=
  (makePair Unit 1024).setOut .runner { maxsize := 1024, items := .replicate n (.frame ()) }

lemma reachable_unread {n : ℕ} (hn : n ≤ 1024) : (transport Unit 1024).Reachable (unread n) := by
  induction n with
  | zero =>
      have hout : Function.update (makePair Unit 1024).out .runner { maxsize := 1024, items := [] }
          = (makePair Unit 1024).out := Function.update_eq_self _ _
      refine .init ?_
      change Pair.setOut _ _ _ = _
      rw [List.replicate_zero, Pair.setOut, hout]
  | succ n ih =>
      refine .step (l := .send .runner ()) (ih (by omega)) trivial ?_
      have hfull : ((unread n).out .runner).full = false := by
        simp [unread, Channel.full]
        omega
      have halive : (unread n).alive .runner = true := rfl
      change step (unread n) (.send .runner ()) = _
      rw [step, if_pos halive, hfull, if_neg Bool.false_ne_true, unread, unread, List.replicate_succ']
      simp [Pair.push, Pair.setOut]

lemma fits_unread {n : ℕ} : ((unread n).out .runner).Fits ↔ n < 1024 := by
  simp [Channel.Fits, unread]

/-- With 1024 unread frames the stop does not return; and a host that has read the frames of a
runner that is done is raised to once. -/
theorem unread_blocks :
    (∃ s t : Pair Unit, (transport Unit 1024).Reachable s ∧ step s .callStop = some t ∧
      ¬(transport Unit 1024).Inevitably Quiet (fun u => u.stop = .returned) t) ∧
    ∃ s : Pair Unit, (transport Unit 1024).Reachable s ∧
      .closeSentinel ∈ (s.out .runner).items ∧ ¬RaisesForever .host s := by
  refine ⟨⟨unread 1024, _, reachable_unread le_rfl, rfl, fun h => ?_⟩,
    (makePair Unit 1024).close .runner .task, ?_, ?_, ?_⟩
  · have hv := valid_of_reachable (reachable_unread le_rfl)
    have hfits := (stop_returns_iff (hv.step (l := .callStop) rfl) (by simp)).mp h .runner rfl
    exact lt_irrefl _ (fits_unread.mp hfits)
  · exact .step (l := .runnerEnds) (.init rfl) trivial rfl
  · decide
  · have hr : (transport Unit 1024).Reachable ((makePair Unit 1024).close .runner .task) :=
      .step (l := .runnerEnds) (.init rfl) trivial rfl
    exact not_raisesForever (X := .runner) (valid_of_reachable hr)

end GgRelay.InMemory
