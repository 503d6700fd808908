import GgRelay.Session.Manager.WellFormed

/-!
The caps on paused sessions.

`_check_paused_caps` runs before `pause` awaits the version and the ack, and the sessions and
their keys are counted after them.

* `Finset.countKey` counts the sessions of a set that belong to a key; `incrementKey` and
  `decrementKey` keep a dictionary of such counts exact (`KeyCounts.increment`,
  `KeyCounts.decrement`);
* `CapsGuard` is the condition under which a step keeps the caps: the check that `pause` made
  still passes when its ack arrives, and the session is not counted already;
* `caps_hold` is the result about runs, `concurrent_pauses_exceed_cap` a run of two concurrent
  calls of `pause` that exceeds both caps.
-/

namespace GgRelay

/-- The sessions of `s` that were submitted with the key `k`. -/
def countKey (s : Finset SessionId) (key : SessionId → Option ApiKeyId) (k : ApiKeyId) : ℕ :=
  (s.filter fun sid => key sid = some k).card

lemma countKey_congr {s : Finset SessionId} {key key' : SessionId → Option ApiKeyId}
    (h : ∀ sid ∈ s, key sid = key' sid) (k : ApiKeyId) : countKey s key k = countKey s key' k := by
  unfold countKey
  rw [Finset.filter_congr fun sid hs => by rw [h sid hs]]

lemma countKey_insert {s : Finset SessionId} {sid : SessionId} (h : sid ∉ s)
    (key : SessionId → Option ApiKeyId) (k : ApiKeyId) :
    countKey (insert sid s) key k = countKey s key k + if key sid = some k then 1 else 0 := by
  unfold countKey
  rw [Finset.filter_insert]
  split
  · rw [Finset.card_insert_of_notMem fun hm => h (Finset.mem_filter.mp hm).1]
  · rfl

lemma countKey_erase {s : Finset SessionId} {sid : SessionId} (h : sid ∈ s)
    (key : SessionId → Option ApiKeyId) (k : ApiKeyId) :
    countKey (s.erase sid) key k + (if key sid = some k then 1 else 0) = countKey s key k := by
  rw [← countKey_insert (Finset.notMem_erase sid s), Finset.insert_erase h]

/-- The dictionary holds the counts, and no entry for a count of zero. -/
def KeyCounts (byKey : ApiKeyId → Option ℕ) (count : ApiKeyId → ℕ) : Prop :=
  ∀ k, byKey k = if count k = 0 then none else some (count k)

/-- A session without a key is not counted by key. -/
lemma Manager.incrementKey_of_keyless {byKey : ApiKeyId → Option ℕ} {e : Option (Option ApiKeyId)}
    (h : ∀ k, e = some k → k = none) : Manager.incrementKey byKey e = byKey := by
  rcases e with _ | _ | k
  · rfl
  · rfl
  · simpa using h _ rfl

lemma Manager.decrementKey_of_keyless {byKey : ApiKeyId → Option ℕ} {e : Option (Option ApiKeyId)}
    (h : ∀ k, e = some k → k = none) : Manager.decrementKey byKey e = byKey := by
  rcases e with _ | _ | k
  · rfl
  · rfl
  · simpa using h _ rfl

namespace KeyCounts

variable {byKey : ApiKeyId → Option ℕ} {count : ApiKeyId → ℕ}

lemma getD (h : KeyCounts byKey count) (k : ApiKeyId) : (byKey k).getD 0 = count k := by
  rw [h k]
  split
  · rename_i hz
    rw [hz]
    rfl
  · rfl

lemma congr {count' : ApiKeyId → ℕ} (h : KeyCounts byKey count) (he : ∀ k, count' k = count k) :
    KeyCounts byKey count' := fun k => by rw [h k, he k]

/-- One more session of the key `k`. -/
lemma increment {count' : ApiKeyId → ℕ} {k : ApiKeyId} (h : KeyCounts byKey count)
    (he : ∀ j, count' j = count j + if some k = some j then 1 else 0) :
    KeyCounts (Manager.incrementKey byKey (some (some k))) count' := by
  intro j
  have hk := h.getD k
  rw [Manager.incrementKey, Function.update_apply, hk, he j]
  by_cases hj : j = k
  · subst hj
    simp
  · simp [hj, Ne.symm hj, h j]

/-- One session of the key `k` less. -/
lemma decrement {count' : ApiKeyId → ℕ} {k : ApiKeyId} (h : KeyCounts byKey count)
    (he : ∀ j, count' j + (if some k = some j then 1 else 0) = count j) :
    KeyCounts (Manager.decrementKey byKey (some (some k))) count' := by
  intro j
  have hk := h.getD k
  have hc := he k
  rw [if_pos rfl] at hc
  simp only [Manager.decrementKey, Function.update_apply, hk]
  by_cases hj : j = k
  · subst hj
    rw [if_pos rfl, ← hc, Nat.add_sub_cancel]
  · have := he j
    rw [if_neg (by simpa using Ne.symm hj)] at this
    rw [if_neg hj, h j, ← this, Nat.add_zero]

end KeyCounts

namespace Manager

/-- The paused sessions that were submitted with the key `k`. -/
def pausedWith (m : Manager) (k : ApiKeyId) : ℕ :=
  countKey m.pausedSet (fun sid => (m.sess sid).submittedKey) k

/-- A `pause` that gets its ack now is counted once, under its own key. -/
def CountedOnce (m : Manager) (sid : SessionId) : Prop :=
  if sid ∈ m.pausedSet then (m.sess sid).submittedKey = none
  else (m.sess sid).submittedKey ≠ none → (m.sess sid).apiKey ≠ none

/-- A `pause` that gets its ack now is counted once, and finds room under both caps: the check it
made before its `await`s would pass again. -/
def Admits (cfg : ManagerConfig) (m : Manager) (sid : SessionId) : Prop :=
  m.CountedOnce sid ∧ (sid ∈ m.pausedSet ∨ m.checkPausedCaps cfg sid = true)

instance (m : Manager) (sid : SessionId) : Decidable (m.CountedOnce sid) := by
  unfold CountedOnce
  infer_instance

instance (cfg : ManagerConfig) (m : Manager) (sid : SessionId) : Decidable (m.Admits cfg sid) := by
  unfold Admits
  infer_instance

/-- The steps that keep the caps. -/
def CapsGuard (cfg : ManagerConfig) (m : Manager) (l : Label) : Prop :=
  ∀ sid ∈ m.pauseAck l, m.Admits cfg sid

instance (cfg : ManagerConfig) (m : Manager) (l : Label) : Decidable (m.CapsGuard cfg l) := by
  unfold CapsGuard
  infer_instance

variable {cfg : ManagerConfig} {m m' : Manager} {l : Label}

/-! ### The count of the paused sessions -/

/-- How a step changes `_paused_set` and `_paused_by_key`. -/
lemma pausedSet_step (h : Move cfg m l m') :
    (m'.pausedSet = m.pausedSet ∧ m'.pausedByKey = m.pausedByKey) ∨
    (∃ sid ∈ m.pauseAck l, m'.pausedSet = insert sid m.pausedSet ∧
      m'.pausedByKey = incrementKey m.pausedByKey (m.sess sid).apiKey) ∨
    ∃ sid ∈ m.pausedSet, m'.pausedSet = m.pausedSet.erase sid ∧
      m'.pausedByKey = decrementKey m.pausedByKey (m.sess sid).apiKey := by
  -- a release of a session that is not paused changes neither
  have herase : ∀ sid, (m.pausedSet.erase sid = m.pausedSet ∧ (if sid ∈ m.pausedSet then
      decrementKey m.pausedByKey (m.sess sid).apiKey else m.pausedByKey) = m.pausedByKey) ∨
      sid ∈ m.pausedSet := fun sid => by
    by_cases hs : sid ∈ m.pausedSet
    · exact Or.inr hs
    · exact Or.inl ⟨Finset.erase_eq_of_notMem hs, if_neg hs⟩
  cases h with
  | pauseAcked hl _ _ => exact Or.inr (Or.inl ⟨_, hl, by simp, by simp⟩)
  | @resumeAcked _ _ sid _ _ _ =>
      rcases herase sid with ⟨h₁, h₂⟩ | hs
      · exact Or.inl ⟨h₁, h₂⟩
      · exact Or.inr (Or.inr ⟨sid, hs, rfl, if_pos hs⟩)
  | @cancelled _ _ sid _ _ _ _ =>
      rcases herase sid with ⟨h₁, h₂⟩ | hs
      · exact Or.inl ⟨by simpa using h₁, by simpa using h₂⟩
      · exact Or.inr (Or.inr ⟨sid, hs, by simp, by simp [hs]⟩)
  | @runEnded sid _ _ _ _ | @runRefused sid _ _ _ _ =>
      rcases herase sid with ⟨h₁, h₂⟩ | hs
      · exact Or.inl ⟨by simpa using h₁, by simpa using h₂⟩
      · exact Or.inr (Or.inr ⟨sid, hs, by simp, by simp [hs]⟩)
  | _ => exact Or.inl ⟨by simp, by simp⟩

/-- What a step does not change about the sessions that are paused after it. -/
lemma keys_step (hw : m.WellFormed) (h : Move cfg m l m') (sid : SessionId)
    (hs : sid ∈ m'.pausedSet) :
    (m'.sess sid).submittedKey = (m.sess sid).submittedKey ∧
      (m'.sess sid).apiKey = (m.sess sid).apiKey := by
  have hp := hw.paused sid
  have hl := hw.launched
  have hsub := hw.submitting
  revert hs
  cases h with
  | _ =>
    simp [Function.update_apply] <;> grind

/-- The account of the paused sessions by key. -/
structure CountInv (m : Manager) : Prop where
  counts : KeyCounts m.pausedByKey m.pausedWith
  /-- a paused session with a key is released under that key -/
  entry : ∀ sid ∈ m.pausedSet, (m.sess sid).submittedKey ≠ none →
    (m.sess sid).apiKey = some (m.sess sid).submittedKey

lemma countInv_fresh (cfg : ManagerConfig) (rows : List SessionRow) :
    (fresh cfg rows).CountInv where
  counts _ := rfl
  entry _ h := by simp [fresh] at h

/-- The sessions paused after a step, counted with the keys of before. -/
lemma pausedWith_step (hw : m.WellFormed) (h : Move cfg m l m') (k : ApiKeyId) :
    m'.pausedWith k = countKey m'.pausedSet (fun sid => (m.sess sid).submittedKey) k :=
  countKey_congr (fun sid hs => (keys_step hw h sid hs).1) k

namespace CountInv

lemma counts_step (hi : m.CountInv) (hw : m.WellFormed)
    (hg : ∀ sid ∈ m.pauseAck l, m.CountedOnce sid) (h : Move cfg m l m') :
    KeyCounts m'.pausedByKey m'.pausedWith := by
  refine KeyCounts.congr ?_ (pausedWith_step hw h)
  have hc := hi.counts
  rcases pausedSet_step h with ⟨hs, hk⟩ | ⟨sid, hl, hs, hk⟩ | ⟨sid, hm, hs, hk⟩
  · rw [hs, hk]
    exact hc
  · have ho := hg sid hl
    rw [hs, hk]
    cases hkey : (m.sess sid).submittedKey with
    | none =>
        rw [incrementKey_of_keyless fun k hk => by simpa [hkey] using hw.entry sid _ hk]
        refine hc.congr fun k => ?_
        by_cases hm : sid ∈ m.pausedSet
        · rw [Finset.insert_eq_of_mem hm, pausedWith]
        · rw [countKey_insert hm, hkey, if_neg (by simp), Nat.add_zero, pausedWith]
    | some k =>
        have hm : sid ∉ m.pausedSet := fun hm => by simp [CountedOnce, hm, hkey] at ho
        rw [CountedOnce, if_neg hm, hkey] at ho
        obtain ⟨x, hx⟩ := Option.ne_none_iff_exists'.mp (ho (by simp))
        rw [hx, hw.entry sid x hx, hkey]
        refine hc.increment fun j => ?_
        rw [countKey_insert hm, hkey, pausedWith]
  · rw [hs, hk]
    have he := hi.entry sid hm
    cases hkey : (m.sess sid).submittedKey with
    | none =>
        rw [decrementKey_of_keyless fun k hk => by simpa [hkey] using hw.entry sid _ hk]
        refine hc.congr fun k => ?_
        have hcount := countKey_erase hm (fun sid => (m.sess sid).submittedKey) k
        rw [hkey, if_neg (by simp), Nat.add_zero] at hcount
        rw [hcount, pausedWith]
    | some k =>
        rw [he (by simp [hkey]), hkey]
        refine hc.decrement fun j => ?_
        rw [← hkey]
        exact countKey_erase hm (fun sid => (m.sess sid).submittedKey) j

lemma entry_step (hi : m.CountInv) (hw : m.WellFormed)
    (hg : ∀ sid ∈ m.pauseAck l, m.CountedOnce sid) (h : Move cfg m l m') :
    ∀ sid ∈ m'.pausedSet, (m'.sess sid).submittedKey ≠ none →
      (m'.sess sid).apiKey = some (m'.sess sid).submittedKey := by
  intro sid hs hk
  obtain ⟨h₁, h₂⟩ := keys_step hw h sid hs
  rw [h₁] at hk
  rw [h₁, h₂]
  by_cases hm : sid ∈ m.pausedSet
  · exact hi.entry sid hm hk
  · -- the session has just been paused
    rcases pausedSet_step h with ⟨hs', -⟩ | ⟨sid', hl, hs', -⟩ | ⟨sid', -, hs', -⟩
    · exact absurd (hs' ▸ hs) hm
    · rw [hs', Finset.mem_insert] at hs
      obtain rfl := hs.resolve_right hm
      have ho := hg sid hl
      rw [CountedOnce, if_neg hm] at ho
      obtain ⟨x, hx⟩ := Option.ne_none_iff_exists'.mp (ho hk)
      rw [hx, hw.entry sid x hx]
    · rw [hs'] at hs
      exact absurd (Finset.mem_of_mem_erase hs) hm

theorem step (hi : m.CountInv) (hw : m.WellFormed)
    (hg : ∀ sid ∈ m.pauseAck l, m.CountedOnce sid) (h : Move cfg m l m') : m'.CountInv where
  counts := hi.counts_step hw hg h
  entry := hi.entry_step hw hg h

end CountInv

/-! ### The caps -/

/-- The caps hold, and the dictionary is exact. -/
structure CapsHold (cfg : ManagerConfig) (m : Manager) : Prop where
  total : m.pausedSet.card ≤ cfg.maxPaused
  perKey : ∀ k, m.pausedWith k ≤ cfg.maxPausedPerApiKey
  counts : KeyCounts m.pausedByKey m.pausedWith

/-- The caps, and what keeps the dictionary exact. -/
structure CapsInv (cfg : ManagerConfig) (m : Manager) : Prop extends m.CapsHold cfg, m.CountInv

namespace CapsInv

lemma total_step (hi : m.CapsInv cfg) (hg : m.CapsGuard cfg l) (h : Move cfg m l m') :
    m'.pausedSet.card ≤ cfg.maxPaused := by
  have ht := hi.total
  rcases pausedSet_step h with ⟨hs, -⟩ | ⟨sid, hl, hs, -⟩ | ⟨sid, hm, hs, -⟩
  · rwa [hs]
  · rw [hs]
    rcases (hg sid hl).2 with hm | hroom
    · rwa [Finset.insert_eq_of_mem hm]
    · have hlt : m.pausedSet.card < cfg.maxPaused := by
        by_contra hn
        rw [checkPausedCaps, if_pos (Nat.le_of_not_lt hn)] at hroom
        simp at hroom
      exact (Finset.card_insert_le _ _).trans hlt
  · rw [hs]
    exact (Finset.card_erase_le).trans ht

lemma perKey_step (hi : m.CapsInv cfg) (hw : m.WellFormed) (hg : m.CapsGuard cfg l)
    (h : Move cfg m l m') (k : ApiKeyId) : m'.pausedWith k ≤ cfg.maxPausedPerApiKey := by
  have hp := hi.perKey k
  rw [pausedWith_step hw h]
  rcases pausedSet_step h with ⟨hs, -⟩ | ⟨sid, hl, hs, -⟩ | ⟨sid, hm, hs, -⟩
  · rwa [hs]
  · rw [hs]
    obtain ⟨ho, hroom⟩ := hg sid hl
    by_cases hm : sid ∈ m.pausedSet
    · rwa [Finset.insert_eq_of_mem hm]
    · rw [countKey_insert hm]
      split
      · rename_i hkey
        -- the session counts against `k`, and the check says there is room
        rw [CountedOnce, if_neg hm, hkey] at ho
        obtain ⟨x, hx⟩ := Option.ne_none_iff_exists'.mp (ho (by simp))
        have hroom := hroom.resolve_left hm
        rw [checkPausedCaps, hx, hw.entry sid x hx, hkey] at hroom
        simp only [ge_iff_le, hi.counts.getD, Bool.if_false_left, Bool.and_eq_true,
          Bool.not_eq_eq_eq_not, Bool.not_true, decide_eq_false_iff_not, decide_eq_true_eq] at hroom
        exact hroom.2
      · exact hp
  · rw [hs]
    have := countKey_erase hm (fun sid => (m.sess sid).submittedKey) k
    rw [pausedWith] at hp
    omega

theorem step (hi : m.CapsInv cfg) (hw : m.WellFormed) (hg : m.CapsGuard cfg l)
    (h : Move cfg m l m') : m'.CapsInv cfg where
  total := hi.total_step hg h
  perKey := hi.perKey_step hw hg h
  counts := hi.counts_step hw (fun sid hl => (hg sid hl).1) h
  entry := hi.entry_step hw (fun sid hl => (hg sid hl).1) h

end CapsInv

/-- **The caps hold in every run that keeps to `CapsGuard`.** -/
theorem caps_hold (h : (managerSystem cfg).ReachableVia (CapsGuard cfg) m) : m.CapsHold cfg := by
  suffices m.CapsInv cfg from this.toCapsHold
  refine h.invariant_of (fun _ => wellFormed_of_reachable) ?_ ?_
  · rintro _ ⟨rows, rfl⟩
    have hi := countInv_fresh cfg rows
    exact ⟨⟨Nat.zero_le _, fun _ => Nat.zero_le _, hi.counts⟩, hi.entry⟩
  · intro s l t hw hi hg hst
    exact hi.step hw hg (step_move hst)

/-- A session with a key that is paused and resumed. -/
theorem caps_hold_of_pause_resume :
    ∃ m, (managerSystem oneSlot).checkedRun (CapsGuard oneSlot) (fresh oneSlot [])
      (driveRun { apiKeyId := some 7 } ++ pauseCalls ++ resumeCalls) = some m ∧
        m.CapsHold oneSlot := by
  have hrun : ((managerSystem oneSlot).checkedRun (CapsGuard oneSlot) (fresh oneSlot [])
      (driveRun { apiKeyId := some 7 } ++ pauseCalls ++ resumeCalls)).isSome := by decide
  obtain ⟨m, hm⟩ := Option.isSome_iff_exists.mp hrun
  exact ⟨m, hm, caps_hold (reachableVia_of_run hm)⟩

/-- Two sessions of one key, and a call of `pause` for each that passes the check before the other
gets its ack. -/
def concurrentPauses : List Label :=
  driveRun { apiKeyId := some 7 } 0 0 ++ driveRun { apiKeyId := some 7 } 1 1 ++
    [.pause 0, .pause 1, .call 2 .ok, .call 3 .ok, .call 2 (.ack true), .call 3 (.ack true)]

/-- Two concurrent calls of `pause` exceed a global cap of one and a cap of one for their key. -/
theorem concurrent_pauses_exceed_cap :
    ∃ m, (managerSystem twoSlots).run (fresh twoSlots []) concurrentPauses = some m ∧
      (managerSystem twoSlots).Reachable m ∧ m.pausedSet.card = 2 ∧ m.pausedWith 7 = 2 ∧
      ¬m.CapsHold twoSlots := by
  have hrun : ((managerSystem twoSlots).run (fresh twoSlots []) concurrentPauses).map
      (fun m => (m.pausedSet.card, m.pausedWith 7)) = some (2, 2) := by decide
  obtain ⟨m, hm, he⟩ := Option.map_eq_some_iff.mp hrun
  obtain ⟨hc, hk⟩ := Prod.mk.inj he
  refine ⟨m, hm, reachable_of_run hm, hc, hk, fun h => ?_⟩
  have ht := h.total
  rw [hc] at ht
  exact absurd ht (by decide)

end Manager

end GgRelay
